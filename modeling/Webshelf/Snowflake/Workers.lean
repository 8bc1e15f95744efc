import Webshelf.Lib.Threads
import Webshelf.Snowflake.Generator
import Webshelf.Store.User

/-!
# The registration of snowflake workers

Every server process takes a worker id by inserting a row of
`snowflake_worker`, keeps the row alive with heartbeats and deletes it when it
stops. The statements name the row by its worker id only.
-/

namespace Webshelf

def STALE_WORKER_SECS : Int := 30

abbrev ProcessId := Nat

/-- A row of `snowflake_worker`; the table is keyed by `worker_id`. -/
structure SnowflakeWorker where
  host : String
  pid : Int
  heartbeat : Time
  createdAt : Time
  /-- The registration that inserted the row; not a column. -/
  insertedBy : Option Nat
  deriving DecidableEq

inductive SnowflakeError where
  | noAvailableWorker
  | workerIdTaken
  | db
  deriving DecidableEq

/-- What a call of `init` does next. -/
inductive Init where
  /-- Looks whether the process has a generator. -/
  | start
  /-- The DELETE of `clean_stale_workers`. -/
  | clean (deadline : Time)
  | selectUsed
  /-- The loop of `register_worker` has come to `wid`. -/
  | attempt (used : List Nat) (wid : Nat)
  /-- The INSERT of `try_insert_worker`. -/
  | insert (used : List Nat) (wid : Nat) (now : Time)
  /-- Registered; the generator is still to be set. -/
  | registered (workerId : Nat)
  /-- The heartbeat task waits for a tick or for the stop signal. -/
  | serving (workerId : Nat)
  | heartbeat (workerId : Nat) (now : Time)
  | deregister (workerId : Nat)
  /-- Returned a handle without a heartbeat task. -/
  | noop
  | failed (e : SnowflakeError)
  | stopped
  deriving DecidableEq

/-- A call of `init`, with the process it runs in. -/
structure Registration where
  process : ProcessId
  host : String
  pid : Int
  phase : Init := .start
  deriving DecidableEq

/-- What the processes share, and the `GLOBAL_GENERATOR` of each. -/
structure Workers where
  clock : Time
  table : Nat → Option SnowflakeWorker
  generator : ProcessId → Option SnowflakeGenerator
  crashed : ProcessId → Bool

/-- How a statement goes. A process that has lost the answer takes it for an error. -/
inductive Outcome where
  | done
  | failed
  | lost
  deriving DecidableEq

inductive WorkerInput where
  | go (outcome : Outcome)
  /-- The handle has been dropped. -/
  | stop
  deriving DecidableEq

namespace Workers

def setRow (s : Workers) (wid : Nat) (row : Option SnowflakeWorker) : Workers :=
  { s with table := Function.update s.table wid row }

/-- `DELETE ... WHERE heartbeat < deadline`. -/
def cleanStale (s : Workers) (deadline : Time) : Workers :=
  { s with table := fun wid => (s.table wid).filter fun row => !decide (row.heartbeat < deadline) }

/-- `UPDATE ... SET heartbeat = now WHERE worker_id = wid`. -/
def beat (s : Workers) (wid : Nat) (now : Time) : Workers :=
  s.setRow wid ((s.table wid).map fun row => { row with heartbeat := now })

def crash (s : Workers) (p : ProcessId) : Workers :=
  { s with crashed := Function.update s.crashed p true }

theorem runs_before_crash {s : Workers} {p q : ProcessId} (h : (s.crash p).crashed q = false) :
    s.crashed q = false := by
  simp only [crash] at h
  by_cases hq : q = p
  · rw [hq, Function.update_self] at h
    cases h
  · rwa [Function.update_of_ne hq] at h

end Workers

/-- The next step of the call of `init` with number `n`. -/
def Init.next (n : Nat) (s : Workers) (r : Registration) : WorkerInput → Option (Workers × Init)
  | .stop => match r.phase with
    | .serving wid => some (s, .deregister wid)
    | _ => none
  | .go outcome => match r.phase with
    | .start => some (s,
        if (s.generator r.process).isSome then .noop
        else .clean (s.clock - seconds STALE_WORKER_SECS))
    | .clean deadline => match outcome with
      | .done => some (s.cleanStale deadline, .selectUsed)
      | .failed => some (s, .failed .db)
      | .lost => some (s.cleanStale deadline, .failed .db)
    | .selectUsed => match outcome with
      | .done => some (s,
          .attempt ((List.range 1024).filter fun wid => (s.table wid).isSome) 0)
      | .failed | .lost => some (s, .failed .db)
    | .attempt used wid => some (s,
        if MAX_WORKER_ID.toNat < wid then .failed .noAvailableWorker
        else if used.contains wid then .attempt used (wid + 1)
        else .insert used wid s.clock)
    | .insert used wid now =>
      let inserted := s.setRow wid (some ⟨r.host, r.pid, now, now, some n⟩)
      match s.table wid, outcome with
      | _, .failed => some (s, .failed .db)
      | some _, .lost => some (s, .failed .db)
      | some _, .done => some (s, .attempt used (wid + 1))
      | none, .lost => some (inserted, .failed .db)
      | none, .done => some (inserted, .registered wid)
    | .registered wid => (SnowflakeGenerator.new wid.toUInt64).map fun generator =>
        if (s.generator r.process).isSome then (s, .deregister wid)
        else ({ s with generator := Function.update s.generator r.process (some generator) },
          .serving wid)
    | .serving wid => some (s, .heartbeat wid s.clock)
    | .heartbeat wid now => match outcome with
      | .failed => some (s, .serving wid)
      | .done | .lost => some (s.beat wid now, .serving wid)
    | .deregister wid => match outcome with
      | .failed => some (s, .stopped)
      | .done | .lost => some (s.setRow wid none, .stopped)
    | .noop | .failed _ | .stopped => none

/-- The clock of all processes goes on, or a process ends without notice. -/
inductive WorkersMove where
  | tick (now : Time)
  | crash (process : ProcessId)
  deriving DecidableEq

def init : Threads.Program Workers Registration WorkerInput WorkersMove where
  initial r := r.phase = .start
  next n s r input := if s.crashed r.process then none
    else (Init.next n s r input).map fun (a, phase) => (a, { r with phase })
  surround s
    | .tick now => if s.clock ≤ now then some { s with clock := now } else none
    | .crash p => some (s.crash p)

/-- The worker id whose row the call has inserted and not deleted yet. -/
def Init.holds : Init → Option Nat
  | registered wid | serving wid | heartbeat wid _ | deregister wid => some wid
  | _ => none

/-- What a step of `init` does to the table, and what the call holds after it. -/
inductive Init.Does (n : Nat) (s : Workers) (r : Registration) (input : WorkerInput) :
    Workers → Init → Prop
  | goOn {g : ProcessId → Option SnowflakeGenerator} {q : Init}
      (holds : q.holds = r.phase.holds ∨ q.holds = none)
      (deadline : ∀ d, q = .clean d → d = s.clock - seconds STALE_WORKER_SECS) :
      Does n s r input { s with generator := g } q
  | clean {d : Time} {q : Init} {outcome : Outcome} (sent : input = .go outcome)
      (at_clean : r.phase = .clean d) (holds : q.holds = none) (after : ∀ d, q ≠ .clean d) :
      Does n s r input (s.cleanStale d) q
  | insert {used : List Nat} {wid : Nat} {now : Time} {q : Init} {outcome : Outcome}
      (sent : input = .go outcome) (succeeds : outcome ≠ .failed)
      (at_insert : r.phase = .insert used wid now) (vacant : s.table wid = none)
      (holds : q.holds = some wid ∨ q.holds = none) (after : ∀ d, q ≠ .clean d) :
      Does n s r input (s.setRow wid (some ⟨r.host, r.pid, now, now, some n⟩)) q
  | beat {wid : Nat} {now : Time} (at_beat : r.phase = .heartbeat wid now) :
      Does n s r input (s.beat wid now) (.serving wid)
  | deregister {wid : Nat} (at_deregister : r.phase = .deregister wid) :
      Does n s r input (s.setRow wid none) .stopped

variable {n : Nat} {s a : Workers} {r r' : Registration} {input : WorkerInput}

theorem Init.does_of_next {q : Init} (h : Init.next n s r input = some (a, q)) :
    Init.Does n s r input a q := by
  cases input with
  | stop =>
    simp only [Init.next] at h
    split at h
    · rename_i hp
      cases h
      exact .goOn (.inl (by rw [hp]; rfl)) nofun
    · cases h
  | go outcome =>
    cases hp : r.phase with
    | start =>
      simp only [Init.next, hp, Option.some.injEq, Prod.mk.injEq] at h
      obtain ⟨rfl, rfl⟩ := h
      split
      · exact .goOn (.inr rfl) nofun
      · exact .goOn (.inr rfl) fun d hd => (Init.clean.inj hd).symm
    | clean deadline =>
      cases outcome <;> simp only [Init.next, hp, Option.some.injEq, Prod.mk.injEq] at h <;>
        obtain ⟨rfl, rfl⟩ := h
      · exact .clean rfl hp rfl nofun
      · exact .goOn (.inr rfl) nofun
      · exact .clean rfl hp rfl nofun
    | selectUsed =>
      cases outcome <;> simp only [Init.next, hp, Option.some.injEq, Prod.mk.injEq] at h <;>
        obtain ⟨rfl, rfl⟩ := h <;> exact .goOn (.inr rfl) nofun
    | attempt used wid =>
      simp only [Init.next, hp, Option.some.injEq, Prod.mk.injEq] at h
      obtain ⟨rfl, rfl⟩ := h
      refine .goOn (.inr ?_) ?_
      · split
        · rfl
        · split <;> rfl
      · split
        · nofun
        · split <;> nofun
    | insert used wid now =>
      simp only [Init.next, hp] at h
      split at h <;> cases h
      · exact .goOn (.inr rfl) nofun
      · exact .goOn (.inr rfl) nofun
      · exact .goOn (.inr rfl) nofun
      · exact .insert rfl nofun hp ‹_› (.inr rfl) nofun
      · exact .insert rfl nofun hp ‹_› (.inl rfl) nofun
    | registered wid =>
      simp only [Init.next, hp] at h
      obtain ⟨generator, -, h⟩ := Option.map_eq_some_iff.mp h
      split at h <;> cases h <;> exact .goOn (.inl (by rw [hp]; rfl)) nofun
    | serving wid =>
      simp only [Init.next, hp, Option.some.injEq, Prod.mk.injEq] at h
      obtain ⟨rfl, rfl⟩ := h
      exact .goOn (.inl (by rw [hp]; rfl)) nofun
    | heartbeat wid now =>
      cases outcome <;> simp only [Init.next, hp, Option.some.injEq, Prod.mk.injEq] at h <;>
        obtain ⟨rfl, rfl⟩ := h
      · exact .beat hp
      · exact .goOn (.inl (by rw [hp]; rfl)) nofun
      · exact .beat hp
    | deregister wid =>
      cases outcome <;> simp only [Init.next, hp, Option.some.injEq, Prod.mk.injEq] at h <;>
        obtain ⟨rfl, rfl⟩ := h
      · exact .deregister hp
      · exact .goOn (.inr rfl) nofun
      · exact .deregister hp
    | noop | failed | stopped => simp only [Init.next, hp, reduceCtorEq] at h

/-- A step is one of a process that still runs. -/
theorem init_next (h : init.next n s r input = some (a, r')) :
    s.crashed r.process = false ∧ r'.process = r.process ∧
      Init.Does n s r input a r'.phase := by
  simp only [init] at h
  split at h
  · cases h
  · rename_i hcrashed
    obtain ⟨⟨a, q⟩, hq, h⟩ := Option.map_eq_some_iff.mp h
    cases h
    exact ⟨Bool.eq_false_iff.mpr hcrashed, rfl, Init.does_of_next hq⟩

theorem Init.Does.frame {q : Init} (h : Init.Does n s r input a q) :
    a.clock = s.clock ∧ a.crashed = s.crashed := by
  cases h <;> exact ⟨rfl, rfl⟩

end Webshelf
