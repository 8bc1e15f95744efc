import Mathlib.Logic.Function.Basic
import Webshelf.Lib.Runs
import Webshelf.Snowflake.Ids

/-!
# Snowflake ids

The lock-free generator. The threads share its two atomics and nothing else;
each atomic operation and each reading of the clock is one step of one call, so
the calls interleave in every way the threads can. The clock goes where it
likes: a claim about a clock that never goes back says so.
-/

namespace Webshelf

structure SnowflakeGenerator where
  workerId : UInt64
  inRange : workerId ≤ MAX_WORKER_ID
  sequence : Int64
  lastTimestamp : Int64

/-- `SnowflakeGenerator::new`; `none` is the failed assertion. -/
def SnowflakeGenerator.new (workerId : UInt64) : Option SnowflakeGenerator :=
  if h : workerId ≤ MAX_WORKER_ID then some ⟨workerId, h, 0, 0⟩ else none

/-- What a call of `generate` does next. -/
inductive Generate where
  | load
  | clock (lastTs : Int64)
  /-- Spinning until the clock has caught up with `lastTs`. -/
  | backwards (lastTs : Int64)
  /-- The `fetch_add` of the same millisecond. -/
  | claim (currentTs : Int64)
  /-- Spinning until the next millisecond. -/
  | exhausted (currentTs : Int64)
  | compareExchange (lastTs currentTs : Int64)
  /-- The winner's `store(0)`. -/
  | reset (currentTs : Int64)
  /-- The winner's `fetch_add`. -/
  | first (currentTs : Int64)
  /-- Returned `compose_id(current_ts, worker_id, seq as u64)`. -/
  | returned (currentTs : Int64) (seq : UInt64)
  deriving DecidableEq

def Generate.readsClock : Generate → Bool
  | clock _ | backwards _ | exhausted _ => true
  | _ => false

/-- One step of `generate` while the clock shows `now`. -/
def SnowflakeGenerator.generate (g : SnowflakeGenerator) (now : Int64) :
    Generate → Option (SnowflakeGenerator × Generate)
  | .load => some (g, .clock g.lastTimestamp)
  | .clock lastTs => some (g,
      if now < lastTs then .backwards lastTs
      else if now = lastTs then .claim now
      else .compareExchange lastTs now)
  | .backwards lastTs => some (g, if now < lastTs then .backwards lastTs else .load)
  | .claim currentTs =>
    let seq := g.sequence
    some ({ g with sequence := seq + 1 },
      if seq.toUInt64 < MAX_SEQUENCE then .returned currentTs seq.toUInt64
      else .exhausted currentTs)
  | .exhausted currentTs => some (g, if now ≤ currentTs then .exhausted currentTs else .load)
  | .compareExchange lastTs currentTs =>
    if g.lastTimestamp = lastTs then some ({ g with lastTimestamp := currentTs }, .reset currentTs)
    else some (g, .load)
  | .reset currentTs => some ({ g with sequence := 0 }, .first currentTs)
  | .first currentTs =>
    let seq := g.sequence
    some ({ g with sequence := seq + 1 }, .returned currentTs seq.toUInt64)
  | .returned _ _ => none

/-- A call of `generate`, with the clock readings it has made. -/
structure GenerateCall where
  pc : Generate := .load
  readings : List Int64 := []
  deriving DecidableEq

/-- The generator, the clock, and the calls of all threads, in the order they began. -/
structure Generators where
  generator : SnowflakeGenerator
  clock : Int64
  calls : List GenerateCall := []

namespace Generators

inductive Move where
  /-- A thread calls `generate`. -/
  | begin
  /-- Call `n` takes its next step. -/
  | step (n : Nat)
  | tick (now : Int64)
  deriving DecidableEq

def step (s : Generators) : Move → Option Generators
  | .begin => some { s with calls := s.calls ++ [{}] }
  | .step n =>
    s.calls[n]?.bind fun c => (s.generator.generate s.clock c.pc).map fun (g, pc) => { s with
      generator := g
      calls := s.calls.set n
        { pc, readings := if c.pc.readsClock then s.clock :: c.readings else c.readings } }
  | .tick now => some { s with clock := now }

/-- What call `n` does next. -/
def pc (s : Generators) (n : Nat) : Option Generate :=
  s.calls[n]?.map (·.pc)

/-- What call `n` has returned. -/
def result (s : Generators) (n : Nat) : Option Int64 :=
  (s.pc n).bind fun
    | .returned currentTs seq => some (composeId currentTs s.generator.workerId seq)
    | _ => none

/-- The clock never goes back. -/
def Steady (s : Generators) : Move → Prop
  | .tick now => s.clock ≤ now
  | _ => True

instance (s : Generators) : (m : Move) → Decidable (s.Steady m)
  | .tick now => inferInstanceAs (Decidable (s.clock ≤ now))
  | .begin | .step _ => .isTrue trivial

/-- A new generator of the worker, one millisecond after the epoch. -/
def afterEpoch (workerId : UInt64) (h : workerId ≤ MAX_WORKER_ID) : Generators :=
  ⟨⟨workerId, h, 0, 0⟩, 1704067200001, []⟩

theorem worker_0 : (0 : UInt64) ≤ MAX_WORKER_ID := by decide

theorem worker_1 : (1 : UInt64) ≤ MAX_WORKER_ID := by decide

variable {s s' : Generators} {m : Move} {n : Nat} {id : Int64}

theorem result_eq_some : s.result n = some id ↔ ∃ ts seq,
    s.pc n = some (.returned ts seq) ∧ id = composeId ts s.generator.workerId seq := by
  unfold result
  constructor
  · intro h
    obtain ⟨a, ha, hid⟩ := Option.bind_eq_some_iff.mp h
    cases a with
    | returned ts seq => exact ⟨ts, seq, ha, (Option.some.inj hid).symm⟩
    | _ => cases hid
  · rintro ⟨ts, seq, ha, rfl⟩
    rw [ha]
    rfl

/-- Everything a move does: it adds a call that has not started, moves the
clock, or lets one call take its step. -/
theorem step_cases (h : s.step m = some s') :
    (m = .begin ∧ s' = { s with calls := s.calls ++ [{}] }) ∨
    (∃ now, m = .tick now ∧ s' = { s with clock := now }) ∨
    (∃ n c g b, m = .step n ∧ s.calls[n]? = some c ∧
      s.generator.generate s.clock c.pc = some (g, b) ∧
      s' = { s with
        generator := g
        calls := s.calls.set n
          ⟨b, if c.pc.readsClock then s.clock :: c.readings else c.readings⟩ }) := by
  cases m with
  | begin => exact .inl ⟨rfl, (Option.some.inj h).symm⟩
  | tick now => exact .inr (.inl ⟨now, rfl, (Option.some.inj h).symm⟩)
  | step n =>
    obtain ⟨c, hc, h⟩ := Option.bind_eq_some_iff.mp h
    obtain ⟨⟨g, b⟩, hg, rfl⟩ := Option.map_eq_some_iff.mp h
    exact .inr (.inr ⟨n, c, g, b, rfl, hc, hg, rfl⟩)

theorem pc_set {c c' : GenerateCall} {g : SnowflakeGenerator} (hc : s.calls[n]? = some c) :
    pc { s with generator := g, calls := s.calls.set n c' } =
      Function.update s.pc n (some c'.pc) := by
  funext d
  by_cases hd : d = n
  · subst hd
    obtain ⟨hlt, -⟩ := List.getElem?_eq_some_iff.mp hc
    simp [pc, hlt]
  · rw [Function.update_of_ne hd]
    simp only [pc, List.getElem?_set_ne (Ne.symm hd)]

/-- What a move does to the generator and the program counters. -/
theorem step_pc (h : s.step m = some s') :
    (s'.generator = s.generator ∧ ∀ n a, s'.pc n = some a → s.pc n = some a ∨ a = .load) ∨
    ∃ n a b, m = .step n ∧ s.pc n = some a ∧
      s.generator.generate s.clock a = some (s'.generator, b) ∧
      s'.pc = Function.update s.pc n (some b) := by
  obtain ⟨rfl, rfl⟩ | ⟨now, rfl, rfl⟩ | ⟨n, c, g, b, rfl, hc, hg, rfl⟩ := step_cases h
  · refine .inl ⟨rfl, ?_⟩
    intro n a ha
    simp only [pc, List.getElem?_append] at ha ⊢
    split at ha
    · exact .inl ha
    · obtain ⟨c, hc, rfl⟩ := Option.map_eq_some_iff.mp ha
      rw [List.mem_singleton.mp (List.mem_of_getElem? hc)]
      exact .inr rfl
  · exact .inl ⟨rfl, fun n a ha => .inl ha⟩
  · exact .inr ⟨n, c.pc, b, rfl, by rw [pc, hc]; rfl, hg, pc_set hc⟩

theorem pc_of_update {a b : Generate} {k : Nat} (hpc : s'.pc = Function.update s.pc n (some b))
    (h : s'.pc k = some a) : (k = n ∧ a = b) ∨ (k ≠ n ∧ s.pc k = some a) := by
  rw [hpc] at h
  by_cases hk : k = n
  · rw [hk, Function.update_self] at h
    exact .inl ⟨hk, (Option.some.inj h).symm⟩
  · rw [Function.update_of_ne hk] at h
    exact .inr ⟨hk, h⟩

/-- A call takes its step whenever it is scheduled. -/
theorem step_of_pc {a b : Generate} {g : SnowflakeGenerator} (ha : s.pc n = some a)
    (hg : s.generator.generate s.clock a = some (g, b)) :
    ∃ s', s.step (.step n) = some s' ∧ s'.clock = s.clock ∧ s'.generator = g ∧
      s'.pc = Function.update s.pc n (some b) := by
  obtain ⟨c, hc, rfl⟩ := Option.map_eq_some_iff.mp ha
  have hstep : s.step (.step n) = some { s with
      generator := g
      calls := s.calls.set n
        ⟨b, if c.pc.readsClock then s.clock :: c.readings else c.readings⟩ } := by
    simp only [step, hc, Option.bind_some, hg, Option.map_some]
  exact ⟨_, hstep, rfl, rfl, pc_set hc⟩

/-- A new call comes after the others. -/
theorem begin_pc : ∃ s', s.step .begin = some s' ∧ s'.clock = s.clock ∧
    s'.generator = s.generator ∧ s.pc s.calls.length = none ∧
    s'.pc = Function.update s.pc s.calls.length (some .load) := by
  refine ⟨_, rfl, rfl, rfl, by simp [pc], ?_⟩
  funext d
  by_cases hd : d = s.calls.length
  · simp [pc, hd]
  · rw [Function.update_of_ne hd]
    simp only [pc, List.getElem?_append]
    split
    · rfl
    · rename_i hge
      have hgt : s.calls.length < d := by omega
      rw [List.getElem?_eq_none (Nat.le_of_lt hgt), List.getElem?_eq_none]
      simp only [List.length_singleton]
      omega

theorem generate_workerId {g g' : SnowflakeGenerator} {now : Int64} {a b : Generate}
    (h : g.generate now a = some (g', b)) : g'.workerId = g.workerId := by
  cases a with
  | returned => cases h
  | compareExchange =>
    simp only [SnowflakeGenerator.generate] at h
    split at h <;> cases h <;> rfl
  | _ =>
    cases h
    rfl

theorem step_workerId (h : s.step m = some s') :
    s'.generator.workerId = s.generator.workerId := by
  obtain ⟨hg, -⟩ | ⟨n, a, b, -, -, hg, -⟩ := step_pc h
  · rw [hg]
  · exact generate_workerId hg

end Generators

end Webshelf
