import Webshelf.Routing.ReadCalls

/-!
# Which attempts does a read make?

The loops keep one invariant: every attempt so far has met a connection error. An attempt either
keeps it or ends the call.
-/

namespace Webshelf

namespace Routing

/-- An attempt at replica `idx`. -/
structure Attempt (T : Type) where
  idx : Nat
  result : Except DbErr T

/-- An attempt at a replica that was picked. -/
structure Pick (T : Type) extends Attempt T where
  now : Time
  downUntil : List (Option Time)

variable {T : Type}

/-- A replica is marked down right after its connection error. -/
def Attempt.events (a : Attempt T) : List (Event T) :=
  .answered (.read a.idx) a.result :: if failed a.result then [.markedDown a.idx] else []

def Pick.events (p : Pick T) : List (Event T) :=
  .picked p.now p.downUntil p.idx :: p.toAttempt.events

/-- The attempts of both phases. -/
def attempts (first : List (Pick T)) (again : List (Attempt T)) : List (Attempt T) :=
  first.map Pick.toAttempt ++ again

/-- What is returned when no attempt is left. -/
def lastResult (l : List (Attempt T)) : Except DbErr T :=
  l.getLast?.elim (.error allReadAttemptsExhausted) Attempt.result

/-- The attempts that a call makes: `first` in phase 1, and `again` in phase 2. -/
structure Phases (r : AutoRouter) (env : Nat → Moment T) (first : List (Pick T))
    (again : List (Attempt T)) : Prop where
  first_le : first.length ≤ r.reads.length
  distinct : (first.map fun p => p.idx).Nodup
  up : ∀ p ∈ first, p.idx < r.reads.length ∧
    AutoRouter.expired p.now (p.downUntil.getD p.idx none) = true
  again_le : again.length ≤ r.retryAttempts
  again_lt : ∀ a ∈ again, a.idx < r.reads.length
  none_up : attempts first again = [] ↔ r.healthy (env 0).now [] = []

/-- What a call of `execute_read_retry` may do: the attempts `first`, then the attempts `again`,
then perhaps the writer. -/
structure Specified (r : AutoRouter) (env : Nat → Moment T) (s : ReadCall T)
    (first : List (Pick T)) (again : List (Attempt T)) (writer : List (Except DbErr T)) : Prop
    extends Phases r env first again where
  log : s.log = first.flatMap Pick.events ++ again.flatMap Attempt.events ++
    writer.map (.answered .write)
  answers : ∀ (k : Nat) (result : Except DbErr T),
    ((attempts first again).map Attempt.result ++ writer)[k]? = some result →
    result = (env k).result
  writer_le : writer.length ≤ 1
  /-- Only the last attempt does not meet a connection error, if any. -/
  goes_on : ∀ a ∈ (attempts first again).dropLast, failed a.result = true
  stops : ∀ a, (attempts first again).getLast? = some a → failed a.result = false →
    s.returned = some a.result
  asks_writer : writer ≠ [] ↔
    r.fallbackToWrite = true ∧ ∀ a ∈ attempts first again, failed a.result = true
  writer_answers : ∀ result ∈ writer, s.returned = some result
  gives_up : r.fallbackToWrite = false → (∀ a ∈ attempts first again, failed a.result = true) →
    s.returned = some (lastResult (attempts first again))
  /-- A mark comes right after a connection error of the replica. -/
  marks : ∀ before idx after, s.log = before ++ .markedDown idx :: after →
    ∃ e, isConnectionError e = true ∧ [.answered (.read idx) (.error e)] <:+ before
  table : ∀ (i : Nat) (until_ : Time), s.router.downUntil[i]? = some (some until_) →
    r.downUntil[i]? = some (some until_) ∨
      ∃ a ∈ attempts first again, a.idx = i ∧ failed a.result = true

/-! ### One attempt -/

section
variable {r router : AutoRouter} {env : Nat → Moment T} {s : ReadCall T} {m : Moment T}
  {log : List (Event T)} {l : List (Attempt T)} {idx : Nat}

/-- Only these circuit breakers are open: those that were, and those of replicas that have
failed. -/
def MarkedBy (r router : AutoRouter) (l : List (Attempt T)) : Prop :=
  ∀ (i : Nat) (until_ : Time), router.downUntil[i]? = some (some until_) →
    r.downUntil[i]? = some (some until_) ∨ ∃ a ∈ l, a.idx = i ∧ failed a.result = true

/-- The error that `last_err` is, when every attempt has failed. -/
def lastError (l : List (Attempt T)) : Option DbErr :=
  l.getLast?.bind fun a => match a.result with
    | .ok _ => none
    | .error e => some e

/-- Every attempt so far has met a connection error. -/
structure Going (r : AutoRouter) (env : Nat → Moment T) (log : List (Event T))
    (l : List (Attempt T)) (s : ReadCall T) : Prop where
  log : s.log = log
  asked : s.asked = l.length
  reads : s.router.reads = r.reads
  answers : ∀ (k : Nat) (a : Attempt T), l[k]? = some a → a.result = (env k).result
  table : MarkedBy r s.router l
  failed : ∀ a ∈ l, failed a.result = true
  lastErr : s.lastErr = lastError l
  returned : s.returned = none

/-- The last attempt has ended the call. -/
structure Stopped (r : AutoRouter) (env : Nat → Moment T) (log : List (Event T))
    (l : List (Attempt T)) (s : ReadCall T) : Prop where
  log : s.log = log
  answers : ∀ (k : Nat) (a : Attempt T), l[k]? = some a → a.result = (env k).result
  table : MarkedBy r s.router l
  last : ∃ rest a, l = rest ++ [a] ∧ (∀ b ∈ rest, failed b.result = true) ∧
    failed a.result = false ∧ s.returned = some a.result

theorem MarkedBy.append {a : Attempt T} (h : MarkedBy r router l) :
    MarkedBy r router (l ++ [a]) := by
  intro i until_ hi
  cases h i until_ hi with
  | inl h => exact Or.inl h
  | inr h =>
    obtain ⟨b, hb, hidx⟩ := h
    exact Or.inr ⟨b, List.mem_append_left _ hb, hidx⟩

theorem MarkedBy.markDown {now : Time} {result : Except DbErr T} (h : MarkedBy r router l)
    (hfailed : failed result = true) :
    MarkedBy r (router.markDown idx now) (l ++ [⟨idx, result⟩]) := by
  intro i until_ hi
  by_cases hidx : idx = i
  · exact Or.inr ⟨⟨idx, result⟩, by simp, hidx, hfailed⟩
  · rw [AutoRouter.markDown, List.getElem?_set_ne hidx] at hi
    exact h.append i until_ hi

theorem MarkedBy.picked {now : Time} {exclude : List Nat} {router' : AutoRouter}
    (h : MarkedBy r router l) (hpicked : Picked router router' now exclude) :
    MarkedBy r router' l := by
  intro i until_ hi
  apply h i until_
  rw [hpicked.downUntil, AutoRouter.recover, List.getElem?_mapIdx] at hi
  cases hold : router.downUntil[i]? with
  | none => simp [hold] at hi
  | some old =>
    rw [hold, Option.map_some, Option.some.injEq] at hi
    split at hi
    · cases hi
    · rw [hi]

theorem attempt_failed {e : DbErr} (hm : m.result = .error e) (he : isConnectionError e = true) :
    ReadCall.attempt m idx s = { s with
      asked := s.asked + 1
      router := s.router.markDown idx m.later
      lastErr := some e
      log := s.log ++ (Attempt.mk idx m.result).events } := by
  simp [ReadCall.attempt, Attempt.events, failed, hm, he]

theorem attempt_stopped (hm : failed m.result = false) :
    ReadCall.attempt m idx s = { s with
      asked := s.asked + 1
      returned := some m.result
      log := s.log ++ (Attempt.mk idx m.result).events } := by
  cases hresult : m.result with
  | ok v => simp [ReadCall.attempt, Attempt.events, failed, hresult]
  | error e =>
    have he : isConnectionError e = false := by simpa [failed, hresult] using hm
    simp [ReadCall.attempt, Attempt.events, failed, hresult, he]

theorem failed_iff {result : Except DbErr T} :
    failed result = true ↔ ∃ e, result = .error e ∧ isConnectionError e = true := by
  cases result <;> simp [failed]

theorem tried_attempt : (ReadCall.attempt m idx s).tried = s.tried := by
  unfold ReadCall.attempt
  dsimp only
  split
  · rfl
  · split <;> rfl

theorem tried_tryAgain {retries : List Nat} :
    (ReadCall.tryAgain env retries s).tried = s.tried := by
  induction retries generalizing s with
  | nil => rfl
  | cons retry retries ih =>
    rw [ReadCall.tryAgain]
    split
    · exact tried_attempt
    · rw [ih, tried_attempt]

theorem answers_append {a : Attempt T} {n : Nat} (hn : n = l.length)
    (h : ∀ (k : Nat) (a : Attempt T), l[k]? = some a → a.result = (env k).result)
    (ha : a.result = (env n).result) :
    ∀ (k : Nat) (b : Attempt T), (l ++ [a])[k]? = some b → b.result = (env k).result := by
  intro k b hb
  by_cases hk : k < l.length
  · rw [List.getElem?_append_left hk] at hb
    exact h k b hb
  · obtain ⟨hlt, hget⟩ := List.getElem?_eq_some_iff.mp hb
    have hlast : k = l.length := by
      rw [List.length_append, List.length_singleton] at hlt
      omega
    subst hlast
    rw [← hget, List.getElem_concat_length rfl, ha, hn]

/-- One attempt: it fails and the call goes on, or it ends the call. -/
theorem attempt_going (idx : Nat) (h : Going r env log l s) :
    Going r env (log ++ (Attempt.mk idx (env s.asked).result).events)
        (l ++ [⟨idx, (env s.asked).result⟩]) (ReadCall.attempt (env s.asked) idx s) ∨
      Stopped r env (log ++ (Attempt.mk idx (env s.asked).result).events)
        (l ++ [⟨idx, (env s.asked).result⟩]) (ReadCall.attempt (env s.asked) idx s) := by
  have hanswers := answers_append (a := ⟨idx, (env s.asked).result⟩) h.asked h.answers rfl
  by_cases hfailed : failed (env s.asked).result = true
  · obtain ⟨e, hresult, he⟩ := failed_iff.mp hfailed
    apply Or.inl
    rw [attempt_failed hresult he]
    constructor
    · exact congrArg (· ++ _) h.log
    · simp [h.asked]
    · exact h.reads
    · exact hanswers
    · exact h.table.markDown hfailed
    · intro a ha
      cases List.mem_append.mp ha with
      | inl ha => exact h.failed a ha
      | inr ha =>
        rw [List.mem_singleton.mp ha]
        exact hfailed
    · simp [lastError, hresult]
    · exact h.returned
  · have hfailed : failed (env s.asked).result = false := by simpa using hfailed
    apply Or.inr
    rw [attempt_stopped hfailed]
    constructor
    · exact congrArg (· ++ _) h.log
    · exact hanswers
    · exact h.table.append
    · exact ⟨l, _, rfl, h.failed, hfailed, rfl⟩

theorem returned_of_stopped (h : Stopped r env log l s) : s.returned.isSome = true := by
  obtain ⟨rest, a, _, _, _, hreturned⟩ := h.last
  rw [hreturned]
  rfl

/-! ### The loops -/

/-- What phase 1 keeps beside that: the replicas tried are those that were picked. -/
structure Tried (r : AutoRouter) (first : List (Pick T)) (s : ReadCall T) : Prop where
  tried : s.tried = first.map fun p => p.idx
  distinct : (first.map fun p => p.idx).Nodup
  up : ∀ p ∈ first, p.idx < r.reads.length ∧
    AutoRouter.expired p.now (p.downUntil.getD p.idx none) = true

/-- The outcome of a loop. -/
def Tells (r : AutoRouter) (env : Nat → Moment T) (log : List (Event T)) (l : List (Attempt T))
    (s : ReadCall T) : Prop :=
  Going r env log l s ∨ Stopped r env log l s

theorem Going.picked {now : Time} {exclude : List Nat} (idx : Nat) (event : Event T)
    (h : Going r env log l s) (hpicked : Picked s.router router now exclude) :
    Going r env (log ++ [event]) l { s with
      router := router, tried := s.tried ++ [idx], log := s.log ++ [event] } := by
  constructor
  · exact congrArg (· ++ _) h.log
  · exact h.asked
  · exact hpicked.reads.trans h.reads
  · exact h.answers
  · exact h.table.picked hpicked
  · exact h.failed
  · exact h.lastErr
  · exact h.returned

theorem Tried.append {first : List (Pick T)} {p : Pick T} {s' : ReadCall T}
    (h : Tried r first s) (hreads : s.router.reads = r.reads)
    (hp : p.idx ∈ s.router.healthy p.now s.tried) (htable : p.downUntil = s.router.downUntil)
    (hs' : s'.tried = s.tried ++ [p.idx]) : Tried r (first ++ [p]) s' := by
  obtain ⟨hlt, hnew, hup⟩ := mem_healthy.mp hp
  constructor
  · rw [hs', h.tried]
    simp
  · rw [List.map_append, List.map_singleton, ← h.tried]
    apply List.nodup_append.mpr
    refine ⟨h.tried ▸ h.distinct, by simp, ?_⟩
    intro a ha b hb hab
    rw [List.mem_singleton.mp hb] at hab
    exact hnew (hab ▸ ha)
  · intro q hq
    cases List.mem_append.mp hq with
    | inl hq => exact h.up q hq
    | inr hq =>
      rw [List.mem_singleton.mp hq, htable, ← hreads]
      exact ⟨hlt, hup⟩

theorem tryEach_tells {first : List (Pick T)} {rounds : Nat}
    (h : Going r env (first.flatMap Pick.events) (first.map Pick.toAttempt) s)
    (htried : Tried r first s) :
    ∃ more : List (Pick T), more.length ≤ rounds ∧
      Tried r (first ++ more) (ReadCall.tryEach env rounds s) ∧
      Tells r env ((first ++ more).flatMap Pick.events) ((first ++ more).map Pick.toAttempt)
        (ReadCall.tryEach env rounds s) ∧
      (0 < rounds → (more = [] ↔ s.router.healthy (env s.asked).now s.tried = [])) := by
  induction rounds generalizing first s with
  | zero =>
    refine ⟨[], Nat.le_refl _, ?_, ?_, by simp⟩
    · simpa [ReadCall.tryEach] using htried
    · exact Or.inl (by simpa [ReadCall.tryEach] using h)
  | succ rounds ih =>
    have hround := @round_tryEach T env rounds s
    generalize ReadCall.tryEach env (rounds + 1) s = t at hround ⊢
    cases hround with
    | down hdown hpicked =>
      refine ⟨[], Nat.zero_le _, ?_, ?_, fun _ => iff_of_true rfl hdown⟩
      · rw [List.append_nil]
        exact ⟨htried.tried, htried.distinct, htried.up⟩
      · rw [List.append_nil]
        exact Or.inl ⟨h.log, h.asked, hpicked.reads.trans h.reads, h.answers,
          h.table.picked hpicked, h.failed, h.lastErr, h.returned⟩
    | @asked router idx s' hidx hpicked hs' =>
      -- the replica that this round asks, with what it answers
      let p : Pick T := ⟨⟨idx, (env s.asked).result⟩, (env s.asked).now, s.router.downUntil⟩
      have hone := attempt_going idx
        (h.picked idx (.picked (env s.asked).now s.router.downUntil idx) hpicked)
      dsimp only at hone
      rw [hs'] at hone
      have htried' : Tried r (first ++ [p]) s' := by
        apply htried.append h.reads hidx rfl
        rw [← hs', tried_attempt]
      have hlog : (first.flatMap Pick.events ++
          [.picked (env s.asked).now s.router.downUntil idx]) ++
            (Attempt.mk idx (env s.asked).result).events =
          (first ++ [p]).flatMap Pick.events := by
        simp [p, Pick.events]
      have hl : first.map Pick.toAttempt ++ [⟨idx, (env s.asked).result⟩] =
          (first ++ [p]).map Pick.toAttempt := by
        simp [p]
      rw [hlog, hl] at hone
      have hnonempty : s.router.healthy (env s.asked).now s.tried ≠ [] :=
        List.ne_nil_of_mem hidx
      cases hone with
      | inl hgoing =>
        rw [hgoing.returned, Option.isSome_none, if_neg Bool.false_ne_true]
        obtain ⟨more, hle, htells⟩ := ih hgoing htried'
        refine ⟨p :: more, Nat.succ_le_succ hle, ?_, ?_, ?_⟩
        · simpa using htells.1
        · simpa using htells.2.1
        · simp [hnonempty]
      | inr hstopped =>
        rw [if_pos (returned_of_stopped hstopped)]
        exact ⟨[p], Nat.succ_le_succ (Nat.zero_le _), htried', Or.inr hstopped,
          by simp [hnonempty]⟩

theorem tryAgain_tells (retries : List Nat) (h : Going r env log l s) :
    ∃ more : List (Attempt T), more.length ≤ retries.length ∧
      (∀ (j : Nat) (a : Attempt T), more[j]? = some a → ∃ retry, retries[j]? = some retry ∧
        a.idx = (s.tried.length + retry) % r.reads.length) ∧
      Tells r env (log ++ more.flatMap Attempt.events) (l ++ more)
        (ReadCall.tryAgain env retries s) ∧
      (Going r env (log ++ more.flatMap Attempt.events) (l ++ more)
        (ReadCall.tryAgain env retries s) → more.length = retries.length) := by
  induction retries generalizing log l s with
  | nil =>
    refine ⟨[], Nat.le_refl _, by simp, Or.inl ?_, fun _ => rfl⟩
    simpa [ReadCall.tryAgain] using h
  | cons retry retries ih =>
    rw [ReadCall.tryAgain]
    have hone := attempt_going ((s.tried.length + retry) % s.router.reads.length) h
    rw [h.reads] at hone ⊢
    have htried : (ReadCall.attempt (env s.asked)
        ((s.tried.length + retry) % r.reads.length) s).tried = s.tried := tried_attempt
    generalize ReadCall.attempt (env s.asked)
      ((s.tried.length + retry) % r.reads.length) s = s' at hone htried ⊢
    let a : Attempt T := ⟨(s.tried.length + retry) % r.reads.length, (env s.asked).result⟩
    cases hone with
    | inl hgoing =>
      rw [hgoing.returned, Option.isSome_none, if_neg Bool.false_ne_true]
      obtain ⟨more, hle, hidx, htells, hall⟩ := ih hgoing
      refine ⟨a :: more, Nat.succ_le_succ hle, ?_, ?_, ?_⟩
      · intro j b hb
        cases j with
        | zero =>
          rw [List.getElem?_cons_zero, Option.some.injEq] at hb
          exact ⟨retry, rfl, by rw [← hb]⟩
        | succ j =>
          obtain ⟨later, hlater, hb⟩ := hidx j b hb
          exact ⟨later, hlater, by rw [hb, htried]⟩
      · simpa [a] using htells
      · intro hgoing
        rw [List.length_cons, List.length_cons]
        apply congrArg (· + 1)
        apply hall
        simpa [a] using hgoing
    | inr hstopped =>
      rw [if_pos (returned_of_stopped hstopped)]
      refine ⟨[a], Nat.succ_le_succ (Nat.zero_le _), ?_, ?_, ?_⟩
      · intro j b hb
        cases j with
        | zero =>
          rw [List.getElem?_cons_zero, Option.some.injEq] at hb
          exact ⟨retry, rfl, by rw [← hb]⟩
        | succ j => simp at hb
      · exact Or.inr (by simpa [a] using hstopped)
      · intro hgoing
        have hreturned := returned_of_stopped hstopped
        rw [hgoing.returned] at hreturned
        cases hreturned

/-! ### The whole call -/

/-- Both phases of a call, and how it ends. -/
theorem executeReadRetry_phases (hreads : r.reads ≠ []) :
    ∃ (first : List (Pick T)) (again : List (Attempt T)),
      first.length ≤ r.reads.length ∧ again.length ≤ r.retryAttempts ∧
      (first.map fun p => p.idx).Nodup ∧
      (∀ p ∈ first, p.idx < r.reads.length ∧
        AutoRouter.expired p.now (p.downUntil.getD p.idx none) = true) ∧
      (ReadCall.executeReadRetry env r).tried = (first.map fun p => p.idx) ∧
      (first = [] ↔ r.healthy (env 0).now [] = []) ∧
      (∀ (j : Nat) (a : Attempt T), again[j]? = some a →
        a.idx = (first.length + j) % r.reads.length) ∧
      (first = [] → again = []) ∧
      (again ≠ [] → ∀ a ∈ first.map Pick.toAttempt, failed a.result = true) ∧
      (Stopped r env (first.flatMap Pick.events ++ again.flatMap Attempt.events)
          (attempts first again) (ReadCall.executeReadRetry env r) ∨
        ∃ s, Going r env (first.flatMap Pick.events ++ again.flatMap Attempt.events)
            (attempts first again) s ∧ (first ≠ [] → again.length = r.retryAttempts) ∧
          ReadCall.executeReadRetry env r =
            if r.fallbackToWrite then s.toWriter env
            else { s with
              returned := some (.error (s.lastErr.getD allReadAttemptsExhausted)) }) := by
  have hstart : Going (T := T) r env [] [] { router := r } :=
    ⟨rfl, rfl, rfl, by simp, fun _ _ h => Or.inl h, by simp, rfl, rfl⟩
  obtain ⟨first, hle, htried, htells, hnone⟩ :=
    @tryEach_tells T r env { router := r } [] r.reads.length hstart ⟨rfl, by simp, by simp⟩
  rw [List.nil_append] at htried htells
  have hnone : first = [] ↔ r.healthy (env 0).now [] = [] :=
    hnone (List.length_pos_iff.mpr hreads)
  have hempty : r.reads.isEmpty = false := by simpa using hreads
  simp only [ReadCall.executeReadRetry, hempty, Bool.false_eq_true, if_false]
  generalize ReadCall.tryEach env r.reads.length { router := r } = s at htried htells
  cases htells with
  | inr hstopped =>
    rw [if_pos (returned_of_stopped hstopped)]
    refine ⟨first, [], hle, Nat.zero_le _, htried.distinct, htried.up, htried.tried, hnone,
      by simp, by simp, by simp, Or.inl ?_⟩
    simpa [attempts] using hstopped
  | inl hgoing =>
    rw [hgoing.returned, Option.isSome_none, if_neg Bool.false_ne_true]
    have hlast : s.lastErr.isSome = true ↔ first ≠ [] := by
      rw [hgoing.lastErr, lastError]
      cases hfirst : (first.map Pick.toAttempt).getLast? with
      | none =>
        have : first = [] := by simpa using hfirst
        simp [this]
      | some a =>
        obtain ⟨e, he, _⟩ := failed_iff.mp (hgoing.failed a (List.mem_of_getLast? hfirst))
        have : first ≠ [] := by
          rintro rfl
          cases hfirst
        simp [this, he]
    by_cases hagain : s.lastErr.isSome = true ∧ 0 < r.retryAttempts
    · obtain ⟨again, hagainLe, hidx, htells, hall⟩ :=
        tryAgain_tells (List.range r.retryAttempts) hgoing
      have hcond : (s.lastErr.isSome && decide (0 < r.retryAttempts)) = true := by
        simpa using hagain
      rw [if_pos hcond]
      rw [List.length_range] at hagainLe hall
      have hfirst : first ≠ [] := hlast.mp hagain.1
      have hidx : ∀ (j : Nat) (a : Attempt T), again[j]? = some a →
          a.idx = (first.length + j) % r.reads.length := by
        intro j a ha
        obtain ⟨retry, hretry, hidx⟩ := hidx j a ha
        obtain ⟨_, rfl⟩ := List.getElem?_eq_some_iff.mp hretry
        rw [hidx, htried.tried, List.length_map, List.getElem_range]
      refine ⟨first, again, hle, hagainLe, htried.distinct, htried.up, ?_, hnone, hidx,
        fun h => absurd h hfirst, fun _ => hgoing.failed, ?_⟩
      · have hsame : (ReadCall.tryAgain env (List.range r.retryAttempts) s).tried =
            first.map fun p => p.idx := tried_tryAgain.trans htried.tried
        split
        · exact hsame
        · split <;> exact hsame
      cases htells with
      | inl hgoing =>
        rw [hgoing.returned, Option.isSome_none, if_neg Bool.false_ne_true]
        exact Or.inr ⟨_, hgoing, fun _ => hall hgoing, rfl⟩
      | inr hstopped =>
        rw [if_pos (returned_of_stopped hstopped)]
        exact Or.inl hstopped
    · have hcond : (s.lastErr.isSome && decide (0 < r.retryAttempts)) ≠ true := by
        simpa using hagain
      rw [if_neg hcond, hgoing.returned, Option.isSome_none, if_neg Bool.false_ne_true]
      refine ⟨first, [], hle, Nat.zero_le _, htried.distinct, htried.up, ?_, hnone, by simp,
        by simp, by simp, Or.inr ⟨s, ?_, ?_, rfl⟩⟩
      · split <;> exact htried.tried
      · simpa [attempts] using hgoing
      · intro hfirst
        have hzero : ¬ 0 < r.retryAttempts := fun h => hagain ⟨hlast.mpr hfirst, h⟩
        rw [List.length_nil]
        omega

/-! ### Where marks stand -/

/-- Every mark of a log comes right after a connection error. -/
def MarksFollow (log : List (Event T)) : Prop :=
  ∀ before idx after, log = before ++ .markedDown idx :: after →
    ∃ e, isConnectionError e = true ∧ [.answered (.read idx) (.error e)] <:+ before

theorem MarksFollow.append {log' : List (Event T)} (h : MarksFollow log)
    (h' : MarksFollow log') : MarksFollow (log ++ log') := by
  intro before idx after heq
  cases List.append_eq_append_iff.mp heq with
  | inl hsplit =>
    obtain ⟨mid, rfl, hmid⟩ := hsplit
    obtain ⟨e, he, hsuffix⟩ := h' mid idx after hmid
    exact ⟨e, he, hsuffix.trans (List.suffix_append _ _)⟩
  | inr hsplit =>
    obtain ⟨mid, rfl, hmid⟩ := hsplit
    cases mid with
    | nil =>
      obtain ⟨e, _, hsuffix⟩ := h' [] idx after hmid.symm
      simp at hsuffix
    | cons event mid =>
      obtain ⟨rfl, _⟩ := List.cons.inj hmid
      exact h before idx mid rfl

theorem marksFollow_nil : MarksFollow ([] : List (Event T)) := by
  intro before idx after h
  simp at h

theorem marksFollow_single {event : Event T} (h : ∀ idx, event ≠ .markedDown idx) :
    MarksFollow [event] := by
  intro before idx after heq
  cases before with
  | nil => exact absurd (List.cons.inj heq).1 (h idx)
  | cons b before => simp at heq

theorem marksFollow_events (a : Attempt T) : MarksFollow a.events := by
  intro before idx after heq
  unfold Attempt.events at heq
  by_cases hfailed : failed a.result = true
  · obtain ⟨e, he, hconnection⟩ := failed_iff.mp hfailed
    rw [if_pos hfailed] at heq
    cases before with
    | nil => cases (List.cons.inj heq).1
    | cons b before =>
      obtain ⟨rfl, htail⟩ := List.cons.inj heq
      cases before with
      | nil =>
        obtain ⟨hidx, _⟩ := List.cons.inj htail
        cases hidx
        exact ⟨e, hconnection, by rw [he]⟩
      | cons c before => simp at htail
  · rw [if_neg hfailed] at heq
    exact marksFollow_single (fun _ h => by cases h) before idx after heq

theorem marksFollow_flatMap {α : Type} {f : α → List (Event T)} {as : List α}
    (h : ∀ a, MarksFollow (f a)) : MarksFollow (as.flatMap f) := by
  induction as with
  | nil => exact marksFollow_nil
  | cons a as ih => exact (h a).append ih

theorem marksFollow_pick (p : Pick T) : MarksFollow p.events :=
  (marksFollow_single (fun _ h => by cases h)).append (marksFollow_events p.toAttempt)

theorem marksFollow_call {first : List (Pick T)} {again : List (Attempt T)}
    {writer : List (Except DbErr T)} :
    MarksFollow (first.flatMap Pick.events ++ again.flatMap Attempt.events ++
      writer.map (.answered .write)) := by
  apply ((marksFollow_flatMap marksFollow_pick).append
    (marksFollow_flatMap marksFollow_events)).append
  rw [List.map_eq_flatMap]
  exact marksFollow_flatMap fun _ => marksFollow_single fun _ h => by cases h

end

section
variable {r : AutoRouter} {env : Nat → Moment T}

theorem error_of_lastError {l : List (Attempt T)} (h : ∀ a ∈ l, failed a.result = true) :
    Except.error ((lastError l).getD allReadAttemptsExhausted) = lastResult l := by
  unfold lastError lastResult
  cases hlast : l.getLast? with
  | none => rfl
  | some a =>
    obtain ⟨e, he, _⟩ := failed_iff.mp (h a (List.mem_of_getLast? hlast))
    simp [he]

theorem map_answers {l : List (Attempt T)}
    (h : ∀ (k : Nat) (a : Attempt T), l[k]? = some a → a.result = (env k).result)
    {k : Nat} {result : Except DbErr T} (hk : (l.map Attempt.result)[k]? = some result) :
    result = (env k).result := by
  rw [List.getElem?_map, Option.map_eq_some_iff] at hk
  obtain ⟨a, ha, rfl⟩ := hk
  exact h k a ha

theorem executeReadRetry_specified (hreads : 1 ≤ r.reads.length) :
    ∃ first again writer,
      Specified r env (ReadCall.executeReadRetry env r) first again writer := by
  have hne : r.reads ≠ [] := List.length_pos_iff.mp hreads
  obtain ⟨first, again, hfirst, hagain, hdistinct, hup, _, hnone, hidx, hempty, _, hend⟩ :=
    @executeReadRetry_phases T r env hne
  have hagainLt : ∀ a ∈ again, a.idx < r.reads.length := by
    intro a ha
    obtain ⟨j, hj⟩ := List.getElem?_of_mem ha
    rw [hidx j a hj]
    exact Nat.mod_lt _ hreads
  have hnone : attempts first again = [] ↔ r.healthy (env 0).now [] = [] := by
    rw [← hnone, attempts, List.append_eq_nil_iff, List.map_eq_nil_iff]
    exact ⟨fun h => h.1, fun h => ⟨h, hempty h⟩⟩
  have hphases : Phases r env first again :=
    ⟨hfirst, hdistinct, hup, hagain, hagainLt, hnone⟩
  have hmarks : ∀ {s : ReadCall T} {writer : List (Except DbErr T)},
      s.log = first.flatMap Pick.events ++ again.flatMap Attempt.events ++
        writer.map (.answered .write) → MarksFollow s.log := by
    intro s writer hlog
    rw [hlog]
    exact marksFollow_call
  cases hend with
  | inl hstopped =>
    have hlog : (ReadCall.executeReadRetry env r).log = first.flatMap Pick.events ++
        again.flatMap Attempt.events ++ ([] : List (Except DbErr T)).map (.answered .write) := by
      rw [List.map_nil, List.append_nil, hstopped.log]
    obtain ⟨rest, a, hl, hrest, ha, hreturned⟩ := hstopped.last
    have hmem : a ∈ attempts first again := by simp [hl]
    have hnot : ¬ ∀ a ∈ attempts first again, failed a.result = true := by
      intro h
      rw [h a hmem] at ha
      cases ha
    refine ⟨first, again, [], ?_⟩
    constructor
    · exact hphases
    · exact hlog
    · intro k result hk
      rw [List.append_nil] at hk
      exact map_answers hstopped.answers hk
    · exact Nat.zero_le _
    · rw [hl, List.dropLast_concat]
      exact hrest
    · intro b hb _
      rw [hl, List.getLast?_concat, Option.some.injEq] at hb
      rw [← hb, hreturned]
    · exact iff_of_false (fun h => h rfl) (fun h => hnot h.2)
    · simp
    · exact fun _ h => absurd h hnot
    · exact hmarks hlog
    · exact hstopped.table
  | inr hgoing =>
    obtain ⟨s, hgoing, _, hs⟩ := hgoing
    have hstops : ∀ {returned : Option (Except DbErr T)} (a : Attempt T),
        (attempts first again).getLast? = some a → failed a.result = false →
        returned = some a.result := by
      intro _ a ha hfailed
      rw [hgoing.failed a (List.mem_of_getLast? ha)] at hfailed
      cases hfailed
    by_cases hfall : r.fallbackToWrite = true
    · rw [if_pos hfall] at hs
      have hlog : (ReadCall.executeReadRetry env r).log = first.flatMap Pick.events ++
          again.flatMap Attempt.events ++ [(env s.asked).result].map (.answered .write) := by
        rw [hs, ReadCall.toWriter, hgoing.log]
        rfl
      refine ⟨first, again, [(env s.asked).result], ?_⟩
      constructor
      · exact hphases
      · exact hlog
      · intro k result hk
        by_cases hlt : k < ((attempts first again).map Attempt.result).length
        · rw [List.getElem?_append_left hlt] at hk
          exact map_answers hgoing.answers hk
        · obtain ⟨hle, hget⟩ := List.getElem?_eq_some_iff.mp hk
          have hlast : k = ((attempts first again).map Attempt.result).length := by
            rw [List.length_append, List.length_singleton] at hle
            omega
          subst hlast
          rw [← hget, List.getElem_concat_length rfl, hgoing.asked, List.length_map]
      · exact Nat.le_refl _
      · exact fun a ha => hgoing.failed a (List.mem_of_mem_dropLast ha)
      · exact hstops
      · exact iff_of_true (List.cons_ne_nil _ _) ⟨hfall, hgoing.failed⟩
      · intro result hresult
        rw [List.mem_singleton.mp hresult, hs]
        rfl
      · intro h
        rw [hfall] at h
        cases h
      · exact hmarks hlog
      · rw [hs]
        exact hgoing.table
    · rw [if_neg hfall] at hs
      have hlog : (ReadCall.executeReadRetry env r).log = first.flatMap Pick.events ++
          again.flatMap Attempt.events ++
            ([] : List (Except DbErr T)).map (.answered .write) := by
        rw [List.map_nil, List.append_nil, hs, hgoing.log]
      refine ⟨first, again, [], ?_⟩
      constructor
      · exact hphases
      · exact hlog
      · intro k result hk
        rw [List.append_nil] at hk
        exact map_answers hgoing.answers hk
      · exact Nat.zero_le _
      · exact fun a ha => hgoing.failed a (List.mem_of_mem_dropLast ha)
      · exact hstops
      · exact iff_of_false (fun h => h rfl) (fun h => hfall h.1)
      · simp
      · intro _ _
        rw [hs, hgoing.lastErr, ← error_of_lastError hgoing.failed]
      · exact hmarks hlog
      · rw [hs]
        exact hgoing.table

def twoReplicas : AutoRouter :=
  { reads := [1, 1], downUntil := [none, none], retryAttempts := 1, covers := rfl }

/-- The first replica asked cannot be reached, the next one answers. -/
def secondAnswers (k : Nat) : Moment Unit :=
  ⟨0, 0, if k = 0 then .error (.conn []) else .ok (), 0⟩

theorem executeReadRetry_specified_twoReplicas :
    ∃ first again writer, Specified twoReplicas secondAnswers
      (ReadCall.executeReadRetry secondAnswers twoReplicas) first again writer :=
  executeReadRetry_specified (by decide)

end

end Routing

end Webshelf
