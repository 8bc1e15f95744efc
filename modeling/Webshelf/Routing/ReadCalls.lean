import Webshelf.Routing.Router

/-!
# A call of the replicas

`execute_read_retry` with the results and errors that it passes on. It asks each replica that is
up once, gives them some more chances, and may then turn to the writer.
-/

namespace Webshelf

namespace Routing

/-- `sea_orm::DbErr`, each error with what `to_string` makes of it. -/
inductive DbErr
  | conn (text : List Char)
  | connectionAcquire (text : List Char)
  | query (text : List Char)
  | custom (text : List Char)
  | other (text : List Char)
  deriving DecidableEq

/-- `str::to_ascii_lowercase`. -/
def lowercase (text : List Char) : List Char := text.map Char.toLower

def connectionHints : List String :=
  ["broken pipe", "connection reset", "io error", "network", "eof", "transport"]

def isConnectionError : DbErr → Bool
  | .conn _ => true
  | .connectionAcquire _ => true
  | .query text => connectionHints.any (contains (lowercase text))
  | .custom _ | .other _ => false

def allReadAttemptsExhausted : DbErr := .custom "all read attempts exhausted".toList

/-- What the environment decides about an attempt: the clock and the random number when the
replica is picked, the result, and the clock when the replica is marked down. -/
structure Moment (T : Type) where
  now : Time
  roll : Nat
  result : Except DbErr T
  later : Time

/-- Whether a result is one that is tried again. -/
def failed {T : Type} : Except DbErr T → Bool
  | .ok _ => false
  | .error e => isConnectionError e

/-- The moment, as far as a pick looks at it. -/
def Moment.occasion {T : Type} (m : Moment T) : Occasion where
  now := m.now
  roll := m.roll
  answer := match m.result with
    | .ok _ => .ok
    | .error e => if isConnectionError e then .connectionError else .queryError
  later := m.later

inductive Event (T : Type)
  /-- A replica is picked by the health table that `downUntil` is. -/
  | picked (now : Time) (downUntil : List (Option Time)) (idx : Nat)
  | answered (conn : Connection) (result : Except DbErr T)
  | markedDown (idx : Nat)

/-- A call of `execute_read_retry`: its variables, and what it has done so far. -/
structure ReadCall (T : Type) where
  router : AutoRouter
  tried : List Nat := []
  lastErr : Option DbErr := none
  returned : Option (Except DbErr T) := none
  /-- The number of the connections asked. -/
  asked : Nat := 0
  log : List (Event T) := []

namespace ReadCall

variable {T : Type}

def attempt (m : Moment T) (idx : Nat) (s : ReadCall T) : ReadCall T :=
  let s := { s with
    asked := s.asked + 1
    log := s.log ++ [Event.answered (.read idx) m.result] }
  match m.result with
  | .ok v => { s with returned := some (.ok v) }
  | .error e =>
    if isConnectionError e then
      { s with
        router := s.router.markDown idx m.later
        lastErr := some e
        log := s.log ++ [Event.markedDown idx] }
    else { s with returned := some (.error e) }

/-- Phase 1: each replica once. -/
def tryEach (env : Nat → Moment T) : Nat → ReadCall T → ReadCall T
  | 0, s => s
  | rounds + 1, s =>
    let m := env s.asked
    match s.router.pickNextRead m.occasion s.tried with
    | (router, none) => { s with router := router }
    | (router, some idx) =>
      let s := attempt m idx { s with
        router := router
        tried := s.tried ++ [idx]
        log := s.log ++ [.picked m.now s.router.downUntil idx] }
      if s.returned.isSome then s else tryEach env rounds s

/-- Phase 2: the extra attempts, whatever the circuit breakers say. -/
def tryAgain (env : Nat → Moment T) : List Nat → ReadCall T → ReadCall T
  | [], s => s
  | retry :: retries, s =>
    let idx := (s.tried.length + retry) % s.router.reads.length
    let s := attempt (env s.asked) idx s
    if s.returned.isSome then s else tryAgain env retries s

/-- The writer is asked. -/
def toWriter (env : Nat → Moment T) (s : ReadCall T) : ReadCall T :=
  let result := (env s.asked).result
  { s with
    asked := s.asked + 1
    returned := some result
    log := s.log ++ [.answered .write result] }

def executeReadRetry (env : Nat → Moment T) (r : AutoRouter) : ReadCall T :=
  let s : ReadCall T := { router := r }
  if r.reads.isEmpty then s.toWriter env
  else
    let s := tryEach env r.reads.length s
    if s.returned.isSome then s
    else
      let s := if s.lastErr.isSome && 0 < r.retryAttempts then
          tryAgain env (List.range r.retryAttempts) s
        else s
      if s.returned.isSome then s
      else if r.fallbackToWrite then s.toWriter env
      else { s with returned := some (.error (s.lastErr.getD allReadAttemptsExhausted)) }

end ReadCall

/-! ### What is picked -/

section
variable {r router : AutoRouter} {o : Occasion} {exclude : List Nat} {idx chosen roll : Nat}
  {up : List Nat}

theorem pickWeighted_mem {weighted : List (Nat × Nat)} :
    AutoRouter.pickWeighted chosen weighted roll ∈ chosen :: weighted.map Prod.fst := by
  induction weighted generalizing roll with
  | nil => simp [AutoRouter.pickWeighted]
  | cons w weighted ih =>
    rw [AutoRouter.pickWeighted]
    split
    · simp
    · have h := @ih (roll - w.2)
      simp only [List.mem_cons] at h
      simp only [List.map_cons, List.mem_cons]
      cases h with
      | inl h => exact Or.inl h
      | inr h => exact Or.inr (Or.inr h)

theorem getD_mod_mem (h : up ≠ []) : up.getD (roll % up.length) 0 ∈ up := by
  have hlt : roll % up.length < up.length := Nat.mod_lt _ (List.length_pos_iff.mpr h)
  rw [List.getD_eq_getElem?_getD, List.getElem?_eq_getElem hlt]
  exact List.getElem_mem hlt

theorem selectWeightedIndex_mem (h : up ≠ []) : (r.selectWeightedIndex up roll).2 ∈ up := by
  unfold AutoRouter.selectWeightedIndex
  dsimp only
  split
  · exact getD_mod_mem h
  · have hmem := @pickWeighted_mem (up.headD 0)
      (roll % (up.map fun i => r.reads.getD i 0).sum)
      (up.zip (up.map fun i => r.reads.getD i 0))
    rw [List.map_fst_zip (by simp)] at hmem
    cases hup : up with
    | nil => exact absurd hup h
    | cons i rest =>
      rw [hup] at hmem
      simpa using hmem

/-- What `pick_next_read` leaves behind: but for the counter of the round robin, a router that
has forgotten the circuit breakers that have expired. -/
structure Picked (r r' : AutoRouter) (now : Time) (exclude : List Nat) : Prop where
  reads : r'.reads = r.reads
  circuitBreak : r'.circuitBreak = r.circuitBreak
  downUntil : r'.downUntil = (r.recover now exclude).downUntil

theorem picked_selectWeightedIndex {now : Time} :
    Picked r ((r.recover now exclude).selectWeightedIndex up roll).1 now exclude := by
  unfold AutoRouter.selectWeightedIndex
  dsimp only
  split <;> exact ⟨rfl, rfl, rfl⟩

/-- A pick takes one of the replicas that are up, if any is. -/
theorem pickNextRead_cases :
    Picked r (r.pickNextRead o exclude).1 o.now exclude ∧
      ((r.healthy o.now exclude = [] ∧ (r.pickNextRead o exclude).2 = none) ∨
        ∃ idx ∈ r.healthy o.now exclude, (r.pickNextRead o exclude).2 = some idx) := by
  unfold AutoRouter.pickNextRead
  dsimp only
  cases hup : r.healthy o.now exclude with
  | nil => exact ⟨⟨rfl, rfl, rfl⟩, Or.inl ⟨rfl, rfl⟩⟩
  | cons i rest =>
    have hne : i :: rest ≠ [] := List.cons_ne_nil _ _
    cases hstrategy : (r.recover o.now exclude).strategy with
    | roundRobin => exact ⟨⟨rfl, rfl, rfl⟩, Or.inr ⟨_, getD_mod_mem hne, rfl⟩⟩
    | random => exact ⟨⟨rfl, rfl, rfl⟩, Or.inr ⟨_, getD_mod_mem hne, rfl⟩⟩
    | weighted =>
      exact ⟨picked_selectWeightedIndex, Or.inr ⟨_, selectWeightedIndex_mem hne, rfl⟩⟩

theorem mem_healthy {now : Time} : idx ∈ r.healthy now exclude ↔
    idx < r.reads.length ∧ idx ∉ exclude ∧
      AutoRouter.expired now (r.downUntil.getD idx none) = true := by
  simp [AutoRouter.healthy]

end

/-- What a round of phase 1 comes to: no replica is up, or one that is up is asked. -/
inductive ReadCall.Round {T : Type} (env : Nat → Moment T) (rounds : Nat) (s : ReadCall T) :
    ReadCall T → Prop
  | down {router : AutoRouter} (down : s.router.healthy (env s.asked).now s.tried = [])
      (picked : Picked s.router router (env s.asked).now s.tried) :
      Round env rounds s { s with router := router }
  | asked {router : AutoRouter} {idx : Nat} {t : ReadCall T}
      (up : idx ∈ s.router.healthy (env s.asked).now s.tried)
      (picked : Picked s.router router (env s.asked).now s.tried)
      (attempt : ReadCall.attempt (env s.asked) idx { s with
        router := router, tried := s.tried ++ [idx],
        log := s.log ++ [.picked (env s.asked).now s.router.downUntil idx] } = t) :
      Round env rounds s (if t.returned.isSome then t else ReadCall.tryEach env rounds t)

theorem round_tryEach {T : Type} {env : Nat → Moment T} {rounds : Nat} {s : ReadCall T} :
    s.Round env rounds (ReadCall.tryEach env (rounds + 1) s) := by
  obtain ⟨hpicked, hnext⟩ := @pickNextRead_cases s.router (env s.asked).occasion s.tried
  rw [ReadCall.tryEach]
  dsimp only
  cases hpick : s.router.pickNextRead (env s.asked).occasion s.tried with
  | mk router next =>
    rw [hpick] at hpicked hnext
    cases hnext with
    | inl hnext =>
      obtain ⟨hdown, hnone⟩ := hnext
      dsimp only at hnone hpicked
      rw [hnone]
      exact .down hdown hpicked
    | inr hnext =>
      obtain ⟨idx, hidx, hsome⟩ := hnext
      dsimp only at hsome hpicked
      rw [hsome]
      exact .asked hidx hpicked rfl

/-! ### The call without its results -/

section
variable {T : Type} {env : Nat → Moment T} {r : AutoRouter} {s : ReadCall T} {m : Moment T}
  {idx : Nat}

def answerOf : Except DbErr T → Answer
  | .ok _ => .ok
  | .error e => if isConnectionError e then .connectionError else .queryError

def Event.connection : Event T → Option Connection
  | .answered conn _ => some conn
  | .picked .. | .markedDown _ => none

/-- What is left when only the kinds of the results are kept. -/
def ReadCall.erase (s : ReadCall T) : ReadRetry where
  router := s.router
  tried := s.tried
  sent := s.log.filterMap Event.connection
  failed := s.lastErr.isSome
  returned := s.returned.map answerOf

/-- The connections asked are counted, and what counts as the last error lost a connection. -/
structure ReadCall.Counted (s : ReadCall T) : Prop where
  asked : s.asked = (s.log.filterMap Event.connection).length
  lastErr : ∀ e, s.lastErr = some e → isConnectionError e = true

theorem erase_attempt :
    (ReadCall.attempt m idx s).erase = ReadRetry.attempt m.occasion idx s.erase := by
  unfold ReadCall.attempt ReadRetry.attempt ReadCall.erase Moment.occasion
  dsimp only
  cases hresult : m.result with
  | ok v => simp [Event.connection, answerOf]
  | error e =>
    by_cases he : isConnectionError e = true
    · simp [Event.connection, he]
    · simp [Event.connection, he, answerOf]

theorem counted_attempt (idx : Nat) (h : s.Counted) : (ReadCall.attempt m idx s).Counted := by
  unfold ReadCall.attempt
  dsimp only
  split
  · exact ⟨by simp [h.asked, Event.connection], h.lastErr⟩
  · split
    · rename_i e _ he
      exact ⟨by simp [h.asked, Event.connection], by simpa using he⟩
    · exact ⟨by simp [h.asked, Event.connection], h.lastErr⟩

theorem isSome_erase : s.erase.returned.isSome = s.returned.isSome := by
  simp [ReadCall.erase]

theorem erase_tryEach {rounds : Nat} (h : s.Counted) :
    (ReadCall.tryEach env rounds s).erase =
        ReadRetry.tryEach (fun k => (env k).occasion) rounds s.erase ∧
      (ReadCall.tryEach env rounds s).Counted := by
  induction rounds generalizing s with
  | zero => exact ⟨rfl, h⟩
  | succ rounds ih =>
    have hmoment : (env s.erase.sent.length).occasion = (env s.asked).occasion := by
      rw [h.asked]
      rfl
    rw [ReadCall.tryEach, ReadRetry.tryEach]
    dsimp only
    rw [hmoment, show s.erase.router = s.router from rfl, show s.erase.tried = s.tried from rfl]
    cases s.router.pickNextRead (env s.asked).occasion s.tried with
    | mk router next =>
      cases next with
      | none => exact ⟨rfl, h.asked, h.lastErr⟩
      | some idx =>
        dsimp only
        have herase : ({ s with
            router := router, tried := s.tried ++ [idx],
            log := s.log ++ [.picked (env s.asked).now s.router.downUntil idx] } :
              ReadCall T).erase =
            { s.erase with router := router, tried := s.tried ++ [idx] } := by
          simp [ReadCall.erase, Event.connection]
        have hcounted : ({ s with
            router := router, tried := s.tried ++ [idx],
            log := s.log ++ [.picked (env s.asked).now s.router.downUntil idx] } :
              ReadCall T).Counted :=
          ⟨by simp [h.asked, Event.connection], h.lastErr⟩
        rw [← herase, ← erase_attempt, isSome_erase]
        have hcounted := counted_attempt (m := env s.asked) idx hcounted
        split
        · exact ⟨rfl, hcounted⟩
        · exact ih hcounted

theorem erase_tryAgain {retries : List Nat} (h : s.Counted) :
    (ReadCall.tryAgain env retries s).erase =
        ReadRetry.tryAgain (fun k => (env k).occasion) retries s.erase ∧
      (ReadCall.tryAgain env retries s).Counted := by
  induction retries generalizing s with
  | nil => exact ⟨rfl, h⟩
  | cons retry retries ih =>
    have hmoment : (env s.erase.sent.length).occasion = (env s.asked).occasion := by
      rw [h.asked]
      rfl
    rw [ReadCall.tryAgain, ReadRetry.tryAgain]
    rw [hmoment, show s.erase.router = s.router from rfl, show s.erase.tried = s.tried from rfl,
      ← erase_attempt, isSome_erase]
    have hcounted := counted_attempt (m := env s.asked)
      ((s.tried.length + retry) % s.router.reads.length) h
    split
    · exact ⟨rfl, hcounted⟩
    · exact ih hcounted

theorem erase_toWriter (h : s.Counted) :
    (s.toWriter env).erase = s.erase.toWriter fun k => (env k).occasion := by
  have hasked : s.erase.sent.length = s.asked := h.asked.symm
  rw [ReadRetry.toWriter, hasked]
  unfold ReadCall.toWriter ReadCall.erase Moment.occasion
  dsimp only
  cases hresult : (env s.asked).result <;> simp [Event.connection, answerOf]

/-- `AutoRouter.executeReadRetry` is the call with only the kinds of its results. -/
theorem erase_executeReadRetry :
    (ReadCall.executeReadRetry env r).erase =
      r.executeReadRetry fun k => (env k).occasion := by
  have hstart : ({ router := r } : ReadCall T).Counted := ⟨rfl, by simp⟩
  obtain ⟨heach, hcounted⟩ := @erase_tryEach T env { router := r } r.reads.length hstart
  rw [ReadCall.executeReadRetry, AutoRouter.executeReadRetry]
  dsimp only
  split
  · exact erase_toWriter hstart
  · rw [show ({ router := r } : ReadRetry) = ({ router := r } : ReadCall T).erase from rfl,
      ← heach, isSome_erase]
    generalize ReadCall.tryEach env r.reads.length { router := r } = s at hcounted
    split
    · rfl
    · have hagain : ∃ t : ReadCall T, t.Counted ∧
          (if s.lastErr.isSome && 0 < r.retryAttempts then
            ReadCall.tryAgain env (List.range r.retryAttempts) s else s) = t ∧
          (if s.erase.failed then
            ReadRetry.tryAgain (fun k => (env k).occasion) (List.range r.retryAttempts) s.erase
          else s.erase) = t.erase := by
        obtain ⟨htry, htryCounted⟩ := @erase_tryAgain T env s (List.range r.retryAttempts) hcounted
        rw [show s.erase.failed = s.lastErr.isSome from rfl]
        cases s.lastErr.isSome with
        | false => exact ⟨s, hcounted, rfl, rfl⟩
        | true =>
          cases hretry : r.retryAttempts with
          | zero => exact ⟨s, hcounted, rfl, rfl⟩
          | succ n =>
            rw [hretry] at htry htryCounted
            exact ⟨_, htryCounted, rfl, htry.symm⟩
      obtain ⟨t, htcounted, ht, hterase⟩ := hagain
      rw [ht, hterase, isSome_erase]
      split
      · rfl
      · split
        · exact erase_toWriter htcounted
        · rw [show t.erase.failed = t.lastErr.isSome from rfl]
          cases hlast : t.lastErr with
          | none => simp [ReadCall.erase, hlast, answerOf, allReadAttemptsExhausted,
              isConnectionError]
          | some e => simp [ReadCall.erase, hlast, answerOf, htcounted.lastErr e hlast]

end

end Routing

end Webshelf
