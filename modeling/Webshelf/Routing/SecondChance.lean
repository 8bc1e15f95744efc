import Webshelf.Routing.Attempts
import Mathlib.Data.List.Perm.Subperm
import Mathlib.Order.Monotone.Basic

/-!
# Do the extra attempts go where the first ones went?

Phase 2 counts on from the number of the replicas that were tried, which need not be one of
theirs.
-/

namespace Webshelf

namespace Routing

variable {T : Type}

def Event.replica : Event T → Option Nat
  | .answered (.read idx) _ => some idx
  | .answered .write _ | .picked .. | .markedDown _ => none

/-- The replicas asked in phase 2. -/
def ReadCall.phase2 (s : ReadCall T) : List Nat :=
  (s.log.filterMap Event.replica).drop s.tried.length

/-- Phase 2 asks only replicas that were tried in phase 1 and have failed, so that one whose
circuit breaker is open from the start, and at each pick, is not asked at all. -/
structure SparesOthers (r : AutoRouter) (env : Nat → Moment T) (s : ReadCall T) : Prop where
  again : ∀ idx ∈ s.phase2, ∃ k, s.tried[k]? = some idx ∧ failed (env k).result = true
  others : ∀ idx, AutoRouter.expired (env 0).now (r.downUntil.getD idx none) = false →
    (∀ now downUntil i, .picked now downUntil i ∈ s.log →
      AutoRouter.expired now (r.downUntil.getD idx none) = false) →
    idx ∉ s.log.filterMap Event.replica

/-- The number of replicas that phase 1 asks when all of them fail: it ends as soon as no more
are up than were tried. -/
def AutoRouter.upCount (r : AutoRouter) (env : Nat → Moment T) : Nat :=
  ((List.range r.reads.length).find? fun k =>
    decide ((r.healthy (env k).now []).length ≤ k)).getD r.reads.length

/-- Where phase 2 is reached, counting on from the number of the replicas that are up leads to
replicas that are up. -/
def CountsOnToUp (r : AutoRouter) (env : Nat → Moment T) : Prop :=
  ∀ j < r.retryAttempts, 0 < r.upCount env →
    (∀ k < r.upCount env + j, failed (env k).result = true) →
    (r.upCount env + j) % r.reads.length ∈ r.healthy (env (r.upCount env)).now []

/-! ### What phase 1 has tried -/

section
variable {r router : AutoRouter} {env : Nat → Moment T} {s : ReadCall T} {m : Moment T}
  {idx i : Nat} {t now : Time}

theorem expired_mono {until_ : Option Time} (h : AutoRouter.expired now until_ = true)
    (hle : now ≤ t) : AutoRouter.expired t until_ = true := by
  cases until_ with
  | none => rfl
  | some u =>
    have hu : u ≤ now := by simpa [AutoRouter.expired] using h
    simpa [AutoRouter.expired] using Int.le_trans hu hle

/-- What is forgotten has expired, then and later. -/
theorem expired_recover {exclude : List Nat} (hle : now ≤ t) :
    AutoRouter.expired t ((r.recover now exclude).downUntil.getD i none) =
      AutoRouter.expired t (r.downUntil.getD i none) := by
  rw [List.getD_eq_getElem?_getD, List.getD_eq_getElem?_getD, AutoRouter.recover,
    List.getElem?_mapIdx]
  cases hold : r.downUntil[i]? with
  | none => rfl
  | some until_ =>
    simp only [Option.map_some, Option.getD_some]
    split
    · rename_i h
      have hexpired : AutoRouter.expired now until_ = true := by
        simp only [Bool.and_eq_true] at h
        exact h.2
      rw [expired_mono hexpired hle]
      rfl
    · rfl

theorem asked_attempt : (ReadCall.attempt m idx s).asked = s.asked + 1 := by
  unfold ReadCall.attempt
  dsimp only
  split
  · rfl
  · split <;> rfl

/-- An attempt leaves the circuit breakers of the other replicas alone. -/
theorem downUntil_attempt (h : i ≠ idx) :
    (ReadCall.attempt m idx s).router.downUntil.getD i none =
      s.router.downUntil.getD i none := by
  unfold ReadCall.attempt
  dsimp only
  split
  · rfl
  · split
    · rw [List.getD_eq_getElem?_getD, AutoRouter.markDown,
        List.getElem?_set_ne (Ne.symm h), ← List.getD_eq_getElem?_getD]
    · rfl

theorem reads_attempt : (ReadCall.attempt m idx s).router.reads = s.router.reads := by
  unfold ReadCall.attempt
  dsimp only
  split
  · rfl
  · split <;> rfl

theorem mem_log_attempt {downUntil : List (Option Time)} :
    .picked now downUntil i ∈ (ReadCall.attempt m idx s).log ↔
      .picked now downUntil i ∈ s.log := by
  unfold ReadCall.attempt
  dsimp only
  split
  · simp
  · split <;> simp

/-- No attempt was made at a later time. -/
def Passed (env : Nat → Moment T) (s : ReadCall T) (t : Time) : Prop :=
  ∀ k < s.asked, (env k).now ≤ t

/-- What phase 1 keeps by a clock that does not go back: it has tried replicas that were up when
the call began, or that have come up since. -/
structure Timed (r : AutoRouter) (env : Nat → Moment T) (s : ReadCall T) : Prop where
  asked : s.asked = s.tried.length
  nodup : s.tried.Nodup
  tried_lt : ∀ i ∈ s.tried, i < r.reads.length
  was_up : ∀ i ∈ s.tried, ∀ t, Passed env s t →
    AutoRouter.expired t (r.downUntil.getD i none) = true
  room : ∀ k < s.asked, k < (r.healthy (env k).now []).length
  pick : ∀ i ∈ s.tried, ∃ now downUntil, .picked now downUntil i ∈ s.log ∧
    AutoRouter.expired now (r.downUntil.getD i none) = true

/-- The circuit breakers of the replicas not tried are the first ones, as far as they have not
expired. -/
structure Untouched (r : AutoRouter) (env : Nat → Moment T) (s : ReadCall T) : Prop where
  reads : s.router.reads = r.reads
  agrees : ∀ i, i ∉ s.tried → ∀ t, Passed env s t →
    AutoRouter.expired t (s.router.downUntil.getD i none) =
      AutoRouter.expired t (r.downUntil.getD i none)

theorem passed_now (hclock : ∀ k, (env k).now ≤ (env (k + 1)).now) :
    Passed env s (env s.asked).now := by
  intro k hk
  exact monotone_nat_of_le_succ (f := fun k => (env k).now) hclock (Nat.le_of_lt hk)

/-- The replicas tried were up by then, and `room` says there were more. -/
theorem tried_length_lt (h : Timed r env s) (hpassed : Passed env s t)
    (hidx : idx < r.reads.length) (hnew : idx ∉ s.tried)
    (hup : AutoRouter.expired t (r.downUntil.getD idx none) = true) :
    s.tried.length < (r.healthy t []).length := by
  have hsub : idx :: s.tried ⊆ r.healthy t [] := by
    intro i hi
    apply mem_healthy.mpr
    cases List.mem_cons.mp hi with
    | inl hi =>
      rw [hi]
      exact ⟨hidx, by simp, hup⟩
    | inr hi => exact ⟨h.tried_lt i hi, by simp, h.was_up i hi t hpassed⟩
  have hnodup : (idx :: s.tried).Nodup := List.nodup_cons.mpr ⟨hnew, h.nodup⟩
  have hle := (List.subperm_of_subset hnodup hsub).length_le
  exact hle

/-- A round of phase 1 that asks replica `idx`. -/
theorem Timed.attempt {router : AutoRouter} (h : Timed r env s) (hun : Untouched r env s)
    (hclock : ∀ k, (env k).now ≤ (env (k + 1)).now)
    (hpicked : Picked s.router router (env s.asked).now s.tried)
    (hidx : idx ∈ s.router.healthy (env s.asked).now s.tried) :
    Timed r env (ReadCall.attempt (env s.asked) idx { s with
        router := router
        tried := s.tried ++ [idx]
        log := s.log ++ [.picked (env s.asked).now s.router.downUntil idx] }) ∧
      Untouched r env (ReadCall.attempt (env s.asked) idx { s with
        router := router
        tried := s.tried ++ [idx]
        log := s.log ++ [.picked (env s.asked).now s.router.downUntil idx] }) := by
  obtain ⟨hlt, hnew, hup⟩ := mem_healthy.mp hidx
  rw [hun.reads] at hlt
  have hpassed : Passed env s (env s.asked).now := passed_now hclock
  rw [hun.agrees idx hnew _ hpassed] at hup
  generalize hs : ({ s with
    router := router
    tried := s.tried ++ [idx]
    log := s.log ++ [.picked (env s.asked).now s.router.downUntil idx] } : ReadCall T) = s'
  have hs_tried : s'.tried = s.tried ++ [idx] := by rw [← hs]
  have hs_asked : s'.asked = s.asked := by rw [← hs]
  have hs_router : s'.router = router := by rw [← hs]
  have hlater : ∀ t, Passed env (ReadCall.attempt (env s.asked) idx s') t →
      Passed env s t ∧ (env s.asked).now ≤ t := by
    intro t ht
    unfold Passed at ht
    rw [asked_attempt, hs_asked] at ht
    exact ⟨fun k hk => ht k (by omega), ht s.asked (by omega)⟩
  constructor
  · constructor
    · rw [asked_attempt, tried_attempt, hs_asked, hs_tried, h.asked, List.length_append]
      rfl
    · rw [tried_attempt, hs_tried]
      apply List.nodup_append.mpr
      refine ⟨h.nodup, by simp, ?_⟩
      intro a ha b hb hab
      rw [List.mem_singleton.mp hb] at hab
      exact hnew (hab ▸ ha)
    · intro i hi
      rw [tried_attempt, hs_tried] at hi
      cases List.mem_append.mp hi with
      | inl hi => exact h.tried_lt i hi
      | inr hi =>
        rw [List.mem_singleton.mp hi]
        exact hlt
    · intro i hi t ht
      rw [tried_attempt, hs_tried] at hi
      obtain ⟨hpast, hle⟩ := hlater t ht
      cases List.mem_append.mp hi with
      | inl hi => exact h.was_up i hi t hpast
      | inr hi =>
        rw [List.mem_singleton.mp hi]
        exact expired_mono hup hle
    · intro k hk
      rw [asked_attempt, hs_asked] at hk
      cases Nat.lt_succ_iff_lt_or_eq.mp hk with
      | inl hk => exact h.room k hk
      | inr hk =>
        rw [hk]
        have hroom := tried_length_lt h hpassed hlt hnew hup
        rw [← h.asked] at hroom
        exact hroom
    · intro i hi
      rw [tried_attempt, hs_tried] at hi
      simp only [mem_log_attempt]
      cases List.mem_append.mp hi with
      | inl hi =>
        obtain ⟨now, downUntil, hmem, hexpired⟩ := h.pick i hi
        refine ⟨now, downUntil, ?_, hexpired⟩
        rw [← hs]
        exact List.mem_append_left _ hmem
      | inr hi =>
        refine ⟨(env s.asked).now, s.router.downUntil, ?_, ?_⟩
        · rw [← hs, List.mem_singleton.mp hi]
          simp
        · rw [List.mem_singleton.mp hi]
          exact hup
  · constructor
    · rw [reads_attempt, hs_router, hpicked.reads, hun.reads]
    · intro i hi t ht
      rw [tried_attempt, hs_tried] at hi
      obtain ⟨hpast, hle⟩ := hlater t ht
      have hne : i ≠ idx := by
        rintro rfl
        simp at hi
      have hold : i ∉ s.tried := fun h => hi (List.mem_append_left _ h)
      rw [downUntil_attempt hne, hs_router, hpicked.downUntil, expired_recover hle,
        hun.agrees i hold t hpast]

/-- After phase 1, unless an attempt has ended the call, every replica that is up was tried. -/
theorem tryEach_timed {rounds : Nat} (hclock : ∀ k, (env k).now ≤ (env (k + 1)).now)
    (h : Timed r env s) (hun : Untouched r env s)
    (hrounds : r.reads.length ≤ s.tried.length + rounds) :
    Timed r env (ReadCall.tryEach env rounds s) ∧
      ((ReadCall.tryEach env rounds s).returned = none → ∀ i < r.reads.length,
        i ∉ (ReadCall.tryEach env rounds s).tried →
        AutoRouter.expired (env (ReadCall.tryEach env rounds s).asked).now
          (r.downUntil.getD i none) = false) := by
  induction rounds generalizing s with
  | zero =>
    refine ⟨h, fun _ i hi hnew => ?_⟩
    -- all of them were tried
    have hsub : s.tried ⊆ List.range r.reads.length := fun j hj =>
      List.mem_range.mpr (h.tried_lt j hj)
    have hperm : s.tried.Perm (List.range r.reads.length) :=
      (List.subperm_of_subset h.nodup hsub).perm_of_length_le (by simpa using hrounds)
    exact absurd (hperm.mem_iff.mpr (List.mem_range.mpr hi)) hnew
  | succ rounds ih =>
    have hround := @round_tryEach T env rounds s
    generalize ReadCall.tryEach env (rounds + 1) s = t at hround ⊢
    cases hround with
    | down hdown hpicked =>
      refine ⟨⟨h.asked, h.nodup, h.tried_lt, h.was_up, h.room, h.pick⟩, fun _ i hi hnew => ?_⟩
      dsimp only at hnew ⊢
      rw [← hun.agrees i hnew _ (passed_now hclock)]
      apply Bool.eq_false_iff.mpr
      intro hup
      have hmem : i ∈ s.router.healthy (env s.asked).now s.tried :=
        mem_healthy.mpr ⟨hun.reads ▸ hi, hnew, hup⟩
      rw [hdown] at hmem
      cases hmem
    | @asked router idx s' hidx hpicked hs' =>
      obtain ⟨htimed, huntouched⟩ := h.attempt hun hclock hpicked hidx
      rw [hs'] at htimed huntouched
      split
      · rename_i hreturned
        refine ⟨htimed, fun hnone => ?_⟩
        rw [hnone] at hreturned
        cases hreturned
      · apply ih htimed huntouched
        rw [← hs', tried_attempt, List.length_append, List.length_singleton]
        omega

/-- The state after phase 1. -/
def phase1 (env : Nat → Moment T) (r : AutoRouter) : ReadCall T :=
  ReadCall.tryEach env r.reads.length { router := r }

theorem phase1_timed (hclock : ∀ k, (env k).now ≤ (env (k + 1)).now) :
    Timed r env (phase1 env r) ∧
      ((phase1 env r).returned = none → ∀ i < r.reads.length, i ∉ (phase1 env r).tried →
        AutoRouter.expired (env (phase1 env r).asked).now
          (r.downUntil.getD i none) = false) := by
  apply tryEach_timed hclock
  · exact ⟨rfl, by simp, by simp, by simp, by simp, by simp⟩
  · exact ⟨rfl, fun _ _ _ _ => rfl⟩
  · exact Nat.le_add_left _ _

/-- Phase 1 is over without a result exactly when all of its attempts have failed. -/
theorem phase1_returned : (phase1 env r).returned = none ↔
    ∀ k < (phase1 env r).tried.length, failed (env k).result = true := by
  obtain ⟨first, _, htried, htells, _⟩ :=
    @tryEach_tells T r env { router := r } [] r.reads.length
      ⟨rfl, rfl, rfl, by simp, fun _ _ h => Or.inl h, by simp, rfl, rfl⟩
      ⟨rfl, by simp, by simp⟩
  rw [List.nil_append] at htried htells
  change Tried r first (phase1 env r) at htried
  change Tells r env _ _ (phase1 env r) at htells
  rw [htried.tried, List.length_map, ← List.length_map (f := Pick.toAttempt)]
  generalize first.map Pick.toAttempt = l at htells
  cases htells with
  | inl hgoing =>
    apply iff_of_true hgoing.returned
    intro k hk
    rw [← hgoing.answers k l[k] (List.getElem?_eq_getElem hk)]
    exact hgoing.failed _ (List.getElem_mem hk)
  | inr hstopped =>
    have hreturned := returned_of_stopped hstopped
    obtain ⟨rest, a, hl, _, ha, _⟩ := hstopped.last
    apply iff_of_false
    · intro hnone
      rw [hnone] at hreturned
      cases hreturned
    · intro hall
      have hlast := hstopped.answers rest.length a (by rw [hl]; exact List.getElem?_concat_length)
      rw [hlast, hall rest.length (by rw [hl]; simp)] at ha
      cases ha

theorem log_attempt : s.log <+: (ReadCall.attempt m idx s).log := by
  unfold ReadCall.attempt
  dsimp only
  split
  · exact List.prefix_append _ _
  · split
    · rw [List.append_assoc]
      exact List.prefix_append _ _
    · exact List.prefix_append _ _

theorem log_tryAgain {retries : List Nat} : s.log <+: (ReadCall.tryAgain env retries s).log := by
  induction retries generalizing s with
  | nil => exact List.prefix_rfl
  | cons retry retries ih =>
    rw [ReadCall.tryAgain]
    split
    · exact log_attempt
    · exact log_attempt.trans ih

/-- Phase 2 adds to the log, and tries no other replica. -/
theorem phase1_executeReadRetry (hreads : r.reads ≠ []) :
    (ReadCall.executeReadRetry env r).tried = (phase1 env r).tried ∧
      (phase1 env r).log <+: (ReadCall.executeReadRetry env r).log := by
  have hempty : r.reads.isEmpty = false := by simpa using hreads
  simp only [ReadCall.executeReadRetry, hempty, Bool.false_eq_true, if_false]
  generalize hs : ReadCall.tryEach env r.reads.length { router := r } = s
  have hphase : phase1 env r = s := hs
  rw [hphase]
  have hagain : (if s.lastErr.isSome && 0 < r.retryAttempts then
      ReadCall.tryAgain env (List.range r.retryAttempts) s else s).tried = s.tried ∧
        s.log <+: (if s.lastErr.isSome && 0 < r.retryAttempts then
          ReadCall.tryAgain env (List.range r.retryAttempts) s else s).log := by
    split
    · exact ⟨tried_tryAgain, log_tryAgain⟩
    · exact ⟨rfl, List.prefix_rfl⟩
  generalize (if s.lastErr.isSome && 0 < r.retryAttempts then
    ReadCall.tryAgain env (List.range r.retryAttempts) s else s) = t at hagain ⊢
  split
  · exact ⟨rfl, List.prefix_rfl⟩
  · split
    · exact hagain
    · split
      · exact ⟨hagain.1, hagain.2.trans (List.prefix_append _ _)⟩
      · exact hagain

end

/-! ### How many replicas are up -/

section
variable {r : AutoRouter} {env : Nat → Moment T} {n : Nat}

theorem le_upCount (hle : n ≤ r.reads.length)
    (hroom : ∀ k < n, k < (r.healthy (env k).now []).length) : n ≤ r.upCount env := by
  unfold AutoRouter.upCount
  cases hfind : (List.range r.reads.length).find? fun k =>
      decide ((r.healthy (env k).now []).length ≤ k) with
  | none => exact hle
  | some k =>
    have hk : (r.healthy (env k).now []).length ≤ k := by simpa using List.find?_some hfind
    apply Nat.le_of_not_lt
    intro hlt
    have hlt := hroom k hlt
    omega

theorem upCount_le (hup : (r.healthy (env n).now []).length ≤ n) : r.upCount env ≤ n := by
  unfold AutoRouter.upCount
  cases hfind : (List.range r.reads.length).find? fun k =>
      decide ((r.healthy (env k).now []).length ≤ k) with
  | none =>
    apply Nat.le_of_not_lt
    intro hlt
    have hnone := List.find?_eq_none.mp hfind n (List.mem_range.mpr hlt)
    simp only [decide_eq_true_eq] at hnone
    exact hnone hup
  | some k =>
    have hbefore := (List.find?_range_eq_some.mp hfind).2.2
    apply Nat.le_of_not_lt
    intro hlt
    have hn := hbefore n hlt
    simp only [Bool.not_eq_true', decide_eq_false_iff_not] at hn
    exact hn hup

end

section
variable {r : AutoRouter} {env : Nat → Moment T} {idx : Nat}

theorem phase1_length_le (hclock : ∀ k, (env k).now ≤ (env (k + 1)).now) :
    (phase1 env r).tried.length ≤ r.upCount env := by
  obtain ⟨htimed, _⟩ := @phase1_timed T r env hclock
  apply le_upCount
  · have hsub : (phase1 env r).tried ⊆ List.range r.reads.length := fun j hj =>
      List.mem_range.mpr (htimed.tried_lt j hj)
    simpa using (List.subperm_of_subset htimed.nodup hsub).length_le
  · rw [← htimed.asked]
    exact htimed.room

/-- When all attempts of phase 1 have failed, it has tried the replicas that are up. -/
theorem phase1_all (hclock : ∀ k, (env k).now ≤ (env (k + 1)).now)
    (hall : ∀ k < (phase1 env r).tried.length, failed (env k).result = true) :
    (phase1 env r).tried.length = r.upCount env ∧
      ∀ i, i ∈ (phase1 env r).tried ↔ i ∈ r.healthy (env (r.upCount env)).now [] := by
  obtain ⟨htimed, hrest⟩ := @phase1_timed T r env hclock
  have hrest := hrest (phase1_returned.mpr hall)
  have hmem : ∀ i, i ∈ (phase1 env r).tried ↔
      i ∈ r.healthy (env (phase1 env r).tried.length).now [] := by
    intro i
    rw [mem_healthy, ← htimed.asked]
    constructor
    · intro hi
      exact ⟨htimed.tried_lt i hi, by simp, htimed.was_up i hi _ (passed_now hclock)⟩
    · rintro ⟨hlt, _, hup⟩
      by_contra hnew
      rw [hrest i hlt hnew] at hup
      cases hup
  have hlength : (r.healthy (env (phase1 env r).tried.length).now []).length ≤
      (phase1 env r).tried.length := by
    have hnodup : (r.healthy (env (phase1 env r).tried.length).now []).Nodup :=
      List.nodup_range.filter _
    exact (List.subperm_of_subset hnodup fun i hi => (hmem i).mpr hi).length_le
  have hcount : (phase1 env r).tried.length = r.upCount env :=
    Nat.le_antisymm (phase1_length_le hclock) (upCount_le hlength)
  rw [← hcount]
  exact ⟨rfl, hmem⟩

/-! ### The second phase -/

theorem replica_events (a : Attempt T) : a.events.filterMap Event.replica = [a.idx] := by
  unfold Attempt.events
  split <;> rfl

theorem replica_pick (p : Pick T) : p.events.filterMap Event.replica = [p.idx] :=
  replica_events p.toAttempt

theorem filterMap_flatMap {α β γ : Type} {f : α → List β} {g : β → Option γ} {h : α → γ}
    {as : List α} (heach : ∀ a, (f a).filterMap g = [h a]) :
    (as.flatMap f).filterMap g = as.map h := by
  induction as with
  | nil => rfl
  | cons a as ih => rw [List.flatMap_cons, List.filterMap_append, heach, ih]; rfl

theorem replica_calls {first : List (Pick T)} {again : List (Attempt T)} :
    (first.flatMap Pick.events ++ again.flatMap Attempt.events).filterMap Event.replica =
      first.map (fun p => p.idx) ++ again.map Attempt.idx := by
  rw [List.filterMap_append, filterMap_flatMap replica_pick, filterMap_flatMap replica_events]

/-- The replicas asked in phase 2: they are counted on from the number of those tried, and there
are as many as the answers allow. -/
theorem phase2_spec (hreads : r.reads ≠ []) : ∃ again : List Nat,
    (ReadCall.executeReadRetry env r).log.filterMap Event.replica =
      (phase1 env r).tried ++ again ∧
    (∀ (j i : Nat), again[j]? = some i → j < r.retryAttempts ∧ 0 < (phase1 env r).tried.length ∧
      i = ((phase1 env r).tried.length + j) % r.reads.length ∧
      ∀ k < (phase1 env r).tried.length + j, failed (env k).result = true) ∧
    ∀ j < r.retryAttempts, 0 < (phase1 env r).tried.length →
      (∀ k < (phase1 env r).tried.length + j, failed (env k).result = true) →
      j < again.length := by
  obtain ⟨first, again, _, hle, _, _, htried, _, hidx, hempty, hagain, hend⟩ :=
    @executeReadRetry_phases T r env hreads
  rw [(phase1_executeReadRetry hreads).1] at htried
  have hlength : (phase1 env r).tried.length = first.length := by rw [htried, List.length_map]
  have hcount : (attempts first again).length = first.length + again.length := by
    simp [attempts]
  have hlog : (ReadCall.executeReadRetry env r).log.filterMap Event.replica =
      first.map (fun p => p.idx) ++ again.map Attempt.idx := by
    cases hend with
    | inl hstopped => rw [hstopped.log, replica_calls]
    | inr hgoing =>
      obtain ⟨s, hgoing, _, hs⟩ := hgoing
      rw [hs]
      split
      · rw [ReadCall.toWriter, hgoing.log, List.filterMap_append, replica_calls]
        exact List.append_nil _
      · rw [hgoing.log, replica_calls]
  -- all attempts but the last have failed, and are those of `env`
  have hanswers : ∀ k, k + 1 < (attempts first again).length →
      failed (env k).result = true := by
    intro k hk
    have hlt : k < (attempts first again).length := by omega
    have hget := List.getElem?_eq_getElem hlt
    cases hend with
    | inl hstopped =>
      rw [← hstopped.answers k _ hget]
      obtain ⟨rest, a, hl, hrest, _, _⟩ := hstopped.last
      have hlen : (attempts first again).length = rest.length + 1 := by rw [hl]; simp
      have hk' : k < rest.length := by omega
      have hsame : (attempts first again)[k] = rest[k] := by
        simp only [hl]
        exact List.getElem_append_left hk'
      rw [hsame]
      exact hrest _ (List.getElem_mem hk')
    | inr hgoing =>
      obtain ⟨s, hgoing, _, _⟩ := hgoing
      rw [← hgoing.answers k _ hget]
      exact hgoing.failed _ (List.getElem_mem hlt)
  refine ⟨again.map Attempt.idx, ?_, ?_, ?_⟩
  · rw [hlog, htried]
  · intro j i hj
    rw [List.getElem?_map, Option.map_eq_some_iff] at hj
    obtain ⟨a, ha, rfl⟩ := hj
    have hlt : j < again.length := (List.getElem?_eq_some_iff.mp ha).1
    have hpos : first ≠ [] := fun h => by
      rw [hempty h] at hlt
      cases hlt
    rw [hlength]
    refine ⟨Nat.lt_of_lt_of_le hlt hle, List.length_pos_iff.mpr hpos, hidx j a ha, ?_⟩
    intro k hk
    apply hanswers
    omega
  · intro j hj hpos hall
    rw [hlength] at hpos hall
    rw [List.length_map]
    cases hend with
    | inl hstopped =>
      obtain ⟨rest, a, hl, _, ha, _⟩ := hstopped.last
      have hlen : (attempts first again).length = rest.length + 1 := by rw [hl]; simp
      have hlast := hstopped.answers rest.length a (by rw [hl]; exact List.getElem?_concat_length)
      apply Nat.lt_of_not_le
      intro hshort
      rw [hlast, hall rest.length (by omega)] at ha
      cases ha
    | inr hgoing =>
      obtain ⟨s, _, hcomplete, _⟩ := hgoing
      rw [hcomplete (List.length_pos_iff.mp hpos)]
      exact hj

/-- By a clock that does not go back, phase 2 keeps to the replicas of phase 1 exactly where
counting on from the number of the replicas that are up leads to such replicas. -/
theorem sparesOthers_iff (hclock : ∀ k, (env k).now ≤ (env (k + 1)).now) :
    SparesOthers r env (ReadCall.executeReadRetry env r) ↔ CountsOnToUp r env := by
  by_cases hreads : r.reads = []
  · have hcount : r.upCount env = 0 := by simp [AutoRouter.upCount, hreads]
    have hcall : ReadCall.executeReadRetry env r =
        ReadCall.toWriter env { router := r } := by
      simp [ReadCall.executeReadRetry, hreads]
    apply iff_of_true
    · rw [hcall]
      exact ⟨by simp [ReadCall.phase2, ReadCall.toWriter, Event.replica],
        by simp [ReadCall.toWriter, Event.replica]⟩
    · intro j _ hpos
      rw [hcount] at hpos
      cases hpos
  · obtain ⟨again, hlog, hagain, hcomplete⟩ := @phase2_spec T r env hreads
    obtain ⟨htried, hpicks⟩ := @phase1_executeReadRetry T r env hreads
    obtain ⟨htimed, _⟩ := @phase1_timed T r env hclock
    have hphase2 : (ReadCall.executeReadRetry env r).phase2 = again := by
      rw [ReadCall.phase2, hlog, htried, List.drop_left]
    constructor
    · intro h j hj hpos hall
      have hle := @phase1_length_le T r env hclock
      obtain ⟨hcount, hmem⟩ := phase1_all hclock (r := r) fun k hk => hall k (by omega)
      rw [← hcount] at hpos hall
      have hlt := hcomplete j hj hpos hall
      obtain ⟨_, _, hidx, _⟩ := hagain j again[j] (List.getElem?_eq_getElem hlt)
      have hasked : again[j] ∈ (ReadCall.executeReadRetry env r).phase2 := by
        rw [hphase2]
        exact List.getElem_mem hlt
      obtain ⟨k, hk, _⟩ := h.again again[j] hasked
      rw [htried] at hk
      rw [← hmem, ← hcount, ← hidx]
      exact List.mem_of_getElem? hk
    · intro h
      have hspares : ∀ idx ∈ again, ∃ k, (phase1 env r).tried[k]? = some idx ∧
          failed (env k).result = true := by
        intro idx hidx
        obtain ⟨j, hj⟩ := List.getElem?_of_mem hidx
        obtain ⟨hlt, hpos, hcounted, hall⟩ := hagain j idx hj
        obtain ⟨hcount, hmem⟩ := phase1_all hclock (r := r) fun k hk => hall k (by omega)
        rw [hcount] at hpos hall hcounted
        have hup := h j hlt hpos hall
        rw [← hcounted, ← hmem] at hup
        obtain ⟨k, hk⟩ := List.getElem?_of_mem hup
        have hklt := (List.getElem?_eq_some_iff.mp hk).1
        exact ⟨k, hk, hall k (by omega)⟩
      constructor
      · rw [hphase2, htried]
        exact hspares
      · intro idx _ hopen hasked
        rw [hlog] at hasked
        have hidx : idx ∈ (phase1 env r).tried := by
          cases List.mem_append.mp hasked with
          | inl hidx => exact hidx
          | inr hidx =>
            obtain ⟨k, hk, _⟩ := hspares idx hidx
            exact List.mem_of_getElem? hk
        obtain ⟨now, downUntil, hpick, hexpired⟩ := htimed.pick idx hidx
        rw [hopen now downUntil idx (hpicks.subset hpick)] at hexpired
        cases hexpired

end

/-- Two replicas, of which the second is down. -/
def secondDown : AutoRouter :=
  { reads := [1, 1], downUntil := [none, some (seconds 30)], retryAttempts := 1, covers := rfl }

/-- No replica answers. -/
def silence : Nat → Moment Unit := fun _ => ⟨0, 0, .error (.conn []), 0⟩

/-- The replica that is down is asked in phase 2. -/
theorem phase2_secondDown :
    ¬ SparesOthers secondDown silence (ReadCall.executeReadRetry silence secondDown) := by
  intro h
  have hasked : 1 ∈ (ReadCall.executeReadRetry silence secondDown).phase2 := by decide
  obtain ⟨k, hk, _⟩ := h.again 1 hasked
  have htried : (ReadCall.executeReadRetry silence secondDown).tried = [0] := by decide
  rw [htried] at hk
  have hmem := List.mem_of_getElem? hk
  revert hmem
  decide

theorem sparesOthers_iff_secondDown :
    SparesOthers secondDown silence (ReadCall.executeReadRetry silence secondDown) ↔
      CountsOnToUp secondDown silence :=
  sparesOthers_iff fun _ => Int.le_refl _

end Routing

end Webshelf
