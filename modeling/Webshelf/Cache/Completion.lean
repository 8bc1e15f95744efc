import Webshelf.Cache.Stampede

/-!
# Does every call come to its end?

A call that has not returned goes on, unless it is about to poll the key for the
last time and the call that holds the lock is not past its SETEX; then that call
goes on. So where nobody held the lock at first, a run that meets the assumptions
can be completed wherever it stands.
-/

namespace Webshelf

open Runs

variable {T : Type}

theorem RedisKeys.held_of_refused {s redis : RedisKeys} {key value : String} {secs : Nat}
    {outcome : RedisOutcome} (h : s.setNxEx key value secs outcome = (redis, .ok false)) :
    (s.get key).isSome = true := by
  simp only [setNxEx] at h
  split at h
  · cases h
  · split at h
    · assumption
    · obtain ⟨-, h⟩ := Prod.mk.inj h
      cases outcome <;> cases h

namespace InsertPhase

/-- A call that has been refused the lock knows which call held it. -/
def Knows : InsertPhase T → Prop
  | lock attempt rival => attempt = 0 ∨ rival.isSome = true
  | poll _ rival => rival.isSome = true
  | _ => True

theorem Knows.found {spawned : Bool} {miss : InsertPhase T} {r : Except CacheError (Option T)}
    (h : miss.Knows) : (found spawned miss r).Knows := by
  rcases r with e | _ | val
  · trivial
  · exact h
  · trivial

theorem knows_marked (r : Except CacheError Bool) : (marked r : InsertPhase T).Knows := by
  rcases r with e | _ | _
  · trivial
  · exact .inl rfl
  · trivial

theorem Knows.next {serde : Serde T} {key : String} {n : Nat} {s a : CacheKeys T}
    {call q : InsertCall T} {input : InsertInput T} (h : call.phase.Knows)
    (retries : 1 ≤ call.maxRetries)
    (owned : (s.redis.get (lockKey key)).isSome = true → s.lockedBy.isSome = true)
    (hn : getOrInsertWithLock serde true key n s call input = some (a, q)) : q.phase.Knows := by
  cases hphase : call.phase with
  | get | recheck =>
    cases input <;> simp only [getOrInsertWithLock, hphase] at hn <;> cases hn
    apply Knows.found
    trivial
  | existsNull =>
    cases input <;> simp only [getOrInsertWithLock, hphase] at hn <;> cases hn
    exact knows_marked _
  | lock attempt rival =>
    rw [hphase] at h
    cases input with
    | computed => simp [getOrInsertWithLock, hphase] at hn
    | redis outcome =>
      simp only [getOrInsertWithLock, hphase, Bool.not_true, Bool.false_eq_true, if_false] at hn
      split at hn
      · split at hn <;> cases hn
        · trivial
        · rename_i hrefused
          exact .inr (owned (RedisKeys.held_of_refused hrefused))
        · trivial
      · -- a call tries at least once before it polls
        rename_i hlast
        cases hn
        exact h.resolve_left (by omega)
  | poll i rival =>
    rw [hphase] at h
    cases input with
    | computed => simp [getOrInsertWithLock, hphase] at hn
    | redis outcome =>
      simp only [getOrInsertWithLock, hphase] at hn
      split at hn <;> cases hn
      · apply Knows.found
        exact h
      · trivial
  | compute guard =>
    cases input with
    | redis => simp [getOrInsertWithLock, hphase] at hn
    | computed r =>
      simp only [getOrInsertWithLock, hphase] at hn
      cases hn
      cases r <;> trivial
  | set guard val =>
    cases input <;> simp only [getOrInsertWithLock, hphase] at hn <;> cases hn
    trivial
  | returned spawned r =>
    cases spawned <;> cases input <;> simp only [getOrInsertWithLock, hphase] at hn <;> cases hn
    trivial

end InsertPhase

namespace Inserts

variable {serde : Serde T} {key : String} {s s' s₀ : Inserts T} {n : Nat} {call : InsertCall T}
  {l : InsertLabel T} {val : T}

/-- Call `n` has a step that meets the assumptions. -/
def Moves [DecidableEq T] (serde : Serde T) (key : String) (s : Inserts T) (n : Nat) : Prop :=
  ∃ input s', s.undisturbed serde key (.step n input) = true ∧
    s.step serde key (.step n input) = some s'

/-- Redis takes the expiries of the calls. -/
def TakesExpiries (s : Inserts T) : Prop :=
  ∀ call ∈ s.threads, call.lockExpirySecs ≠ 0 ∧ call.ttlSecs ≠ 0

/-- Who holds the lock is known, to those it has been refused as well. -/
abbrev Known (key : String) (s : Inserts T) : Prop :=
  Threads.Holds
    (fun a : CacheKeys T =>
      (a.redis.get (lockKey key)).isSome = true → a.lockedBy.isSome = true)
    (fun _ _ call => call.phase.Knows) s

/-- The steps that the calls have left together. -/
def left (s : Inserts T) : Nat := (s.threads.map InsertCall.left).sum

variable [DecidableEq T]

theorem Known.step (hK : s.Known key) (h : s.Invariant serde key) (hW : s.Held key)
    (hok : s.undisturbed serde key l = true) (hstep : s.step serde key l = some s') :
    s'.Known key := by
  refine Threads.Holds.step hK hstep ?_ ?_ ?_
  · intro p _ hp
    simp only [cacheService] at hp
    split at hp
    · rename_i hphase
      rw [hphase]
      trivial
    · cases hp
  · intro n input p a q hl hp hA hn
    subst hl
    refine ⟨?_, hA.next (h.thread n p hp).retries hK.shared hn, fun _ _ _ _ hB => hB⟩
    cases does_of_next h.shared hW (h.thread n p hp) hp hok hn with
    | looks | computes => exact hK.shared
    | acquires => exact fun _ => rfl
    | sets =>
      intro hheld
      rw [Expiring.get_put_of_ne (lockKey_ne_key key)] at hheld
      exact hK.shared hheld
    | releases =>
      intro hheld
      refine hK.shared ?_
      simp only [RedisKeys.safeRelease] at hheld
      split at hheld
      · simp at hheld
      · exact hheld
  · intro now a _ he
    obtain ⟨hle, rfl⟩ := cache_tick he
    refine ⟨?_, fun _ _ _ hB => hB⟩
    intro hheld
    obtain ⟨held, hheld⟩ := Option.isSome_iff_exists.mp hheld
    exact hK.shared (Option.isSome_iff_exists.mpr ⟨held, Expiring.get_of_tick hle hheld⟩)

theorem known_reached (h0 : s₀.Initial key) (free : s₀.shared.redis.get (lockKey key) = none)
    (h : Reaches (step serde key) (fun s l => s.undisturbed serde key l = true) s₀ s) :
    s.Invariant serde key ∧ s.Held key ∧ s.Known key := by
  have hinit : s₀.Known key := by
    refine ⟨fun hheld => ?_, fun n call hn => ?_⟩
    · rw [free] at hheld
      cases hheld
    · rw [h0.threads] at hn
      cases hn
  obtain ⟨hinv, hW⟩ : s₀.Invariant serde key ∧ s₀.Held key := invariant_reached h0 .start
  refine h.invariant
    (I := fun s : Inserts T => s.Invariant serde key ∧ s.Held key ∧ s.Known key)
    ⟨hinv, hW, hinit⟩ ?_
  rintro a l b ⟨hinv, hW, hK⟩ hok hstep
  exact ⟨hinv.step hW hok hstep, Held.step hinv hW hok hstep, hK.step hinv hW hok hstep⟩

/-- A call goes on where it is not to poll for the last time too early. -/
theorem moves (hn : s.threads[n]? = some call) (hr : call.phase.result = none)
    (hexpiries : s.TakesExpiries) (hval : serde.roundTrips val = true)
    (hpoll : ∀ i rival, call.phase = .poll i rival → i + 1 = call.maxRetries →
      (s.shared.redis.get key).isSome = true ∨ s.stored rival = true) : s.Moves serde key n := by
  obtain ⟨hlock, hset⟩ := hexpiries call (List.mem_of_getElem? hn)
  rcases (returns hn).goesOn hr .done (.ok val) with hredis | hcomputed
  · obtain ⟨s', hs'⟩ := Option.isSome_iff_exists.mp hredis
    refine ⟨.redis .done, s', ?_, hs'⟩
    have hsucceeds : s.succeeds key call = true := by
      unfold succeeds
      split
      · exact bne_iff_ne.mpr hlock
      · exact bne_iff_ne.mpr hset
      · rename_i i rival hphase
        by_cases hlast : i + 1 = call.maxRetries
        · rcases hpoll i rival hphase hlast with hthere | hstored
          · simp [hthere]
          · simp [hstored]
        · simp [hlast]
      · rfl
    simp [undisturbed, hn, hsucceeds]
  · obtain ⟨s', hs'⟩ := Option.isSome_iff_exists.mp hcomputed
    exact ⟨.computed (.ok val), s', hval, hs'⟩

/-- Who waits with the last poll waits for a call that goes on. -/
theorem goesOn (h : s.Invariant serde key) (hW : s.Held key) (hK : s.Known key)
    (hexpiries : s.TakesExpiries) (hval : serde.roundTrips val = true)
    (hn : s.threads[n]? = some call) (hr : call.phase.result = none) :
    s.Moves serde key n ∨ ∃ m holder, s.threads[m]? = some holder ∧
      holder.phase.locked = true ∧ s.Moves serde key m := by
  by_cases hpoll : ∀ i rival, call.phase = .poll i rival → i + 1 = call.maxRetries →
      (s.shared.redis.get key).isSome = true ∨ s.stored rival = true
  · exact .inl (moves hn hr hexpiries hval hpoll)
  · simp only [not_forall, not_or] at hpoll
    obtain ⟨i, rival, hphase, -, habsent, -⟩ := hpoll
    have absent : s.shared.redis.get key = none := Option.not_isSome_iff_eq_none.mp habsent
    have hknows := hK.thread n call hn
    have hcold := (h.thread n call hn).cold absent
    rw [hphase] at hknows
    rw [InsertCall.Cold, hphase] at hcold
    obtain ⟨m, rfl⟩ := Option.isSome_iff_exists.mp hknows
    have hlockedBy : s.shared.lockedBy = some m := (hcold.2.resolve_left (by simp)).symm
    obtain ⟨holder, hm, hlocked⟩ := hW absent m hlockedBy
    refine .inr ⟨m, holder, hm, hlocked, moves hm ?_ hexpiries hval ?_⟩
    · cases hholder : holder.phase with
      | returned =>
        rw [hholder] at hlocked
        cases hlocked
      | _ => rfl
    · intro i' rival' hholder
      rw [hholder] at hlocked
      cases hlocked

theorem moved {input : InsertInput T} (h : s.Invariant serde key) (hW : s.Held key)
    (hexpiries : s.TakesExpiries) (hok : s.undisturbed serde key (.step n input) = true)
    (hstep : s.step serde key (.step n input) = some s') :
    s'.left < s.left ∧ s'.threads.length = s.threads.length ∧ s'.TakesExpiries := by
  obtain ⟨p, hl, -⟩ | ⟨m, input', p, a, q, hl, hp, hn, rfl⟩ | ⟨now, a, hl, -⟩ :=
    Threads.step_cases hstep
  · cases hl
  · cases hl
    refine ⟨?_, List.length_set, ?_⟩
    · have hless := InsertCall.left_of_next hn
      have hsum := @Threads.sum_set_add _ s.threads p q n InsertCall.left hp
      simp only [left]
      omega
    · intro call hcall
      rcases List.mem_or_eq_of_mem_set hcall with hcall | rfl
      · exact hexpiries call hcall
      · have hexpiry := hexpiries p (List.mem_of_getElem? hp)
        cases does_of_next h.shared hW (h.thread n p hp) hp hok hn <;> exact hexpiry
  · cases hl

/-- From every state of such a run its calls can all be brought to an end. -/
theorem completed (h0 : s₀.Initial key) (free : s₀.shared.redis.get (lockKey key) = none)
    (h : Reaches (step serde key) (fun s l => s.undisturbed serde key l = true) s₀ s)
    (hexpiries : s.TakesExpiries) (hval : serde.roundTrips val = true) :
    ∃ s', Reaches (step serde key) (fun s l => s.undisturbed serde key l = true) s s' ∧
      s'.threads.length = s.threads.length ∧
      ∀ call ∈ s'.threads, call.phase.result.isSome = true := by
  generalize hleft : s.left = left
  induction left using Nat.strongRecOn generalizing s with
  | ind left ih =>
    by_cases hdone : ∀ call ∈ s.threads, call.phase.result.isSome = true
    · exact ⟨s, .start, rfl, hdone⟩
    · simp only [not_forall] at hdone
      obtain ⟨call, hcall, hr⟩ := hdone
      obtain ⟨n, hn⟩ := List.mem_iff_getElem?.mp hcall
      obtain ⟨hinv, hW, hK⟩ := known_reached h0 free h
      have hmoves : ∃ m, s.Moves serde key m := by
        rcases goesOn hinv hW hK hexpiries hval hn (Option.not_isSome_iff_eq_none.mp hr) with
          hown | ⟨m, -, -, -, hm⟩
        · exact ⟨n, hown⟩
        · exact ⟨m, hm⟩
      obtain ⟨m, input, s₁, hok, hstep⟩ := hmoves
      obtain ⟨hless, hlength, hexpiries₁⟩ := moved hinv hW hexpiries hok hstep
      obtain ⟨s₂, hreach, hlength₂, hdone⟩ :=
        ih s₁.left (by omega) (h.next hok hstep) hexpiries₁ rfl
      have hfirst : Reaches (step serde key) (fun s l => s.undisturbed serde key l = true) s s₁ :=
        .next .start hok hstep
      exact ⟨s₂, hfirst.trans hreach, hlength₂.trans hlength, hdone⟩

/-- And then each call has the value of the one computation. -/
theorem completed_once (h0 : s₀.Initial key) (free : s₀.shared.redis.get (lockKey key) = none)
    (h : Reaches (step serde key) (fun s l => s.undisturbed serde key l = true) s₀ s)
    (hexpiries : s.TakesExpiries) (hval : serde.roundTrips val = true) (hsome : s.threads ≠ []) :
    ∃ s', Reaches (step serde key) (fun s l => s.undisturbed serde key l = true) s s' ∧
      s'.threads.length = s.threads.length ∧ s'.executions = 1 ∧
      ∃ val, s'.shared.computed = [.ok val] ∧
        ∀ call ∈ s'.threads, call.phase.result = some (.ok val) := by
  obtain ⟨s', hreach, hlength, hreturned⟩ := completed h0 free h hexpiries hval
  obtain ⟨hinv, hW⟩ := invariant_reached h0 (h.trans hreach)
  have hsome' : s'.threads ≠ [] := by
    intro hnil
    rw [hnil] at hlength
    exact hsome (List.length_eq_zero_iff.mp hlength.symm)
  exact ⟨s', hreach, hlength, (hinv.computedOnce hW).returnedOne hsome' hreturned⟩

end Inserts

end Webshelf
