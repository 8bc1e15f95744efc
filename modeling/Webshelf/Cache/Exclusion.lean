import Webshelf.Cache.Lock

/-!
# Does one client hold a lock?

The value under the key of a lock is that of the one acquisition that is neither
released nor expired. A guard may outlive its lock, and be released twice: its
script then finds another value, or none.
-/

namespace Webshelf

open Runs

abbrev Locks := Threads.State RedisKeys LockCall

abbrev LockLabel := Threads.Label LockCall LockInput Time

/-- The lock has been acquired, and is neither released nor expired. -/
def LockCall.holds (call : LockCall) (now : Time) : Bool :=
  !call.released && call.deadline.any fun d => decide (now ≤ d)

namespace Locks

def step : Locks → LockLabel → Option Locks := Threads.step lockService

/-- A UUID is drawn once. -/
def freshValues (s : Locks) : LockLabel → Bool
  | .begin call => s.threads.all fun c => c.lockValue != call.lockValue
  | _ => true

/-- A step of a client removes a lock only if it holds the client's own value;
and of the acquisitions of a key, one is neither released nor expired. -/
def Exclusive (s : Locks) : Prop :=
  (∀ n input s' key value, s.step (.step n input) = some s' → s.shared.get key = some value →
    s'.shared.get key = none →
    ∃ call, s.threads[n]? = some call ∧ call.lockKey = key ∧ call.lockValue = value) ∧
  ∀ (n m : Nat) (p q : LockCall), s.threads[n]? = some p → s.threads[m]? = some q →
    p.lockKey = q.lockKey → p.holds s.shared.clock = true → q.holds s.shared.clock = true → n = m

end Locks

namespace LockCall

/-- A guard has the fields of its acquisition, or none. -/
def Own (call : LockCall) : Prop :=
  match call.phase with
  | .set _ => call.deadline = none
  | .held guard | .release guard | .spawned guard => guard = call.guard
  | .drop guard => guard = call.guard ∨ guard = .taken
  | _ => True

/-- What a step of a call does to the keys. -/
inductive Does (s : RedisKeys) (call : LockCall) : RedisKeys → LockCall → Prop
  | keeps {q : LockCall} (deadline : q.deadline = call.deadline)
      (released : q.released = call.released) : Does s call s q
  | stores {q : LockCall} {ttl : Int} (vacant : s.get call.lockKey = none) (positive : 0 ≤ ttl)
      (deadline : q.deadline = none ∨ q.deadline = some (s.clock + ttl)) :
      Does s call (s.put call.lockKey call.lockValue (some ttl)) q
  | releases {q : LockCall} (released : q.released = true) :
      Does s call (s.safeRelease call.lockKey call.lockValue) q

variable {s a : RedisKeys} {call q : LockCall} {input : LockInput} {outcome : RedisOutcome}

theorem does_release (hkey : q.released = (call.released || outcome.runs))
    (hdeadline : q.deadline = call.deadline) :
    Does s call (if outcome.runs then s.safeRelease call.lockKey call.lockValue else s) q := by
  cases hruns : outcome.runs with
  | true =>
    rw [hruns, Bool.or_true] at hkey
    exact .releases hkey
  | false =>
    rw [hruns, Bool.or_false] at hkey
    exact .keeps hdeadline hkey

theorem does_of_set {attempt : Nat} (hp : call.phase = .set attempt) (hown : call.Own)
    (h : call.next s (.redis outcome) = some (a, q)) :
    Does s call a q ∧ q.Own ∧ q.lockKey = call.lockKey ∧ q.lockValue = call.lockValue := by
  have hnone : call.deadline = none := by rwa [Own, hp] at hown
  simp only [next, hp, RedisKeys.setNxEx] at h
  split at h
  · by_cases hrun : (!outcome.runs || call.expirySeconds == 0) = true
    · simp only [hrun, if_true] at h
      cases h
      exact ⟨.keeps rfl rfl, trivial, rfl, rfl⟩
    · simp only [hrun] at h
      cases hget : s.get call.lockKey with
      | some value =>
        simp only [hget, Option.isSome_some, if_true] at h
        cases outcome <;> cases h
        · exact ⟨.keeps rfl rfl, hnone, rfl, rfl⟩
        all_goals exact ⟨.keeps rfl rfl, trivial, rfl, rfl⟩
      | none =>
        have hpos : (0 : Int) ≤ seconds call.expirySeconds := by
          simp only [seconds]
          omega
        simp only [hget, Option.isSome_none] at h
        cases outcome <;> cases h
        · refine ⟨.stores hget hpos (.inr rfl), ?_, rfl, rfl⟩
          cases call.guarded
          · trivial
          · rfl
        · cases hrun rfl
        · cases hrun rfl
        · exact ⟨.stores hget hpos (.inl hnone), trivial, rfl, rfl⟩
  · cases h
    exact ⟨.keeps rfl rfl, trivial, rfl, rfl⟩

/-- What the fields of a guard release. -/
theorem guard_fields {fields : LockGuard} (h : fields = call.guard) :
    s.safeRelease fields.lockKey fields.lockValue =
      s.safeRelease call.lockKey call.lockValue := by
  rw [h, guard]

theorem does_of_next (hown : call.Own) (h : call.next s input = some (a, q)) :
    Does s call a q ∧ q.Own ∧ q.lockKey = call.lockKey ∧ q.lockValue = call.lockValue := by
  cases hp : call.phase with
  | set attempt =>
    cases input with
    | redis outcome => exact does_of_set hp hown h
    | release | drop | runtime => simp [next, hp] at h
  | locked =>
    cases input with
    | release =>
      simp only [next, hp] at h
      cases h
      exact ⟨.keeps rfl rfl, trivial, rfl, rfl⟩
    | redis | drop | runtime => simp [next, hp] at h
  | unlock =>
    cases input with
    | redis outcome =>
      simp only [next, hp] at h
      cases h
      exact ⟨does_release rfl rfl, trivial, rfl, rfl⟩
    | release | drop | runtime => simp [next, hp] at h
  | held guard =>
    have hg : guard = call.guard := by rwa [Own, hp] at hown
    cases input with
    | release =>
      simp only [next, hp] at h
      cases h
      exact ⟨.keeps rfl rfl, hg, rfl, rfl⟩
    | drop =>
      simp only [next, hp] at h
      cases h
      exact ⟨.keeps rfl rfl, .inl hg, rfl, rfl⟩
    | redis | runtime => simp [next, hp] at h
  | release fields =>
    have hg : fields = call.guard := by rwa [Own, hp] at hown
    cases input with
    | redis outcome =>
      simp only [next, hp, guard_fields hg] at h
      cases h
      refine ⟨does_release rfl rfl, ?_, rfl, rfl⟩
      cases outcome
      · exact .inr rfl
      all_goals exact .inl hg
    | release | drop | runtime => simp [next, hp] at h
  | drop guard =>
    have hg : guard = call.guard ∨ guard = .taken := by rwa [Own, hp] at hown
    cases input with
    | runtime present =>
      simp only [next, hp] at h
      cases h
      refine ⟨.keeps rfl rfl, ?_, rfl, rfl⟩
      rcases hg with rfl | rfl
      · cases call.guard.client && !call.guard.lockKey.isEmpty && present
        · trivial
        · rfl
      · trivial
    | redis | release | drop => simp [next, hp] at h
  | spawned fields =>
    have hg : fields = call.guard := by rwa [Own, hp] at hown
    cases input with
    | redis outcome =>
      simp only [next, hp, guard_fields hg] at h
      cases h
      exact ⟨does_release rfl rfl, trivial, rfl, rfl⟩
    | release | drop | runtime => simp [next, hp] at h
  | contended | failed | gone => cases input <;> simp [next, hp] at h

end LockCall

namespace Locks

variable {s s' s₀ : Locks} {l : LockLabel}

/-- As long as an acquisition is neither released nor expired, its value is
under the key with its deadline. -/
def Stands (s : RedisKeys) (_ : Nat) (call : LockCall) : Prop :=
  call.Own ∧ ∀ d, call.deadline = some d → call.released = false → s.clock ≤ d →
    s.entry call.lockKey = some (call.lockValue, some d)

/-- No two calls have drawn one UUID. -/
def Distinct (s : Locks) : Prop :=
  ∀ (n m : Nat) (p q : LockCall), s.threads[n]? = some p → s.threads[m]? = some q →
    p.lockValue = q.lockValue → n = m

theorem Stands.get {s : RedisKeys} {n : Nat} {call : LockCall} (h : Stands s n call)
    (hh : call.holds s.clock = true) : s.get call.lockKey = some call.lockValue := by
  obtain ⟨hreleased, hdeadline⟩ := Bool.and_eq_true_iff.mp hh
  obtain ⟨d, hd, hle⟩ := (Option.any_eq_true _ _).mp hdeadline
  have hentry := h.2 d hd (Bool.not_eq_true' _ ▸ hreleased) (of_decide_eq_true hle)
  exact Expiring.get_eq_some.mpr ⟨_, hentry, hle⟩

theorem Distinct.step (h : s.Distinct) (hA : Threads.Holds (fun _ => True) Stands s)
    (hok : s.freshValues l = true) (hstep : s.step l = some s') : s'.Distinct := by
  intro i j r r' hi hj hvalue
  obtain ⟨p, rfl, -, rfl⟩ | ⟨n, input, p, a, q, rfl, hp, hn, rfl⟩ | ⟨now, a, rfl, -, rfl⟩ :=
    Threads.step_cases hstep
  · have hfresh : ∀ (k : Nat) (c : LockCall), s.threads[k]? = some c → c.lockValue ≠ p.lockValue :=
      fun k c hk => bne_iff_ne.mp (List.all_eq_true.mp hok c (List.mem_of_getElem? hk))
    rcases Threads.get_begin hi with hr | ⟨rfl, rfl⟩ <;>
      rcases Threads.get_begin hj with hr' | ⟨rfl, rfl⟩
    · exact h i j r r' hr hr' hvalue
    · exact absurd hvalue (hfresh i r hr)
    · exact absurd hvalue.symm (hfresh j r' hr')
    · rfl
  · obtain ⟨-, -, -, hsame⟩ := LockCall.does_of_next (hA.thread n p hp).1 hn
    rcases Threads.get_set hp hi with ⟨rfl, rfl⟩ | ⟨-, hr⟩ <;>
      rcases Threads.get_set hp hj with ⟨rfl, rfl⟩ | ⟨-, hr'⟩
    · rfl
    · exact h i j p r' hp hr' (hsame.symm.trans hvalue)
    · exact h i j r p hr hp (hvalue.trans hsame)
    · exact h i j r r' hr hr' hvalue
  · exact h i j r r' hi hj hvalue

theorem entry_safeRelease {s : RedisKeys} {key value key' : String}
    (h : key' ≠ key ∨ s.get key ≠ some value) :
    (s.safeRelease key value).entry key' = s.entry key' := by
  rw [RedisKeys.safeRelease]
  split
  · rename_i hget
    exact Expiring.entry_del_of_ne (h.resolve_right (not_not_intro hget))
  · rfl

theorem clock_safeRelease {s : RedisKeys} {key value : String} :
    (s.safeRelease key value).clock = s.clock := by
  rw [RedisKeys.safeRelease]
  split <;> rfl

theorem Stands.step (hD : s.Distinct) (h : Threads.Holds (fun _ => True) Stands s)
    (hstep : s.step l = some s') : Threads.Holds (fun _ => True) Stands s' := by
  refine h.step hstep ?_ ?_ ?_
  · intro p _ hp
    obtain ⟨hp, -⟩ := Bool.and_eq_true_iff.mp hp
    obtain ⟨hphase, hdeadline⟩ := Bool.and_eq_true_iff.mp hp
    have hnone : p.deadline = none := of_decide_eq_true hdeadline
    constructor
    · rw [LockCall.Own, of_decide_eq_true hphase]
      exact hnone
    · intro d hd
      rw [hnone] at hd
      cases hd
  · intro n input p a q _ hp hA hn
    obtain ⟨hdoes, hown, hkey, hvalue⟩ := LockCall.does_of_next hA.1 hn
    refine ⟨trivial, ⟨hown, ?_⟩, fun k r hne hk hB => ⟨hB.1, ?_⟩⟩
    · rw [hkey, hvalue]
      cases hdoes with
      | keeps deadline released =>
        rw [deadline, released]
        exact hA.2
      | stores vacant positive deadline =>
        intro d hd _ _
        rcases deadline with hnone | hsome
        · rw [hnone] at hd
          cases hd
        · cases hsome.symm.trans hd
          exact Expiring.entry_put_self
      | releases released =>
        intro d _ hreleased
        rw [released] at hreleased
        cases hreleased
    · intro d hd hreleased hle
      cases hdoes with
      | keeps => exact hB.2 d hd hreleased hle
      | stores vacant =>
        have hentry := hB.2 d hd hreleased hle
        have hother : r.lockKey ≠ p.lockKey := by
          intro hsame
          have hget := Expiring.get_eq_some.mpr ⟨_, hentry, decide_eq_true hle⟩
          rw [hsame, vacant] at hget
          cases hget
        exact (Expiring.entry_put_of_ne hother).trans hentry
      | releases =>
        rw [clock_safeRelease] at hle
        have hentry := hB.2 d hd hreleased hle
        refine (entry_safeRelease ?_).trans hentry
        by_cases hsame : r.lockKey = p.lockKey
        · refine .inr fun hget => hne ?_
          have hr := Expiring.get_eq_some.mpr ⟨_, hentry, decide_eq_true hle⟩
          rw [hsame, hget] at hr
          exact hD k n r p hk hp (Option.some.inj hr).symm
        · exact .inl hsame
  · intro now a _ he
    simp only [lockService] at he
    split at he
    · rename_i hclock
      cases he
      exact ⟨trivial, fun k r _ hB =>
        ⟨hB.1, fun d hd hreleased hle => hB.2 d hd hreleased (Int.le_trans hclock hle)⟩⟩
    · cases he

/-- A step of a client removes only a key that holds its own value. -/
theorem removes_own (hA : Threads.Holds (fun _ => True) Stands s) {n : Nat} {input : LockInput}
    (hstep : s.step (.step n input) = some s') {key value : String}
    (hget : s.shared.get key = some value) (hnone : s'.shared.get key = none) :
    ∃ call, s.threads[n]? = some call ∧ call.lockKey = key ∧ call.lockValue = value := by
  obtain ⟨p, hl, -⟩ | ⟨n', input', p, a, q, hl, hp, hn, rfl⟩ | ⟨now, a, hl, -⟩ :=
    Threads.step_cases hstep
  · cases hl
  · cases hl
    refine ⟨p, hp, ?_⟩
    cases (LockCall.does_of_next (hA.thread n p hp).1 hn).1 with
    | keeps =>
      rw [hget] at hnone
      cases hnone
    | @stores q ttl vacant positive =>
      by_cases hkey : key = p.lockKey
      · rw [hkey, vacant] at hget
        cases hget
      · have hsame : (s.shared.put p.lockKey p.lockValue (some ttl)).get key =
            s.shared.get key := Expiring.get_put_of_ne hkey
        rw [hsame, hget] at hnone
        cases hnone
    | releases =>
      by_cases hother : key ≠ p.lockKey ∨ s.shared.get p.lockKey ≠ some p.lockValue
      · have hsame := Expiring.get_congr (entry_safeRelease hother) clock_safeRelease
        rw [hsame, hget] at hnone
        cases hnone
      · obtain ⟨hkey, hvalue⟩ := not_or.mp hother
        have hkey := not_not.mp hkey
        rw [← hkey, hget] at hvalue
        exact ⟨hkey.symm, (Option.some.inj (not_not.mp hvalue)).symm⟩
  · cases hl

theorem lock_exclusive (h0 : s₀.threads = [])
    (h : Reaches step (fun s l => s.freshValues l = true) s₀ s) : s.Exclusive := by
  have hinit : s₀.Distinct ∧ Threads.Holds (fun _ => True) Stands s₀ := by
    refine ⟨fun n m p q hn => ?_, trivial, fun n p hn => ?_⟩
    all_goals
      rw [h0] at hn
      cases hn
  obtain ⟨hD, hA⟩ := h.invariant
    (I := fun s : Locks => s.Distinct ∧ Threads.Holds (fun _ => True) Stands s) hinit
    fun _ _ _ hs hok hstep => ⟨hs.1.step hs.2 hok hstep, Stands.step hs.1 hs.2 hstep⟩
  refine ⟨fun n input s' key value hstep hget hnone => removes_own hA hstep hget hnone, ?_⟩
  intro n m p q hn hm hkey hp hq
  have hget := (hA.thread n p hn).get hp
  have hget' := (hA.thread m q hm).get hq
  rw [hkey, hget'] at hget
  exact hD n m p q hn hm (Option.some.inj hget).symm

def noLocks : Locks := ⟨⟨0, fun _ => none⟩, []⟩

/-- A guard outlives its lock, which another client acquires; its release fails,
and the retry by `drop` finds the other value. -/
def outlived : List LockLabel :=
  [.begin ⟨"job", "a", 5, 1, true, .set 0, none, false⟩, .step 0 (.redis .done),
    .surround (seconds 6),
    .begin ⟨"job", "b", 5, 1, true, .set 0, none, false⟩, .step 1 (.redis .done),
    .step 0 .release, .step 0 (.redis .failed), .step 0 (.runtime true), .step 0 (.redis .done)]

theorem lock_exclusive_outlived :
    ∃ s, Reaches step (fun s l => s.freshValues l = true) noLocks s ∧
      (s.threads[1]?.map fun call => call.holds s.shared.clock) = some true ∧ s.Exclusive := by
  have hrun : Reaches step (fun s l => s.freshValues l = true) noLocks
      ((run step (fun s l => s.freshValues l = true) noLocks outlived).get (by decide +kernel)) :=
    reaches_run_get _
  exact ⟨_, hrun, by decide +kernel, lock_exclusive rfl hrun⟩

end Locks

end Webshelf
