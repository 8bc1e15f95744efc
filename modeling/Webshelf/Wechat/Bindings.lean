import Mathlib.Data.List.Induction
import Mathlib.Logic.Function.Basic

/-!
# The bindings of openids to users

`MemoryUserBindingStore` keeps two maps, from openids to users and back.
`bind_openid` writes one entry in each and takes none away, so a user who gets
another openid stays behind under the old one, and so does the former user of an
openid. As long as no call does either, the maps are inverse to each other.
-/

namespace Webshelf

structure MemoryUserBindingStore where
  openidToUser : String → Option String := fun _ => none
  userToOpenid : String → Option String := fun _ => none

namespace MemoryUserBindingStore

def findUserByOpenid (s : MemoryUserBindingStore) (openid : String) : Option String :=
  s.openidToUser openid

def bindOpenid (s : MemoryUserBindingStore) (userId openid : String) : MemoryUserBindingStore where
  openidToUser := Function.update s.openidToUser openid (some userId)
  userToOpenid := Function.update s.userToOpenid userId (some openid)

def unbindOpenid (s : MemoryUserBindingStore) (userId : String) : MemoryUserBindingStore :=
  match s.userToOpenid userId with
  | some openid =>
    { openidToUser := Function.update s.openidToUser openid none
      userToOpenid := Function.update s.userToOpenid userId none }
  | none => s

end MemoryUserBindingStore

open MemoryUserBindingStore

/-- The calls that change bindings. -/
inductive BindingCall where
  | bind (userId openid : String)
  | unbind (userId : String)
  deriving DecidableEq

namespace BindingCall

/-- Whose binding a call concerns. -/
def user : BindingCall → String
  | bind userId _ | unbind userId => userId

def on (call : BindingCall) (s : MemoryUserBindingStore) : MemoryUserBindingStore :=
  match call with
  | bind userId openid => s.bindOpenid userId openid
  | unbind userId => s.unbindOpenid userId

/-- No user gets another openid, and no openid another user. -/
def keepsPairs (s : MemoryUserBindingStore) : BindingCall → Bool
  | bind userId openid =>
    (s.userToOpenid userId).all (· == openid) && (s.openidToUser openid).all (· == userId)
  | unbind _ => true

end BindingCall

/-- The store after some calls. -/
def bindingsAfter (calls : List BindingCall) : MemoryUserBindingStore :=
  calls.foldl (fun s call => call.on s) {}

/-- The two maps are inverse to each other. -/
def MemoryUserBindingStore.Inverse (s : MemoryUserBindingStore) : Prop :=
  ∀ openid userId, s.openidToUser openid = some userId ↔ s.userToOpenid userId = some openid

/-- The last call that concerned the user bound the openid to them, and since then nobody was
bound to it. -/
def BoundLast (calls : List BindingCall) (userId openid : String) : Prop :=
  ∃ before since, calls = before ++ .bind userId openid :: since ∧
    ∀ call ∈ since, call.user ≠ userId ∧ ∀ other, call ≠ .bind other openid

variable {s : MemoryUserBindingStore} {calls : List BindingCall} {call : BindingCall}
  {userId openid other : String}

theorem keepsPairs_bind : (BindingCall.bind userId openid).keepsPairs s = true ↔
    (∀ held, s.userToOpenid userId = some held → held = openid) ∧
      ∀ holder, s.openidToUser openid = some holder → holder = userId := by
  simp [BindingCall.keepsPairs, Option.all_eq_true]

/-! ### One call -/

theorem inverse_bindOpenid (h : s.Inverse)
    (hk : (BindingCall.bind userId openid).keepsPairs s = true) :
    (s.bindOpenid userId openid).Inverse := by
  obtain ⟨hheld, hholder⟩ := keepsPairs_bind.mp hk
  intro o u
  simp only [MemoryUserBindingStore.bindOpenid, Function.update_apply]
  by_cases ho : o = openid <;> by_cases hu : u = userId
  · simp [ho, hu]
  · subst ho
    rw [if_pos rfl, if_neg hu, ← h]
    constructor
    · intro he
      exact absurd (Option.some.inj he).symm hu
    · intro he
      exact absurd (hholder u he) hu
  · subst hu
    rw [if_neg ho, if_pos rfl, h]
    constructor
    · intro he
      exact absurd (hheld o he) ho
    · intro he
      exact absurd (Option.some.inj he).symm ho
  · rw [if_neg ho, if_neg hu]
    exact h o u

theorem inverse_unbindOpenid (h : s.Inverse) : (s.unbindOpenid userId).Inverse := by
  unfold MemoryUserBindingStore.unbindOpenid
  cases hu : s.userToOpenid userId with
  | none => exact h
  | some openid =>
    intro o u
    simp only [Function.update_apply]
    by_cases ho : o = openid <;> by_cases huser : u = userId
    · simp [ho, huser]
    · have hne : s.userToOpenid u ≠ some openid := by
        intro he
        have hboth := (h openid userId).mpr hu
        rw [(h openid u).mpr he] at hboth
        exact huser (Option.some.inj hboth)
      simp [ho, huser, hne]
    · have hne : s.openidToUser o ≠ some userId := by
        intro he
        rw [h, hu] at he
        exact ho (Option.some.inj he).symm
      simp [ho, huser, hne]
    · rw [if_neg ho, if_neg huser]
      exact h o u

/-- A call leaves inverse maps inverse exactly if no user gets another openid by it and no
openid another user. -/
theorem inverse_on_iff (h : s.Inverse) : (call.on s).Inverse ↔ call.keepsPairs s = true := by
  cases call with
  | unbind userId => exact iff_of_true (inverse_unbindOpenid h) rfl
  | bind userId openid =>
    refine ⟨?_, inverse_bindOpenid h⟩
    intro hafter
    apply keepsPairs_bind.mpr
    constructor
    · intro held hheld
      by_contra hne
      -- the old openid still leads to the user
      have hstale := (hafter held userId).mp (by
        simp only [BindingCall.on, MemoryUserBindingStore.bindOpenid, Function.update_of_ne hne]
        exact (h held userId).mpr hheld)
      simp only [BindingCall.on, MemoryUserBindingStore.bindOpenid, Function.update_self,
        Option.some.injEq] at hstale
      exact hne hstale.symm
    · intro holder hholder
      by_contra hne
      -- the former user still leads to the openid
      have hstale := (hafter openid holder).mpr (by
        simp only [BindingCall.on, MemoryUserBindingStore.bindOpenid, Function.update_of_ne hne]
        exact (h openid holder).mp hholder)
      simp only [BindingCall.on, MemoryUserBindingStore.bindOpenid, Function.update_self,
        Option.some.injEq] at hstale
      exact hne hstale.symm

/-! ### The history -/

theorem bindingsAfter_append : bindingsAfter (calls ++ [call]) = call.on (bindingsAfter calls) := by
  simp [bindingsAfter]

theorem boundLast_append : BoundLast (calls ++ [call]) userId openid ↔
    call = .bind userId openid ∨
      BoundLast calls userId openid ∧ call.user ≠ userId ∧ ∀ other, call ≠ .bind other openid := by
  constructor
  · rintro ⟨before, since, hcalls, hsince⟩
    rcases List.eq_nil_or_concat since with rfl | ⟨since, last, rfl⟩
    · exact Or.inl (List.append_inj_right' hcalls rfl |> List.singleton_inj.mp)
    · right
      rw [List.concat_eq_append] at hcalls hsince
      rw [← List.cons_append, ← List.append_assoc] at hcalls
      obtain ⟨rfl, hlast⟩ := List.append_inj' hcalls rfl
      rw [List.singleton_inj.mp hlast]
      refine ⟨⟨before, since, rfl, ?_⟩, hsince last (by simp)⟩
      intro call hmem
      exact hsince call (List.mem_append_left _ hmem)
  · rintro (rfl | ⟨⟨before, since, rfl, hsince⟩, huser, hbind⟩)
    · exact ⟨calls, [], rfl, by simp⟩
    · refine ⟨before, since ++ [call], by simp, ?_⟩
      intro call' hmem
      rcases List.mem_append.mp hmem with hmem | hmem
      · exact hsince call' hmem
      · rw [List.mem_singleton.mp hmem]
        exact ⟨huser, hbind⟩

/-- What the store says of every openid is what the history says. -/
def Remembers (s : MemoryUserBindingStore) (calls : List BindingCall) : Prop :=
  ∀ openid userId, s.findUserByOpenid openid = some userId ↔ BoundLast calls userId openid

theorem remembers_on (hinv : s.Inverse) (hrem : Remembers s calls)
    (hk : call.keepsPairs s = true) : Remembers (call.on s) (calls ++ [call]) := by
  intro o u
  rw [boundLast_append, ← hrem o u]
  cases call with
  | bind userId openid =>
    obtain ⟨hheld, hholder⟩ := keepsPairs_bind.mp hk
    simp only [BindingCall.on, findUserByOpenid, MemoryUserBindingStore.bindOpenid,
      Function.update_apply, BindingCall.user, BindingCall.bind.injEq, ne_eq, not_and]
    by_cases ho : o = openid
    · subst ho
      simp
    · rw [if_neg ho]
      constructor
      · intro hfind
        refine Or.inr ⟨hfind, ?_, fun _ _ => Ne.symm ho⟩
        rintro rfl
        exact ho (hheld o ((hinv o userId).mp hfind))
      · rintro (⟨-, rfl⟩ | ⟨hfind, -, -⟩)
        · exact absurd rfl ho
        · exact hfind
  | unbind userId =>
    have hnot : s.openidToUser o = some u ∧ userId ≠ u ↔
        (s.unbindOpenid userId).openidToUser o = some u := by
      unfold MemoryUserBindingStore.unbindOpenid
      cases hu : s.userToOpenid userId with
      | none =>
        refine and_iff_left_of_imp ?_
        rintro hfind rfl
        rw [hinv, hu] at hfind
        cases hfind
      | some openid =>
        dsimp only
        by_cases ho : o = openid
        · subst ho
          rw [Function.update_self, (hinv o userId).mpr hu]
          simp
        · rw [Function.update_of_ne ho]
          refine and_iff_left_of_imp ?_
          rintro hfind rfl
          rw [hinv, hu] at hfind
          exact ho (Option.some.inj hfind).symm
    simpa [BindingCall.on, findUserByOpenid, BindingCall.user] using hnot.symm

/-- Every call of a history meets `keepsPairs` in the state it finds. -/
def PairsKept (calls : List BindingCall) : Prop :=
  ∀ before call since, calls = before ++ call :: since →
    call.keepsPairs (bindingsAfter before) = true

theorem PairsKept.front {before since : List BindingCall} (h : PairsKept (before ++ since)) :
    PairsKept before := by
  rintro a call b rfl
  exact h a call (b ++ since) (by simp)

/-- What such a history leads to. -/
theorem bindings_of_pairsKept (h : PairsKept calls) :
    (bindingsAfter calls).Inverse ∧ Remembers (bindingsAfter calls) calls := by
  induction calls using List.reverseRecOn with
  | nil =>
    refine ⟨fun o u => by simp [bindingsAfter], fun o u => ?_⟩
    simp [bindingsAfter, findUserByOpenid, BoundLast]
  | append_singleton calls call ih =>
    obtain ⟨hinv, hrem⟩ := ih h.front
    have hk := h calls call [] rfl
    rw [bindingsAfter_append]
    exact ⟨(inverse_on_iff hinv).mpr hk, remembers_on hinv hrem hk⟩

/-- **When the binding store is a bijection.** After every call of a history the two maps are
inverse to each other and find what was bound last, exactly if no call binds a user who has
another openid or an openid that another user has. -/
theorem bindings_inverse_iff (calls : List BindingCall) :
    (∀ front, front <+: calls → (bindingsAfter front).Inverse ∧
      ∀ openid userId, (bindingsAfter front).findUserByOpenid openid = some userId ↔
        BoundLast front userId openid) ↔ PairsKept calls := by
  constructor
  · rintro h before call since rfl
    have hinv := (h before (List.prefix_append _ _)).1
    have hafter := (h (before ++ [call]) ⟨since, by simp⟩).1
    rw [bindingsAfter_append] at hafter
    exact (inverse_on_iff hinv).mp hafter
  · rintro h front ⟨since, rfl⟩
    exact bindings_of_pairsKept h.front

/-- A user is bound, gets another openid and is unbound; the first openid still finds them. -/
theorem rebound_user_found :
    ¬ ((bindingsAfter [.bind "u" "o1", .bind "u" "o2", .unbind "u"]).Inverse ∧
      ∀ openid userId,
        (bindingsAfter [.bind "u" "o1", .bind "u" "o2", .unbind "u"]).findUserByOpenid openid =
          some userId ↔
        BoundLast [.bind "u" "o1", .bind "u" "o2", .unbind "u"] userId openid) := by
  rintro ⟨hinv, -⟩
  have h := (hinv "o1" "u").mp (by decide)
  exact absurd h (by decide)

end Webshelf
