import Mathlib.Logic.Function.Basic

/-!
# A store whose keys expire

Every key holds a value of its own type, with or without a deadline. A key
past its deadline is not there any more; the entry that still stands in the
map is only a trace of it.
-/

universe u v

/-- The clock, and for each key its value and its deadline. -/
structure Expiring (κ : Type u) (α : κ → Type v) where
  clock : Int
  entry : (k : κ) → Option (α k × Option Int)

namespace Expiring

variable {κ : Type u} {α : κ → Type v} {s : Expiring κ α} {k k' : κ} {a : α k}
  {ttl : Option Int} {now : Int}

/-- A key without a deadline stays; one with a deadline stays until it has passed. -/
def inTime (now : Int) (deadline : Option Int) : Bool :=
  deadline.all fun d => decide (now ≤ d)

def get (s : Expiring κ α) (k : κ) : Option (α k) :=
  (s.entry k).bind fun e => if inTime s.clock e.2 then some e.1 else none

def tick (s : Expiring κ α) (now : Int) : Expiring κ α :=
  { s with clock := now }

theorem get_eq_some :
    s.get k = some a ↔ ∃ d, s.entry k = some (a, d) ∧ inTime s.clock d = true := by
  constructor
  · intro h
    obtain ⟨⟨b, d⟩, he, h⟩ := Option.bind_eq_some_iff.mp h
    split at h
    · rename_i hd
      cases h
      exact ⟨d, he, hd⟩
    · cases h
  · rintro ⟨d, he, hd⟩
    rw [get, he, Option.bind_some, if_pos hd]

/-- What is there has an entry. -/
theorem entry_of_get (h : s.get k = some a) : ∃ d, s.entry k = some (a, d) := by
  obtain ⟨d, he, -⟩ := get_eq_some.mp h
  exact ⟨d, he⟩

theorem get_congr {s' : Expiring κ α} (he : s'.entry k = s.entry k) (hc : s'.clock = s.clock) :
    s'.get k = s.get k := by
  rw [get, get, he, hc]

theorem inTime_mono {d : Option Int} (hle : s.clock ≤ now) (h : inTime now d = true) :
    inTime s.clock d = true := by
  cases d with
  | none => rfl
  | some d => exact decide_eq_true (Int.le_trans hle (of_decide_eq_true h))

/-- Time only takes keys away. -/
theorem get_of_tick (hle : s.clock ≤ now) (h : (s.tick now).get k = some a) : s.get k = some a := by
  obtain ⟨d, he, hd⟩ := get_eq_some.mp h
  exact get_eq_some.mpr ⟨d, he, inTime_mono hle hd⟩

variable [DecidableEq κ]

def write (s : Expiring κ α) (k : κ) (e : Option (α k × Option Int)) : Expiring κ α :=
  { s with entry := Function.update s.entry k e }

def put (s : Expiring κ α) (k : κ) (a : α k) (ttl : Option Int) : Expiring κ α :=
  s.write k (some (a, ttl.map (s.clock + ·)))

def del (s : Expiring κ α) (k : κ) : Expiring κ α :=
  s.write k none

/-- Another value for the key; a deadline that has not passed stays. -/
def alter (s : Expiring κ α) (k : κ) (f : Option (α k) → α k) : Expiring κ α :=
  s.write k (some (f (s.get k), if (s.get k).isSome then (s.entry k).bind (·.2) else none))

/-- Another deadline for a key that is there. -/
def expire (s : Expiring κ α) (k : κ) (ttl : Int) : Expiring κ α :=
  s.write k ((s.get k).map fun a => (a, some (s.clock + ttl)))

theorem entry_write_self {e : Option (α k × Option Int)} : (s.write k e).entry k = e :=
  Function.update_self ..

theorem entry_write_of_ne {e : Option (α k × Option Int)} (h : k' ≠ k) :
    (s.write k e).entry k' = s.entry k' :=
  Function.update_of_ne h ..

theorem entry_put_self : (s.put k a ttl).entry k = some (a, ttl.map (s.clock + ·)) :=
  entry_write_self

theorem entry_put_of_ne (h : k' ≠ k) : (s.put k a ttl).entry k' = s.entry k' :=
  entry_write_of_ne h

theorem entry_del_self : (s.del k).entry k = none :=
  entry_write_self

theorem entry_del_of_ne (h : k' ≠ k) : (s.del k).entry k' = s.entry k' :=
  entry_write_of_ne h

/-- A deletion leaves fewer keys. -/
theorem entry_of_del {e : α k' × Option Int} (h : (s.del k).entry k' = some e) :
    s.entry k' = some e := by
  by_cases hk : k' = k
  · subst hk
    rw [del, entry_write_self] at h
    cases h
  · rwa [del, entry_write_of_ne hk] at h

@[simp] theorem get_put_self_forever : (s.put k a none).get k = some a := by
  simp [get, put, entry_write_self, inTime]

theorem get_put_self {ttl : Int} (h : 0 ≤ ttl) : (s.put k a (some ttl)).get k = some a := by
  refine get_eq_some.mpr ⟨_, entry_write_self, ?_⟩
  have hle : s.clock ≤ s.clock + ttl := by omega
  exact decide_eq_true hle

@[simp] theorem get_del_self : (s.del k).get k = none := by
  rw [get, del, entry_write_self, Option.bind_none]

@[simp] theorem get_put_of_ne (h : k' ≠ k) : (s.put k a ttl).get k' = s.get k' :=
  get_congr (entry_write_of_ne h) rfl

@[simp] theorem get_del_of_ne (h : k' ≠ k) : (s.del k).get k' = s.get k' :=
  get_congr (entry_write_of_ne h) rfl

@[simp] theorem get_alter_of_ne {f : Option (α k) → α k} (h : k' ≠ k) :
    (s.alter k f).get k' = s.get k' :=
  get_congr (entry_write_of_ne h) rfl

@[simp] theorem get_expire_of_ne {ttl : Int} (h : k' ≠ k) :
    (s.expire k ttl).get k' = s.get k' :=
  get_congr (entry_write_of_ne h) rfl

@[simp] theorem get_alter_self {f : Option (α k) → α k} :
    (s.alter k f).get k = some (f (s.get k)) := by
  refine get_eq_some.mpr ⟨_, entry_write_self, ?_⟩
  cases hg : s.get k with
  | none => rfl
  | some a =>
    obtain ⟨d, he, hd⟩ := get_eq_some.mp hg
    rw [he]
    exact hd

theorem get_expire_self {ttl : Int} (h : 0 ≤ ttl) : (s.expire k ttl).get k = s.get k := by
  cases hg : s.get k with
  | none =>
    have he : (s.expire k ttl).entry k = none := by rw [expire, entry_write_self, hg]; rfl
    rw [get, he, Option.bind_none]
  | some a =>
    have he : (s.expire k ttl).entry k = some (a, some (s.clock + ttl)) := by
      rw [expire, entry_write_self, hg]
      rfl
    have hle : s.clock ≤ s.clock + ttl := by omega
    exact get_eq_some.mpr ⟨_, he, decide_eq_true hle⟩

theorem get_of_del {b : α k'} (h : (s.del k).get k' = some b) : s.get k' = some b := by
  obtain ⟨d, he, hd⟩ := get_eq_some.mp h
  exact get_eq_some.mpr ⟨d, entry_of_del he, hd⟩

end Expiring
