import Mathlib.Data.Option.Basic

/-!
# A row under READ COMMITTED

A row has the version other transactions read and, while one transaction has
locked it, the version that transaction works on. A statement outside any
transaction reads and writes the committed version at once. `Step` is
everything one transaction's statement can do to a row.

* `Step.other`: a row another transaction has locked is left alone;
* `Step.pending_other`: a row another transaction holds afterwards it held before.
-/

/-- The committed version, and the locking transaction with its working copy. -/
structure Versioned (τ α : Type) where
  committed : Option α
  pending : Option (τ × α) := none

namespace Versioned

variable {τ α : Type} {t o : τ} {r r' : Versioned τ α} {m v : α}

/-- Lock the row, with `v` as the working copy. -/
def write (t : τ) (v : α) (r : Versioned τ α) : Versioned τ α := { r with pending := some (t, v) }

/-- A statement outside any transaction commits its version at once. -/
def put (v : Option α) : Versioned τ α := { committed := v }

@[simp] theorem put_committed {v : Option α} : (put v : Versioned τ α).committed = v := rfl

@[simp] theorem put_pending {v : Option α} : (put v : Versioned τ α).pending = none := rfl

@[simp] theorem write_committed : (r.write t v).committed = r.committed := rfl

@[simp] theorem write_pending : (r.write t v).pending = some (t, v) := rfl

variable [DecidableEq τ]

/-- What a plain SELECT of transaction `t` sees. -/
def view (t : τ) (r : Versioned τ α) : Option α :=
  match r.pending with
  | some (o, v) => if o = t then some v else r.committed
  | none => r.committed

/-- Another transaction holds the lock: a statement of `t` that needs it waits. -/
def heldByOther (t : τ) (r : Versioned τ α) : Bool :=
  match r.pending with
  | some (o, _) => decide (o ≠ t)
  | none => false

def commit (t : τ) (r : Versioned τ α) : Versioned τ α :=
  match r.pending with
  | some (o, v) => if o = t then put (some v) else r
  | none => r

def rollback (t : τ) (r : Versioned τ α) : Versioned τ α :=
  match r.pending with
  | some (o, _) => if o = t then put r.committed else r
  | none => r

/-- What one statement of `t` can do to a row, when its updates are among
`upd`, its inserts among `ins`, and it may delete the row only if `del`. -/
inductive Step (t : τ) (upd : α → α → Prop) (ins : α → Prop) (del : Prop) :
    Versioned τ α → Versioned τ α → Prop
  | stay {r : Versioned τ α} : Step t upd ins del r r
  | lock {r : Versioned τ α} {m : α} (free : r.heldByOther t = false)
      (seen : r.view t = some m) :
      Step t upd ins del r (r.write t m)
  | write {r : Versioned τ α} {m v : α} (free : r.heldByOther t = false)
      (seen : r.view t = some m) (hu : upd m v) :
      Step t upd ins del r (r.write t v)
  | put {r : Versioned τ α} {m v : α} (free : r.pending = none)
      (seen : r.committed = some m) (hu : upd m v) :
      Step t upd ins del r (put (some v))
  | commit {r : Versioned τ α} : Step t upd ins del r (r.commit t)
  | rollback {r : Versioned τ α} : Step t upd ins del r (r.rollback t)
  | insert {r : Versioned τ α} {v : α} (absent : r.committed = none)
      (free : r.pending = none) (hi : ins v) :
      Step t upd ins del r (Versioned.put (some v))
  | delete {r : Versioned τ α} (free : r.pending = none) (hd : del) :
      Step t upd ins del r (Versioned.put none)

@[simp] theorem view_none {m : Option α} : (⟨m, none⟩ : Versioned τ α).view t = m := rfl

theorem view_own (h : r.pending = some (t, v)) : r.view t = some v := by
  simp [view, h]

theorem view_free (h : r.pending = none) : r.view t = r.committed := by
  simp [view, h]

theorem heldByOther_free (h : r.pending = none) : r.heldByOther t = false := by
  simp [heldByOther, h]

/-- A row not held by another is free, or held by the transaction itself. -/
theorem pending_of_free (h : r.heldByOther t = false) :
    r.pending = none ∨ ∃ v, r.pending = some (t, v) := by
  unfold heldByOther at h
  cases hp : r.pending with
  | none => exact Or.inl rfl
  | some p =>
    obtain ⟨o, v⟩ := p
    rw [hp] at h
    simp only [ne_eq, decide_not, Bool.not_eq_false', decide_eq_true_eq] at h
    exact Or.inr ⟨v, by rw [h]⟩

theorem committed_of_unseen (h : ∀ m, r.view t ≠ some m) : r.committed = none := by
  cases hp : r.pending with
  | none => exact Option.eq_none_iff_forall_ne_some.mpr (view_free hp ▸ h)
  | some p =>
    obtain ⟨o, v⟩ := p
    by_cases hot : o = t
    · exact absurd (view_own (hot ▸ hp)) (h v)
    · have hv : r.view t = r.committed := by simp [view, hp, hot]
      exact Option.eq_none_iff_forall_ne_some.mpr (hv ▸ h)

theorem commit_own (h : r.pending = some (t, v)) : r.commit t = put (some v) := by
  simp [commit, h]

theorem rollback_own (h : r.pending = some (t, v)) : r.rollback t = put r.committed := by
  simp [rollback, h]

theorem commit_free (h : r.pending = none) : r.commit t = r := by
  simp [commit, h]

theorem rollback_free (h : r.pending = none) : r.rollback t = r := by
  simp [rollback, h]

theorem commit_other (h : r.pending = some (o, v)) (hne : o ≠ t) : r.commit t = r := by
  simp [commit, h, hne]

theorem rollback_other (h : r.pending = some (o, v)) (hne : o ≠ t) : r.rollback t = r := by
  simp [rollback, h, hne]

theorem not_free_of_other (h : r.pending = some (o, v)) (hne : o ≠ t) :
    r.heldByOther t = true := by
  simp [heldByOther, h, hne]

theorem commit_of_not_own (h : ∀ v, r.pending ≠ some (t, v)) : r.commit t = r := by
  cases hp : r.pending with
  | none => exact commit_free hp
  | some p =>
    obtain ⟨o, v⟩ := p
    exact commit_other hp fun hot => h v (hot ▸ hp)

@[simp] theorem rollback_committed : (r.rollback t).committed = r.committed := by
  unfold rollback
  split
  · split <;> rfl
  · rfl

/-- After its commit or rollback a transaction holds no row. -/
theorem commit_released : (r.commit t).pending ≠ some (t, v) := by
  cases hp : r.pending with
  | none => rw [commit_free hp, hp]; nofun
  | some p =>
    obtain ⟨o, w⟩ := p
    by_cases hot : o = t
    · subst hot; rw [commit_own hp]; nofun
    · rw [commit_other hp hot, hp]
      intro h
      cases h
      exact hot rfl

theorem rollback_released : (r.rollback t).pending ≠ some (t, v) := by
  cases hp : r.pending with
  | none => rw [rollback_free hp, hp]; nofun
  | some p =>
    obtain ⟨o, w⟩ := p
    by_cases hot : o = t
    · subst hot; rw [rollback_own hp]; nofun
    · rw [rollback_other hp hot, hp]
      intro h
      cases h
      exact hot rfl

section
variable {upd : α → α → Prop} {ins : α → Prop} {del : Prop}

theorem Step.other (h : Step t upd ins del r r') (hp : r.pending = some (o, v)) (hne : o ≠ t) :
    r' = r := by
  have hheld := not_free_of_other hp hne
  cases h with
  | stay => rfl
  | lock free _ => rw [free] at hheld; cases hheld
  | write free _ _ => rw [free] at hheld; cases hheld
  | put free _ _ => rw [free] at hp; cases hp
  | commit => exact commit_other hp hne
  | rollback => exact rollback_other hp hne
  | insert _ free _ => rw [free] at hp; cases hp
  | delete free _ => rw [free] at hp; cases hp

/-- A lock is taken by the stepping transaction only. -/
theorem Step.pending_other (h : Step t upd ins del r r') (hp : r'.pending = some (o, v))
    (hne : o ≠ t) : r.pending = some (o, v) := by
  cases h with
  | stay => exact hp
  | lock _ _ | write _ _ _ =>
    rw [write_pending] at hp
    cases hp
    exact absurd rfl hne
  | put _ _ _ | insert _ _ _ | delete _ _ => cases hp
  | commit =>
    unfold Versioned.commit at hp
    split at hp
    · split at hp
      · cases hp
      · exact hp
    · exact hp
  | rollback =>
    unfold Versioned.rollback at hp
    split at hp
    · split at hp
      · cases hp
      · exact hp
    · exact hp

end

end Versioned
