import Webshelf.Lib.Versioned

/-!
# A UNIQUE index under READ COMMITTED

The index counts every version of a row, the committed one and the one a
transaction may still commit. `Distinct` says that no two rows have versions
that clash.

* `Has.commit`, `Has.rollback`: what a COMMIT or a ROLLBACK leaves was there before;
* `Distinct.keep`: a step that makes no version keeps the rows distinct;
* `Distinct.add`: so does one that makes a version nothing clashes with.
-/

namespace Versioned

variable {τ α ι : Type} {r r' : Versioned τ α} {rows rows' : ι → Versioned τ α} {t : τ} {v m : α}
  {clashes : α → α → Prop}

/-- `v` is the committed version of the row, or the one a transaction works on. -/
def Has (r : Versioned τ α) (v : α) : Prop := r.committed = some v ∨ ∃ t, r.pending = some (t, v)

/-- No two rows have versions that clash. -/
def Distinct (clashes : α → α → Prop) (rows : ι → Versioned τ α) : Prop :=
  ∀ i j, i ≠ j → ∀ v w, (rows i).Has v → (rows j).Has w → ¬ clashes v w

theorem Has.committed (h : r.committed = some v) : r.Has v := Or.inl h

theorem has_of_free (h : r.pending = none) : r.Has v ↔ r.committed = some v := by
  simp [Has, h]

theorem has_put {o : Option α} : (put o : Versioned τ α).Has v ↔ o = some v := by
  simp [Has]

theorem Has.write (h : (r.write t m).Has v) : r.Has v ∨ v = m := by
  rcases h with h | ⟨_, h⟩
  · exact Or.inl (.inl h)
  · cases h
    exact Or.inr rfl

section
variable [DecidableEq τ]

theorem Has.view (h : r.view t = some v) : r.Has v := by
  unfold Versioned.view at h
  split at h
  · rename_i o w hp
    split at h
    · cases h
      exact Or.inr ⟨o, hp⟩
    · exact Or.inl h
  · exact Or.inl h

theorem Has.commit (h : (r.commit t).Has v) : r.Has v := by
  unfold Versioned.commit at h
  split at h
  · rename_i o w hp
    split at h
    · rw [has_put] at h
      cases h
      exact Or.inr ⟨o, hp⟩
    · exact h
  · exact h

theorem Has.rollback (h : (r.rollback t).Has v) : r.Has v := by
  unfold Versioned.rollback at h
  split at h
  · split at h
    · exact Or.inl (has_put.mp h)
    · exact h
  · exact h

end

theorem Distinct.keep (h : Distinct clashes rows)
    (old : ∀ i v, (rows' i).Has v → (rows i).Has v) : Distinct clashes rows' :=
  fun i j hij v w hv hw => h i j hij v w (old i v hv) (old j w hw)

/-- A version the index has cleared may join. -/
theorem Distinct.add {i : ι} (h : Distinct clashes rows) (symm : ∀ v w, clashes v w → clashes w v)
    (old : ∀ j v, (rows' j).Has v → (rows j).Has v ∨ j = i ∧ v = m)
    (cleared : ∀ j w, j ≠ i → (rows j).Has w → ¬ clashes m w) : Distinct clashes rows' := by
  intro j j' hjj v w hv hw hc
  rcases old j v hv with hv | ⟨rfl, rfl⟩
  · rcases old j' w hw with hw | ⟨rfl, rfl⟩
    · exact h j j' hjj v w hv hw hc
    · exact cleared j v hjj hv (symm _ _ hc)
  · rcases old j' w hw with hw | ⟨rfl, rfl⟩
    · exact cleared j' w (Ne.symm hjj) hw hc
    · exact hjj rfl

end Versioned
