import Mathlib.Logic.ExistsUnique

/-!
# Lineages

Items are made one after the other, each by a founder or from one earlier item.
As long as no item is made twice, every chain back from an item ends at the
same founder.
-/

namespace Lineage

/-- How an item came to be. -/
inductive Origin (κ ι : Type) where
  | founder (k : κ)
  | parent (i : ι)

variable {κ ι : Type} {made made' : ι → Origin κ ι → Prop} {k k' : κ} {i : ι}

/-- A finite chain of items from `i` back to one that `k` founded. -/
inductive Descends (made : ι → Origin κ ι → Prop) (k : κ) : ι → Prop
  | root {i : ι} (first : made i (.founder k)) : Descends made k i
  | child {i j : ι} (next : made j (.parent i)) (ih : Descends made k i) : Descends made k j

theorem Descends.mono (h : Descends made k i) (hm : ∀ i o, made i o → made' i o) :
    Descends made' k i := by
  induction h with
  | root first => exact .root (hm _ _ first)
  | child next _ ih => exact .child (hm _ _ next) ih

/-- The founder at the end of a chain founded an item. -/
theorem Descends.founded (h : Descends made k i) : ∃ j, made j (.founder k) := by
  induction h with
  | root first => exact ⟨_, first⟩
  | child _ _ ih => exact ih

theorem Descends.unique (once : ∀ i o o', made i o → made i o' → o = o')
    (h : Descends made k i) (h' : Descends made k' i) : k = k' := by
  induction h with
  | root first =>
    cases h' with
    | root first' =>
      cases once _ _ _ first first'
      rfl
    | child next' => cases once _ _ _ first next'
  | child next _ ih =>
    cases h' with
    | root first' => cases once _ _ _ next first'
    | child next' h' =>
      cases once _ _ _ next next'
      exact ih h'

theorem Descends.existsUnique (once : ∀ i o o', made i o → made i o' → o = o')
    (h : Descends made k i) : ∃! k, Descends made k i := by
  refine ⟨k, h, ?_⟩
  intro k' h'
  exact h'.unique once h

end Lineage
