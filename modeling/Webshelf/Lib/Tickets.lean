import Mathlib.Algebra.GroupWithZero.Nat
import Mathlib.Data.List.Nodup

/-!
# Drawing by weights

Each entry of a list holds as many tickets as its weight says, the first entry the
lowest ones. `pick` finds who holds a ticket by taking the weights off one after the
other; `count_pick` counts the tickets of a name.
-/

namespace Tickets

variable {β : Type}

def total (entries : List (β × Nat)) : Nat := (entries.map (·.2)).sum

/-- Who holds the ticket; none beyond the last one. -/
def pick : List (β × Nat) → Nat → Option β
  | [], _ => none
  | (b, weight) :: entries, ticket =>
    if ticket < weight then some b else pick entries (ticket - weight)

/-- The tickets of a name. -/
def mass [DecidableEq β] : List (β × Nat) → β → Nat
  | [], _ => 0
  | (a, weight) :: entries, b => (if a = b then weight else 0) + mass entries b

variable {entries : List (β × Nat)} {b : β} {ticket weight : Nat}

@[simp] theorem total_cons {e : β × Nat} : total (e :: entries) = e.2 + total entries := by
  simp [total]

/-- Every ticket is held by an entry with a weight. -/
theorem pick_of_lt (h : ticket < total entries) :
    ∃ e ∈ entries, 0 < e.2 ∧ pick entries ticket = some e.1 := by
  induction entries generalizing ticket with
  | nil => simp [total] at h
  | cons e entries ih =>
    obtain ⟨b, weight⟩ := e
    rw [total_cons] at h
    by_cases hlt : ticket < weight
    · exact ⟨(b, weight), List.mem_cons_self, by omega, by rw [pick, if_pos hlt]⟩
    · obtain ⟨e, he, hpos, hpick⟩ := @ih (ticket - weight) (by simp only at h; omega)
      exact ⟨e, List.mem_cons_of_mem _ he, hpos, by rw [pick, if_neg hlt, hpick]⟩

variable [DecidableEq β]

/-- Of all tickets, a name holds as many as its entries weigh. -/
theorem count_pick (entries : List (β × Nat)) (b : β) :
    (List.range (total entries)).countP (fun ticket => pick entries ticket = some b) =
      mass entries b := by
  induction entries with
  | nil => rfl
  | cons e entries ih =>
    obtain ⟨a, weight⟩ := e
    have hfirst : (List.range weight).countP
        (fun ticket => pick ((a, weight) :: entries) ticket = some b) =
        if a = b then weight else 0 := by
      have hcongr : (List.range weight).countP
          (fun ticket => pick ((a, weight) :: entries) ticket = some b) =
          (List.range weight).countP (fun _ => a = b) := by
        apply List.countP_congr
        intro ticket hmem
        simp [pick, List.mem_range.mp hmem]
      rw [hcongr]
      by_cases hab : a = b <;> simp [hab]
    have hrest : ((List.range (total entries)).map (weight + ·)).countP
        (fun ticket => pick ((a, weight) :: entries) ticket = some b) = mass entries b := by
      rw [List.countP_map, ← ih]
      apply List.countP_congr
      intro ticket _
      have hge : ¬ weight + ticket < weight := by omega
      simp [pick, hge]
    rw [total_cons, List.range_add, List.countP_append, hfirst, hrest, mass]

theorem mass_eq_zero (h : b ∉ entries.map (·.1)) : mass entries b = 0 := by
  induction entries with
  | nil => rfl
  | cons e entries ih =>
    simp only [List.map_cons, List.mem_cons, not_or] at h
    rw [mass, if_neg (Ne.symm h.1), ih h.2]

/-- Where no name stands twice, an entry holds just its own weight. -/
theorem mass_of_mem (hnodup : (entries.map (·.1)).Nodup) (h : (b, weight) ∈ entries) :
    mass entries b = weight := by
  induction entries with
  | nil => simp at h
  | cons e entries ih =>
    obtain ⟨hnot, hnodup⟩ := List.nodup_cons.mp hnodup
    cases List.mem_cons.mp h with
    | inl he =>
      subst he
      rw [mass, if_pos rfl, mass_eq_zero hnot, Nat.add_zero]
    | inr hmem =>
      have hne : e.1 ≠ b := by
        rintro rfl
        exact hnot (List.mem_map.mpr ⟨_, hmem, rfl⟩)
      rw [mass, if_neg hne, ih hnodup hmem, Nat.zero_add]

end Tickets
