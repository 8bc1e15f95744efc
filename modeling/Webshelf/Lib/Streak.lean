import Mathlib.Data.List.Chain
import Mathlib.Data.List.Infix

/-!
# Streaks

A list of events has the latest in front, and a relation says that one event follows another in
time. A streak is a stretch of events that follow one another.
-/

universe u

namespace Streak

variable {α : Type u} {r : α → α → Prop} {n : Nat} {a : α} {l : List α}

/-- Somewhere `n` events follow one another. -/
def Occurs (r : α → α → Prop) (n : Nat) (l : List α) : Prop :=
  ∃ w, w <:+: l ∧ w.length = n ∧ w.IsChain r

/-- How long the latest streak is. -/
def latest (r : α → α → Prop) [DecidableRel r] : List α → Nat
  | [] => 0
  | [_] => 1
  | a :: b :: l => if r a b then latest r (b :: l) + 1 else 1

theorem Occurs.le_length (h : Occurs r n l) : n ≤ l.length := by
  obtain ⟨w, hw, hlength, _⟩ := h
  rw [← hlength]
  exact hw.length_le

theorem Occurs.cons (h : Occurs r n l) : Occurs r n (a :: l) := by
  obtain ⟨w, hw, hchain⟩ := h
  exact ⟨w, List.infix_cons hw, hchain⟩

theorem not_occurs_nil (h : 1 ≤ n) : ¬ Occurs r n [] :=
  fun hoccurs => absurd hoccurs.le_length (Nat.not_le_of_lt h)

/-- A streak in front begins with the latest event. -/
theorem exists_prefix_cons : (∃ w, w <+: a :: l ∧ w.length = n + 1 ∧ w.IsChain r) ↔
    ∃ w, w <+: l ∧ w.length = n ∧ (a :: w).IsChain r := by
  constructor
  · rintro ⟨w, hw, hlength, hchain⟩
    match w with
    | b :: w =>
      obtain ⟨rfl, htail⟩ := List.cons_prefix_cons.mp hw
      exact ⟨w, htail, Nat.succ.inj hlength, hchain⟩
  · rintro ⟨w, hw, hlength, hchain⟩
    exact ⟨a :: w, List.cons_prefix_cons.mpr ⟨rfl, hw⟩, by simp [hlength], hchain⟩

/-- An event that does not follow the one before it is a streak of its own. -/
theorem isChain_cons_front {b : α} {w : List α} (hw : w <+: b :: l) :
    (a :: w).IsChain r ↔ (w ≠ [] → r a b) ∧ w.IsChain r := by
  match w with
  | [] => exact iff_of_true (.singleton a) ⟨fun h => absurd rfl h, .nil⟩
  | c :: w =>
    obtain ⟨rfl, _⟩ := List.cons_prefix_cons.mp hw
    simp [List.isChain_cons_cons]

variable [DecidableRel r]

/-- The latest streak is the longest one in front. -/
theorem le_latest_iff : n ≤ latest r l ↔ ∃ w, w <+: l ∧ w.length = n ∧ w.IsChain r := by
  induction l generalizing n with
  | nil =>
    rw [latest, Nat.le_zero]
    constructor
    · rintro rfl
      exact ⟨[], List.prefix_rfl, rfl, .nil⟩
    · rintro ⟨w, hw, hlength, _⟩
      rw [← hlength, List.prefix_nil.mp hw, List.length_nil]
  | cons a l ih =>
    cases n with
    | zero => exact iff_of_true (Nat.zero_le _) ⟨[], List.nil_prefix, rfl, .nil⟩
    | succ n =>
      rw [exists_prefix_cons]
      match l with
      | [] =>
        rw [latest, Nat.succ_le_succ_iff, Nat.le_zero]
        constructor
        · rintro rfl
          exact ⟨[], List.prefix_rfl, rfl, .singleton a⟩
        · rintro ⟨w, hw, hlength, _⟩
          rw [← hlength, List.prefix_nil.mp hw, List.length_nil]
      | b :: l =>
        rw [latest]
        split
        · rename_i hab
          rw [Nat.succ_le_succ_iff, ih]
          constructor
          · rintro ⟨w, hw, hlength, hchain⟩
            exact ⟨w, hw, hlength, (isChain_cons_front hw).mpr ⟨fun _ => hab, hchain⟩⟩
          · rintro ⟨w, hw, hlength, hchain⟩
            exact ⟨w, hw, hlength, hchain.tail⟩
        · rename_i hab
          rw [Nat.succ_le_succ_iff, Nat.le_zero]
          constructor
          · rintro rfl
            exact ⟨[], List.nil_prefix, rfl, .singleton a⟩
          · rintro ⟨w, hw, hlength, hchain⟩
            rw [← hlength, List.length_eq_zero_iff]
            by_contra hne
            exact hab (((isChain_cons_front hw).mp hchain).1 hne)

theorem occurs_cons : Occurs r n (a :: l) ↔ n ≤ latest r (a :: l) ∨ Occurs r n l := by
  constructor
  · rintro ⟨w, hw, hchain⟩
    rcases List.infix_cons_iff.mp hw with hprefix | hoccurs
    · exact .inl (le_latest_iff.mpr ⟨w, hprefix, hchain⟩)
    · exact .inr ⟨w, hoccurs, hchain⟩
  · rintro (hle | hoccurs)
    · obtain ⟨w, hw, hchain⟩ := le_latest_iff.mp hle
      exact ⟨w, hw.isInfix, hchain⟩
    · exact hoccurs.cons

end Streak
