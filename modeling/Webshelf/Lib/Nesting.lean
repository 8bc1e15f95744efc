import Mathlib.Data.List.Basic
import Mathlib.Data.List.Infix

/-!
# Nesting

How deep a list of symbols is inside brackets, where a closing bracket without an opening one
counts for nothing; and searches that look only at what is outside of all brackets.
-/

namespace Webshelf

section
variable {α : Type} [DecidableEq α] (opening closing : α)

/-- The depth after one more symbol. -/
def nest (d : Nat) (a : α) : Nat :=
  if a = opening then d + 1 else if a = closing then d - 1 else d

/-- The depth after `l`, which starts at depth `d`. -/
def depth (d : Nat) (l : List α) : Nat := l.foldl (nest opening closing) d

/-- Somewhere in `l`, which starts at depth `d`, and outside of all brackets, the rest of `l`
satisfies `p`. -/
def Outermost (p : List α → Prop) (d : Nat) (l : List α) : Prop :=
  ∃ a b, l = a ++ b ∧ depth opening closing d a = 0 ∧ p b

end

section
variable {α : Type} [DecidableEq α] {opening closing : α} {p : List α → Prop} {a b l : List α}
  {d e : Nat} {x : α}

@[simp] theorem depth_nil : depth opening closing d [] = d := rfl

@[simp] theorem depth_cons :
    depth opening closing d (x :: l) = depth opening closing (nest opening closing d x) l := rfl

theorem depth_append :
    depth opening closing d (a ++ b) =
      depth opening closing (depth opening closing d a) b :=
  List.foldl_append

@[simp] theorem nest_opening : nest opening closing d opening = d + 1 := if_pos rfl

theorem nest_closing (h : closing ≠ opening) : nest opening closing d closing = d - 1 := by
  rw [nest, if_neg h, if_pos rfl]

theorem nest_other (ho : x ≠ opening) (hc : x ≠ closing) : nest opening closing d x = d := by
  rw [nest, if_neg ho, if_neg hc]

theorem depth_replicate_opening (n : Nat) :
    depth opening closing d (List.replicate n opening) = d + n := by
  induction n generalizing d with
  | zero => rfl
  | succ n ih =>
    rw [List.replicate_succ, depth_cons, nest_opening, ih]
    omega

theorem depth_replicate_closing (h : closing ≠ opening) (n : Nat) :
    depth opening closing d (List.replicate n closing) = d - n := by
  induction n generalizing d with
  | zero => rfl
  | succ n ih =>
    rw [List.replicate_succ, depth_cons, nest_closing h, ih]
    omega

/-- Every closing bracket closes at most one. -/
theorem le_depth_add_count : d ≤ depth opening closing d l + l.count closing := by
  induction l generalizing d with
  | nil => exact Nat.le_refl d
  | cons x l ih =>
    have hl := @ih (nest opening closing d x)
    have hstep : d ≤ nest opening closing d x + if x == closing then 1 else 0 := by
      unfold nest
      simp only [beq_iff_eq]
      split <;> split <;> omega
    rw [depth_cons, List.count_cons]
    omega

/-- Where no closing bracket can lead outside, the search finds nothing but at the start. -/
theorem not_outermost_of_count (h : l.count closing < d) : ¬ Outermost opening closing p d l := by
  rintro ⟨a, b, rfl, ha, _⟩
  have hle := @le_depth_add_count _ _ opening closing a d
  rw [List.count_append] at h
  omega

theorem outermost_cons : Outermost opening closing p d (x :: l) ↔
    d = 0 ∧ p (x :: l) ∨ Outermost opening closing p (nest opening closing d x) l := by
  constructor
  · rintro ⟨a, b, hab, ha, hp⟩
    cases a with
    | nil =>
      rw [List.nil_append] at hab
      exact .inl ⟨ha, hab ▸ hp⟩
    | cons y a =>
      obtain ⟨rfl, rfl⟩ := List.cons.inj hab
      exact .inr ⟨a, b, rfl, ha, hp⟩
  · rintro (⟨rfl, hp⟩ | ⟨a, b, rfl, ha, hp⟩)
    · exact ⟨[], x :: l, rfl, rfl, hp⟩
    · exact ⟨x :: a, b, rfl, ha, hp⟩

/-- What is found in the second part of a list, and what is found before it. -/
theorem outermost_append : Outermost opening closing p d (a ++ b) ↔
    (∃ c e, a = c ++ e ∧ e ≠ [] ∧ depth opening closing d c = 0 ∧ p (e ++ b)) ∨
      Outermost opening closing p (depth opening closing d a) b := by
  induction a generalizing d with
  | nil => simp
  | cons x a ih =>
    rw [List.cons_append, outermost_cons, ih, depth_cons, ← or_assoc]
    refine or_congr_left ⟨?_, ?_⟩
    · rintro (⟨rfl, hp⟩ | ⟨c, e, rfl, he, hc, hp⟩)
      · exact ⟨[], x :: a, rfl, List.cons_ne_nil x a, rfl, hp⟩
      · exact ⟨x :: c, e, rfl, he, hc, hp⟩
    · rintro ⟨c, e, hce, he, hc, hp⟩
      cases c with
      | nil =>
        rw [List.nil_append] at hce
        subst hce
        exact .inl ⟨hc, hp⟩
      | cons y c =>
        obtain ⟨rfl, rfl⟩ := List.cons.inj hce
        exact .inr ⟨c, e, rfl, he, hc, hp⟩

end

/-- A list without the symbol that joins two others is in one of them. -/
theorem infix_append_cons {α : Type} {p a b : List α} {x : α} (hx : x ∉ p) :
    p <:+: a ++ x :: b ↔ p <:+: a ∨ p <:+: b := by
  constructor
  · rintro ⟨s, t, h⟩
    rcases List.append_eq_append_iff.mp h with ⟨u, rfl, _⟩ | ⟨u, hu, hb⟩
    · exact .inl ⟨s, u, rfl⟩
    · cases u with
      | nil => exact .inl ⟨s, [], by simpa using hu⟩
      | cons y u =>
        obtain ⟨rfl, rfl⟩ := List.cons.inj hb
        rcases List.append_eq_append_iff.mp hu with ⟨v, _, rfl⟩ | ⟨v, _, hv⟩
        · simp at hx
        · cases v with
          | nil =>
            rw [List.nil_append] at hv
            simp [← hv] at hx
          | cons z v =>
            obtain ⟨rfl, rfl⟩ := List.cons.inj hv
            exact .inr ⟨v, t, rfl⟩
  · rintro (h | h)
    · exact h.trans (List.infix_append' [] a (x :: b))
    · exact h.trans ⟨a ++ [x], [], by simp⟩

end Webshelf
