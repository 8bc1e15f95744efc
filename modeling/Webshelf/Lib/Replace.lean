import Mathlib.Data.List.Infix

/-!
# Replacing patterns in a text

One pass over a text with a list of rules, each a pattern and what stands in its
place. An occurrence is taken where the first rule that fits begins, and the pass
goes on behind it. `replace` is the pass with a single rule.

* `substitute_flatMap`: a pass undoes a code that writes for each letter a pattern
  or the letter itself;
* `replace_singleton`: a pattern of one letter is replaced letter by letter;
* `replace_induction`: the induction along a pass, over letters that stay and
  occurrences that are taken;
* `not_infix_of_countP`, `run_replace`: what a pass does to the number of some
  letters, and to a long run of one letter.

The patterns are not empty.
-/

namespace Replacing

variable {α : Type} [DecidableEq α]

/-- A pattern and what replaces it. -/
abbrev Rule (α : Type) := List α × List α

def Rule.fits (text : List α) (rule : Rule α) : Bool := rule.1.isPrefixOf text

/-- The pass. The next `skip` letters belong to an occurrence that is already replaced. -/
def substituteFrom (rules : List (Rule α)) : Nat → List α → List α
  | _, [] => []
  | skip + 1, _ :: text => substituteFrom rules skip text
  | 0, c :: text =>
    match rules.find? (Rule.fits (c :: text)) with
    | some rule => rule.2 ++ substituteFrom rules (rule.1.length - 1) text
    | none => c :: substituteFrom rules 0 text

def substitute (rules : List (Rule α)) (text : List α) : List α := substituteFrom rules 0 text

def replace (pat new text : List α) : List α := substitute [(pat, new)] text

variable {rules : List (Rule α)} {rule : Rule α} {pat new text u : List α} {c : α}

theorem substituteFrom_drop (skip : Nat) :
    substituteFrom rules skip text = substitute rules (text.drop skip) := by
  induction text generalizing skip with
  | nil => cases skip <;> rfl
  | cons c text ih =>
    cases skip with
    | zero => rfl
    | succ skip => exact ih skip

@[simp] theorem substitute_nil : substitute rules [] = [] := rfl

/-- Where no rule fits, the letter stays. -/
theorem substitute_cons (h : rules.find? (Rule.fits (c :: text)) = none) :
    substitute rules (c :: text) = c :: substitute rules text := by
  simp only [substitute, substituteFrom, h]

/-- Where a rule fits, its pattern is replaced and the pass goes on behind it. -/
theorem substitute_append (rule : Rule α) (hpat : rule.1 ≠ [])
    (h : rules.find? (Rule.fits (rule.1 ++ text)) = some rule) :
    substitute rules (rule.1 ++ text) = rule.2 ++ substitute rules text := by
  obtain ⟨c, pat, hc⟩ := List.exists_cons_of_ne_nil hpat
  rw [hc, List.cons_append] at h ⊢
  simp only [substitute, substituteFrom, h]
  rw [substituteFrom_drop, hc]
  simp only [List.length_cons, Nat.add_sub_cancel, List.drop_left, substitute]

/-- An induction along the pass: over a letter that stays, or an occurrence that is taken. -/
theorem pass_induction {motive : List α → Prop} (hpat : ∀ rule ∈ rules, rule.1 ≠ [])
    (nil : motive [])
    (skip : ∀ c text, rules.find? (Rule.fits (c :: text)) = none → motive text →
      motive (c :: text))
    (here : ∀ rule text, rule ∈ rules → rules.find? (Rule.fits (rule.1 ++ text)) = some rule →
      motive text → motive (rule.1 ++ text)) (text : List α) : motive text := by
  induction hn : text.length using Nat.strong_induction_on generalizing text with
  | _ n ih =>
    cases text with
    | nil => exact nil
    | cons c text =>
      cases hfind : rules.find? (Rule.fits (c :: text)) with
      | none => exact skip c text hfind (ih text.length (hn ▸ Nat.lt_succ_self _) text rfl)
      | some rule =>
        have hrule := List.mem_of_find?_eq_some hfind
        have hfits : Rule.fits (c :: text) rule = true := List.find?_some hfind
        obtain ⟨rest, hrest⟩ := List.isPrefixOf_iff_prefix.mp hfits
        rw [← hrest] at hfind hn ⊢
        have hlt : rest.length < n := by
          have hpos := List.length_pos_of_ne_nil (hpat rule hrule)
          rw [← hn, List.length_append]
          omega
        exact here rule rest hrule hfind (ih rest.length hlt rest rfl)

/-- A pass undoes a code that writes each letter as it is, or as a pattern that stands for it. -/
theorem substitute_flatMap {code : α → List α}
    (h : ∀ c text, (code c = [c] ∧ rules.find? (Rule.fits (c :: text)) = none) ∨
      (code c ≠ [] ∧ rules.find? (Rule.fits (code c ++ text)) = some (code c, [c]))) :
    substitute rules (text.flatMap code) = text := by
  induction text with
  | nil => rfl
  | cons c text ih =>
    rw [List.flatMap_cons]
    rcases h c (text.flatMap code) with ⟨hcode, hnone⟩ | ⟨hne, hsome⟩
    · rw [hcode, List.singleton_append, substitute_cons hnone, ih]
    · have hpass := substitute_append (code c, [c]) hne hsome
      rw [hpass, ih, List.singleton_append]

/-! ### One pattern -/

theorem find?_single :
    [(pat, new)].find? (Rule.fits text) = if pat <+: text then some (pat, new) else none := by
  simp only [List.find?_cons, List.find?_nil, Rule.fits, ← List.isPrefixOf_iff_prefix]
  cases pat.isPrefixOf text <;> rfl

@[simp] theorem replace_nil : replace pat new [] = [] := rfl

theorem replace_append (hpat : pat ≠ []) :
    replace pat new (pat ++ text) = new ++ replace pat new text := by
  apply substitute_append (pat, new) hpat
  rw [find?_single, if_pos (List.prefix_append pat text)]

theorem replace_cons (h : ¬ pat <+: c :: text) :
    replace pat new (c :: text) = c :: replace pat new text := by
  apply substitute_cons
  rw [find?_single, if_neg h]

theorem replace_singleton :
    replace [c] new text = text.flatMap fun a => if a = c then new else [a] := by
  induction text with
  | nil => rfl
  | cons a text ih =>
    rw [List.flatMap_cons, ← ih]
    by_cases hac : a = c
    · subst hac
      rw [if_pos rfl]
      exact replace_append (List.cons_ne_nil a [])
    · rw [if_neg hac, List.singleton_append]
      apply replace_cons
      simpa using Ne.symm hac

theorem replace_induction {motive : List α → Prop} (hpat : pat ≠ []) (nil : motive [])
    (skip : ∀ c text, ¬ pat <+: c :: text → motive text → motive (c :: text))
    (here : ∀ text, motive text → motive (pat ++ text)) (text : List α) : motive text := by
  refine @pass_induction α _ [(pat, pat)] motive (by simpa using hpat) nil ?_ ?_ text
  · intro c text hnone ih
    rw [find?_single] at hnone
    exact skip c text (by simpa using hnone) ih
  · intro rule text hrule _ ih
    cases List.mem_singleton.mp hrule
    exact here text ih

theorem replace_of_absent (h : ¬ pat <:+: text) : replace pat new text = text := by
  induction text with
  | nil => rfl
  | cons c text ih =>
    rw [replace_cons (mt List.IsPrefix.isInfix h), ih]
    intro hoccurs
    exact h (hoccurs.trans (List.suffix_cons c text).isInfix)

/-- Where the pattern occurs, something is replaced. -/
theorem infix_replace (hpat : pat ≠ []) (h : pat <:+: text) : new <:+: replace pat new text := by
  induction text using replace_induction hpat with
  | nil => exact absurd (List.infix_nil.mp h) hpat
  | skip c text hno ih =>
    rw [replace_cons hno]
    have hrest := (List.infix_cons_iff.mp h).resolve_left hno
    exact (ih hrest).trans (List.suffix_cons c _).isInfix
  | here text ih =>
    rw [replace_append hpat]
    exact (List.prefix_append new _).isInfix

/-- A pass goes over what no occurrence begins in. -/
theorem replace_skip (h : ∀ rest ∈ u.tails, rest ≠ [] → ¬ pat <+: rest ++ text) :
    replace pat new (u ++ text) = u ++ replace pat new text := by
  induction u with
  | nil => rfl
  | cons c u ih =>
    rw [List.tails_cons] at h
    have hhere := h _ List.mem_cons_self (List.cons_ne_nil c u)
    rw [List.cons_append] at hhere ⊢
    rw [replace_cons hhere, ih, List.cons_append]
    intro rest hrest
    exact h rest (List.mem_cons_of_mem _ hrest)

omit [DecidableEq α] in
/-- No occurrence begins in what does not hold its first letter. -/
theorem not_prefix_of_notMem (hc : c ∉ u) : ∀ rest ∈ u.tails, rest ≠ [] →
    ∀ text, ¬ c :: pat <+: rest ++ text := by
  intro rest hrest hne text hfit
  obtain ⟨a, rest, rfl⟩ := List.exists_cons_of_ne_nil hne
  rw [List.cons_append, List.cons_prefix_cons] at hfit
  have hsuffix := (List.mem_tails _ _).mp hrest
  exact hc (hsuffix.mem (hfit.1 ▸ List.mem_cons_self))

/-! ### Counting letters -/

section
variable {p : α → Bool}

theorem countP_replace_le (hpat : pat ≠ []) (h : new.countP p ≤ pat.countP p) :
    (replace pat new text).countP p ≤ text.countP p := by
  induction text using replace_induction hpat with
  | nil => exact Nat.le_refl _
  | skip c text hno ih =>
    rw [replace_cons hno, List.countP_cons, List.countP_cons]
    omega
  | here text ih =>
    rw [replace_append hpat, List.countP_append, List.countP_append]
    omega

/-- A pass that takes some letters away is seen to find nothing by counting them. -/
theorem not_infix_of_countP (hpat : pat ≠ []) (h : new.countP p < pat.countP p)
    (hkept : text.countP p ≤ (replace pat new text).countP p) : ¬ pat <:+: text := by
  induction text using replace_induction hpat with
  | nil => exact mt List.infix_nil.mp hpat
  | skip c text hno ih =>
    rw [replace_cons hno, List.countP_cons, List.countP_cons] at hkept
    have hrest := ih (by omega)
    intro hoccurs
    exact hrest ((List.infix_cons_iff.mp hoccurs).resolve_left hno)
  | here text ih =>
    have hle : (replace pat new text).countP p ≤ text.countP p :=
      countP_replace_le hpat (Nat.le_of_lt h)
    rw [replace_append hpat, List.countP_append, List.countP_append] at hkept
    omega

end

/-! ### A long run of one letter -/

omit [DecidableEq α] in
/-- An occurrence that begins before a long run of a letter that does not end it ends before it. -/
theorem length_le_of_run {n : Nat} {front back : List α} (hlast : pat.getLast? ≠ some c)
    (hlen : pat.length ≤ n) (h : pat <+: front ++ (List.replicate n c ++ back)) :
    pat.length ≤ front.length := by
  by_contra hlt
  obtain ⟨w, rfl⟩ : front <+: pat :=
    List.prefix_of_prefix_length_le (List.prefix_append ..) h (by omega)
  rw [List.prefix_append_right_inj] at h
  rw [List.length_append] at hlen hlt
  have hrun : w <+: List.replicate n c :=
    List.prefix_of_prefix_length_le h (List.prefix_append ..) (by rw [List.length_replicate]; omega)
  have hne : w ≠ [] := by
    rintro rfl
    exact hlt (Nat.le_refl _)
  apply hlast
  rw [List.getLast?_append_of_ne_nil _ hne, List.getLast?_eq_some_getLast hne]
  congr 1
  exact List.eq_of_mem_replicate (hrun.mem (List.getLast_mem hne))

/-- A pass keeps a run of a letter that neither begins nor ends the pattern. -/
theorem run_replace {n : Nat} (hpat : pat ≠ []) (hhead : pat.head? ≠ some c)
    (hlast : pat.getLast? ≠ some c) (hlen : pat.length ≤ n)
    (h : List.replicate n c <:+: text) : List.replicate n c <:+: replace pat new text := by
  induction text using replace_induction hpat with
  | nil => exact h
  | skip a text hno ih =>
    rcases List.infix_cons_iff.mp h with ⟨back, hback⟩ | hrest
    · obtain ⟨b, pat, rfl⟩ := List.exists_cons_of_ne_nil hpat
      have hb : b ∉ List.replicate n c := by
        intro hb
        exact hhead (by rw [List.eq_of_mem_replicate hb]; rfl)
      rw [← hback, replace_skip fun rest hrest hne => not_prefix_of_notMem hb rest hrest hne back]
      exact (List.prefix_append _ _).isInfix
    · rw [replace_cons hno]
      exact (ih hrest).trans (List.suffix_cons a _).isInfix
  | here text ih =>
    obtain ⟨front, back, hrun⟩ := h
    rw [List.append_assoc] at hrun
    have hle := length_le_of_run hlast hlen (hrun ▸ List.prefix_append pat text)
    obtain ⟨front', rfl⟩ : pat <+: front :=
      List.prefix_of_prefix_length_le (hrun ▸ List.prefix_append pat text)
        (List.prefix_append ..) hle
    rw [List.append_assoc] at hrun
    rw [replace_append hpat]
    apply (ih ⟨front', back, ?_⟩).trans (List.suffix_append new _).isInfix
    rw [List.append_assoc]
    exact List.append_cancel_left hrun

end Replacing
