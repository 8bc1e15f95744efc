import Webshelf.Lib.Replace
import Webshelf.Text
import Mathlib.Data.Bool.AllAny

/-!
# The greeting of the welcome mail

`escape_html` of `emailserver` replaces five characters one after the other, `&`
first. The entities it writes hold no character that a later replacement looks
for, so it writes each character on its own, and reading the entities back in one
pass gives the text again.
-/

namespace Webshelf

open Replacing (Rule replace substitute)

namespace Mail

def escapeHtml (text : List Char) : List Char :=
  let text := replace ['&'] "&amp;".toList text
  let text := replace ['<'] "&lt;".toList text
  let text := replace ['>'] "&gt;".toList text
  let text := replace ['"'] "&quot;".toList text
  replace ['\''] "&#39;".toList text

/-- The greeting of the plain text and that of the HTML. -/
def buildWelcomeGreeting (name : Option (List Char)) : List Char × List Char :=
  match (name.map trim).filter (!·.isEmpty) with
  | some name =>
    ("Hello, ".toList ++ name ++ "!".toList, "Hello, ".toList ++ escapeHtml name ++ "!".toList)
  | none => ("Hello!".toList, "Hello!".toList)

/-! ### Reading it back -/

/-- The five entities, each with its character. -/
def htmlEntities : List (Rule Char) :=
  [("&amp;".toList, ['&']), ("&lt;".toList, ['<']), ("&gt;".toList, ['>']),
    ("&quot;".toList, ['"']), ("&#39;".toList, ['\''])]

/-- One pass from left to right over a text without markup. -/
def unescapeHtml (text : List Char) : List Char := substitute htmlEntities text

/-- What a character is written as. -/
def entity (c : Char) : List Char :=
  ((htmlEntities.find? (·.2 == [c])).map (·.1)).getD [c]

variable {c : Char} {text pre post : List Char}

/-- A character with an entity, or one that is written as it is. -/
theorem entity_cases (c : Char) :
    (entity c, [c]) ∈ htmlEntities ∨ entity c = [c] ∧ c ∉ ['&', '<', '>', '"', '\''] := by
  by_cases hc : c ∈ ['&', '<', '>', '"', '\'']
  · left
    have hall : ['&', '<', '>', '"', '\''].all fun c => htmlEntities.contains (entity c, [c]) := by
      decide
    exact List.contains_iff_mem.mp (List.all_eq_true.mp hall c hc)
  · right
    refine ⟨?_, hc⟩
    have hnone : htmlEntities.find? (·.2 == [c]) = none := by
      simp only [List.mem_cons, not_or] at hc
      simp [htmlEntities, hc, Ne.symm]
    rw [entity, hnone]
    rfl

/-- The five replacements, in this order, come to one. -/
theorem escapeHtml_eq (text : List Char) : escapeHtml text = text.flatMap entity := by
  simp only [escapeHtml, Replacing.replace_singleton, List.flatMap_assoc]
  congr 1
  funext c
  rcases entity_cases c with hmem | ⟨hself, hc⟩
  · simp only [htmlEntities, List.mem_cons, List.not_mem_nil, or_false, Prod.mk.injEq,
      List.cons.injEq, and_true] at hmem
    rcases hmem with ⟨he, rfl⟩ | ⟨he, rfl⟩ | ⟨he, rfl⟩ | ⟨he, rfl⟩ | ⟨he, rfl⟩ <;> decide
  · simp only [List.mem_cons, List.not_mem_nil, or_false, not_or] at hc
    obtain ⟨hamp, hlt, hgt, hquot, hapos⟩ := hc
    rw [hself]
    simp only [if_neg hamp, if_neg hlt, if_neg hgt, if_neg hquot, if_neg hapos,
      List.flatMap_singleton]

theorem fits_cons (h : c ≠ '&') : htmlEntities.find? (Rule.fits (c :: text)) = none := by
  simp [htmlEntities, Rule.fits, List.isPrefixOf, Ne.symm h]

/-- No entity begins another one. -/
theorem fits_entity (h : (entity c, [c]) ∈ htmlEntities) :
    htmlEntities.find? (Rule.fits (entity c ++ text)) = some (entity c, [c]) := by
  simp only [htmlEntities, List.mem_cons, List.not_mem_nil, or_false] at h
  rcases h with h | h | h | h | h <;>
    rw [h, (Prod.mk.inj h).1] <;> simp [htmlEntities, Rule.fits, List.isPrefixOf]

theorem unescapeHtml_escapeHtml (text : List Char) : unescapeHtml (escapeHtml text) = text := by
  rw [escapeHtml_eq]
  apply Replacing.substitute_flatMap
  intro c text
  rcases entity_cases c with hmem | ⟨hself, hc⟩
  · right
    have hne : ∀ rule ∈ htmlEntities, rule.1 ≠ [] := List.all_iff_forall_prop.mp (by decide)
    exact ⟨hne _ hmem, fits_entity hmem⟩
  · left
    refine ⟨hself, fits_cons ?_⟩
    rintro rfl
    exact hc (by decide)

/-- Nothing that could be read as markup or end an attribute is left. -/
theorem not_mem_escapeHtml (hc : c ∈ ['<', '>', '"', '\'']) : c ∉ escapeHtml text := by
  rw [escapeHtml_eq, List.mem_flatMap]
  rintro ⟨a, -, hca⟩
  rcases entity_cases a with hmem | ⟨hself, ha⟩
  · have hall : ∀ rule ∈ htmlEntities, rule.1.all (· ∉ ['<', '>', '"', '\'']) = true :=
      List.all_iff_forall_prop.mp (by decide)
    exact of_decide_eq_true (List.all_eq_true.mp (hall _ hmem) c hca) hc
  · rw [hself, List.mem_singleton] at hca
    subst hca
    exact ha (List.mem_cons_of_mem _ hc)

/-- An `&` stands only at the head of what a character is written as, and begins an entity. -/
theorem amp_entity (h : entity c = pre ++ '&' :: post) :
    pre = [] ∧ (entity c, [c]) ∈ htmlEntities := by
  rcases entity_cases c with hmem | ⟨hself, hc⟩
  · refine ⟨?_, hmem⟩
    have hall : ∀ rule ∈ htmlEntities, '&' ∉ rule.1.drop 1 :=
      List.all_iff_forall_prop.mp (by decide)
    cases pre with
    | nil => rfl
    | cons a pre =>
      exfalso
      apply hall _ hmem
      simp [h]
  · exfalso
    rw [hself] at h
    have hmem : '&' ∈ [c] := by simp [h]
    rw [List.mem_singleton] at hmem
    exact hc (by simp [← hmem])

/-- Every `&` of an escaped text begins one of the entities. -/
theorem amp_escapeHtml (h : escapeHtml text = pre ++ '&' :: post) :
    ∃ rule ∈ htmlEntities, rule.1 <+: '&' :: post := by
  rw [escapeHtml_eq] at h
  induction text generalizing pre with
  | nil => simp at h
  | cons c text ih =>
    rw [List.flatMap_cons, List.append_eq_append_iff] at h
    rcases h with ⟨more, -, hrest⟩ | ⟨more, hhead, hmore⟩
    · exact ih hrest
    · cases more with
      | nil => exact @ih [] hmore.symm
      | cons a more =>
        obtain ⟨rfl, rfl⟩ := List.cons.inj hmore
        obtain ⟨rfl, hmem⟩ := amp_entity hhead
        refine ⟨_, hmem, ?_⟩
        rw [hhead]
        exact List.prefix_append _ _

/-! ### The greeting -/

/-- The HTML is the plain text escaped, so it displays the plain text. -/
theorem greeting_html (name : Option (List Char)) :
    (buildWelcomeGreeting name).2 = escapeHtml (buildWelcomeGreeting name).1 := by
  unfold buildWelcomeGreeting
  cases (name.map trim).filter (!·.isEmpty) with
  | none => decide
  | some name => simp only [escapeHtml_eq, List.flatMap_append]; rfl

theorem greeting_text (name : List Char) : (buildWelcomeGreeting (some name)).1 =
    if trim name = [] then "Hello!".toList
    else "Hello, ".toList ++ trim name ++ "!".toList := by
  unfold buildWelcomeGreeting
  cases h : trim name <;> simp [Option.filter, h]

/-- **Names in mail are escaped without loss.** An escaped text has no markup in it, every `&`
of it begins an entity, and reading the entities gives the text again. So the HTML greeting
displays the trimmed name and nothing else. -/
theorem escaping_safe_and_lossless :
    (∀ text : List Char,
      (∀ c ∈ ['<', '>', '"', '\''], c ∉ escapeHtml text) ∧
      (∀ pre post, escapeHtml text = pre ++ '&' :: post →
        ∃ rule ∈ htmlEntities, rule.1 <+: '&' :: post) ∧
      unescapeHtml (escapeHtml text) = text) ∧
    ∀ name : List Char,
      (∀ c ∈ ['<', '>', '"', '\''], c ∉ (buildWelcomeGreeting (some name)).2) ∧
      unescapeHtml (buildWelcomeGreeting (some name)).2 =
        if trim name = [] then "Hello!".toList
        else "Hello, ".toList ++ trim name ++ "!".toList := by
  constructor
  · intro text
    exact ⟨fun c hc => not_mem_escapeHtml hc, fun _ _ h => amp_escapeHtml h,
      unescapeHtml_escapeHtml text⟩
  · intro name
    rw [greeting_html, unescapeHtml_escapeHtml]
    exact ⟨fun c hc => not_mem_escapeHtml hc, greeting_text name⟩

example : (buildWelcomeGreeting (some " Tom & <Jerry> ".toList)).2 =
    "Hello, Tom &amp; &lt;Jerry&gt;!".toList := by decide

end Mail

end Webshelf
