import Webshelf.Lib.Words
import Webshelf.Text
import Mathlib.Tactic.Tauto

/-!
# The words that ask for a captcha

`matches_trigger` takes a keyword for matched if it is the whole content up to ASCII
case; else an ASCII keyword must be one of the words of the content, and any other
one a part of it. So an ASCII keyword with a separator in it is found only as the
whole content, and an empty keyword wherever two separators meet.
-/

namespace Webshelf

namespace Trigger

/-- `char::is_alphanumeric`, of which only the ASCII part is used. -/
structure Alphabet where
  isAlphanumeric : Char → Bool
  ascii : ∀ c : Char, c.toNat < 128 → isAlphanumeric c = c.isAlphanum

/-- `str::eq_ignore_ascii_case` -/
def eqIgnoreCase (s t : List Char) : Bool := asciiLowercase s == asciiLowercase t

/-- What `str::split` cuts at. -/
def Alphabet.separates (A : Alphabet) (c : Char) : Bool := !A.isAlphanumeric c

/-- The closure of `matches_trigger`, for one keyword. -/
def matchesKeyword (A : Alphabet) (trimmed kw : List Char) : Bool :=
  if eqIgnoreCase kw trimmed then true
  else if isAscii kw then
    ((asciiLowercase trimmed).splitOnP A.separates).any (· == asciiLowercase kw)
  else decide (kw <:+: trimmed)

def matchesTrigger (A : Alphabet) (keywords : List (List Char)) (content : List Char) : Bool :=
  let trimmed := trim content
  if trimmed.isEmpty then false else keywords.any (matchesKeyword A trimmed)

/-! ### Occurrences -/

/-- Up to ASCII case, with no alphanumeric character immediately before or after. -/
def OccursAsWord (A : Alphabet) (kw text : List Char) : Prop :=
  ∃ pre found post, text = pre ++ found ++ post ∧ eqIgnoreCase found kw = true ∧
    Words.Bounded A.separates pre post

/-- How a keyword is said to occur. -/
def Occurs (A : Alphabet) (kw text : List Char) : Prop :=
  if isAscii kw then OccursAsWord A kw text else kw <:+: text

variable {A : Alphabet} {kw text trimmed content : List Char} {keywords : List (List Char)}

theorem separates_toLower (A : Alphabet) (c : Char) :
    A.separates c.toLower = A.separates c := by
  rcases toLower_cases c with hsame | ⟨⟨hc, hlow⟩, halnum, hlower⟩
  · rw [hsame]
  · rw [Alphabet.separates, Alphabet.separates, A.ascii _ hc, A.ascii _ hlow, halnum, hlower]

theorem bounded_lowercase {pre post : List Char} :
    Words.Bounded A.separates (asciiLowercase pre) (asciiLowercase post) ↔
      Words.Bounded A.separates pre post := by
  simp [Words.Bounded, asciiLowercase, List.getLast?_map, separates_toLower]

/-- The words of the lowered content are where a keyword of letters and digits occurs. -/
theorem mem_split_iff : asciiLowercase kw ∈ (asciiLowercase text).splitOnP A.separates ↔
    OccursAsWord A kw text ∧ ∀ c ∈ kw, A.isAlphanumeric c = true := by
  have hletters : (∀ c ∈ asciiLowercase kw, A.separates c = false) ↔
      ∀ c ∈ kw, A.isAlphanumeric c = true := by
    simp only [asciiLowercase, List.forall_mem_map, separates_toLower]
    simp [Alphabet.separates]
  rw [Words.mem_split_iff, ← hletters]
  constructor
  · rintro ⟨pre', post', hsplit, hword, hbounded⟩
    obtain ⟨front, post, rfl, hfront, rfl⟩ := List.map_eq_append_iff.mp hsplit
    obtain ⟨pre, found, rfl, rfl, hfound⟩ := List.map_eq_append_iff.mp hfront
    exact ⟨⟨pre, found, post, rfl, beq_iff_eq.mpr hfound, bounded_lowercase.mp hbounded⟩, hword⟩
  · rintro ⟨⟨pre, found, post, rfl, hfound, hbounded⟩, hword⟩
    refine ⟨asciiLowercase pre, asciiLowercase post, ?_, hword, bounded_lowercase.mpr hbounded⟩
    rw [← beq_iff_eq.mp hfound]
    simp [asciiLowercase]

/-- What makes a keyword match. -/
theorem matchesKeyword_iff : matchesKeyword A trimmed kw = true ↔
    eqIgnoreCase kw trimmed = true ∨
      Occurs A kw trimmed ∧ (isAscii kw = true → ∀ c ∈ kw, A.isAlphanumeric c = true) := by
  unfold matchesKeyword Occurs
  cases heq : eqIgnoreCase kw trimmed with
  | true => simp
  | false =>
    cases hascii : isAscii kw with
    | true =>
      have hany : ((asciiLowercase trimmed).splitOnP A.separates).any
          (· == asciiLowercase kw) = true ↔
          asciiLowercase kw ∈ (asciiLowercase trimmed).splitOnP A.separates := by
        simp
      simpa [hany] using mem_split_iff
    | false => simp

theorem matchesTrigger_iff : matchesTrigger A keywords content = true ↔
    trim content ≠ [] ∧ ∃ kw ∈ keywords, matchesKeyword A (trim content) kw = true := by
  unfold matchesTrigger
  cases trim content <;> simp

/-! ### Against the description -/

/-- Some keyword that is not empty occurs in the trimmed content. -/
def Described (A : Alphabet) (keywords : List (List Char)) (content : List Char) : Prop :=
  ∃ kw ∈ keywords, kw ≠ [] ∧ Occurs A kw (trim content)

/-- Nothing but the empty keyword occurs in an empty content. -/
theorem ne_nil_of_match (hkw : kw ≠ [])
    (h : eqIgnoreCase kw trimmed = true ∨ Occurs A kw trimmed) : trimmed ≠ [] := by
  rintro rfl
  rcases h with heq | hoccurs
  · apply hkw
    simpa [eqIgnoreCase, asciiLowercase] using heq
  · unfold Occurs at hoccurs
    split at hoccurs
    · obtain ⟨pre, found, post, hsplit, heq, -⟩ := hoccurs
      simp only [List.nil_eq, List.append_eq_nil_iff] at hsplit
      apply hkw
      simpa [eqIgnoreCase, asciiLowercase, hsplit.1.2] using heq
    · exact hkw (List.infix_nil.mp hoccurs)

/-- An ASCII keyword that is the whole content occurs in it. -/
theorem occurs_of_eq (hascii : isAscii kw = true) (h : eqIgnoreCase kw trimmed = true) :
    Occurs A kw trimmed := by
  rw [Occurs, if_pos hascii]
  refine ⟨[], trimmed, [], by simp, ?_, by simp [Words.Bounded]⟩
  rw [eqIgnoreCase, beq_iff_eq] at h ⊢
  exact h.symm

/-- A keyword that occurs and is matched for it. -/
def Found (A : Alphabet) (trimmed kw : List Char) : Prop :=
  kw ≠ [] ∧ Occurs A kw trimmed ∧ (isAscii kw = true →
    (∀ c ∈ kw, A.isAlphanumeric c = true) ∨ eqIgnoreCase kw trimmed = true)

/-- A keyword that is matched and does not occur: the empty one where separators meet or stand
at an end, and one with letters in another case than those of the whole content. -/
def Stray (A : Alphabet) (trimmed kw : List Char) : Prop :=
  trimmed ≠ [] ∧ kw = [] ∧ Occurs A kw trimmed ∨
    isAscii kw = false ∧ eqIgnoreCase kw trimmed = true ∧ ¬ kw <:+: trimmed

/-- A keyword that occurs and is not matched: one with a separator in it, in a longer content. -/
def Missed (A : Alphabet) (trimmed kw : List Char) : Prop :=
  kw ≠ [] ∧ isAscii kw = true ∧ Occurs A kw trimmed ∧
    (∃ c ∈ kw, A.isAlphanumeric c = false) ∧ eqIgnoreCase kw trimmed = false

theorem matched_iff (ht : trimmed ≠ []) :
    matchesKeyword A trimmed kw = true ↔ Found A trimmed kw ∨ Stray A trimmed kw := by
  rw [matchesKeyword_iff]
  unfold Found Stray
  by_cases hkw : kw = []
  · subst hkw
    have hne : eqIgnoreCase [] trimmed = false := by
      cases trimmed with
      | nil => exact absurd rfl ht
      | cons => rfl
    simp [hne, ht, isAscii]
  · cases hascii : isAscii kw with
    | true =>
      have hwhole := @occurs_of_eq A kw trimmed hascii
      simp only [hkw, ne_eq, not_false_eq_true, true_and, false_and, and_false, or_false,
        forall_const, Bool.true_eq_false]
      tauto
    | false =>
      have hpart : Occurs A kw trimmed ↔ kw <:+: trimmed := by simp [Occurs, hascii]
      simp only [hkw, hpart, ne_eq, not_false_eq_true, true_and, false_and, and_false, false_or,
        Bool.false_eq_true, false_implies, and_true]
      tauto

theorem occurring_iff : (kw ≠ [] ∧ Occurs A kw trimmed) ↔
    Found A trimmed kw ∨ Missed A trimmed kw := by
  unfold Found Missed
  by_cases hall : ∀ c ∈ kw, A.isAlphanumeric c = true
  · have hnone : ¬ ∃ c ∈ kw, A.isAlphanumeric c = false := by
      rintro ⟨c, hc, hno⟩
      rw [hall c hc] at hno
      cases hno
    tauto
  · have hsome : ∃ c ∈ kw, A.isAlphanumeric c = false := by simpa using hall
    rw [← Bool.not_eq_true (eqIgnoreCase kw trimmed)]
    tauto

/-- When the answer is the one described: a keyword is found, or there are both stray and missed
ones or neither. -/
theorem matches_described_iff (ht : trim content ≠ []) :
    (matchesTrigger A keywords content = true ↔ Described A keywords content) ↔
      (∃ kw ∈ keywords, Found A (trim content) kw) ∨
        ((∃ kw ∈ keywords, Stray A (trim content) kw) ↔
          ∃ kw ∈ keywords, Missed A (trim content) kw) := by
  have hmatches : matchesTrigger A keywords content = true ↔
      (∃ kw ∈ keywords, Found A (trim content) kw) ∨
        ∃ kw ∈ keywords, Stray A (trim content) kw := by
    rw [matchesTrigger_iff]
    simp only [matched_iff ht, ne_eq, ht, not_false_eq_true, true_and, and_or_left, exists_or]
  have hdescribed : Described A keywords content ↔
      (∃ kw ∈ keywords, Found A (trim content) kw) ∨
        ∃ kw ∈ keywords, Missed A (trim content) kw := by
    simp only [Described, occurring_iff, and_or_left, exists_or]
  rw [hmatches, hdescribed]
  by_cases hfound : ∃ kw ∈ keywords, Found A (trim content) kw
  · simp only [hfound, true_or]
  · simp only [hfound, false_or]

/-- **What asks for a captcha.** A keyword that is the whole trimmed content up to ASCII case
matches, and so does one that occurs, unless it is an ASCII keyword with a separator in it; and
where none of the keywords is empty, nothing else does. -/
theorem trigger_matches (A : Alphabet) (keywords : List (List Char)) (content : List Char) :
    ((∃ kw ∈ keywords, kw ≠ [] ∧ (eqIgnoreCase kw (trim content) = true ∨
        Occurs A kw (trim content) ∧
          (isAscii kw = true → ∀ c ∈ kw, A.isAlphanumeric c = true))) →
      matchesTrigger A keywords content = true) ∧
    (matchesTrigger A keywords content = true → [] ∉ keywords →
      ∃ kw ∈ keywords, kw ≠ [] ∧
        (eqIgnoreCase kw (trim content) = true ∨ Occurs A kw (trim content))) := by
  constructor
  · rintro ⟨kw, hmem, hne, hkw⟩
    refine matchesTrigger_iff.mpr ⟨?_, kw, hmem, matchesKeyword_iff.mpr hkw⟩
    exact ne_nil_of_match hne (hkw.imp_right And.left)
  · intro hmatches hempty
    obtain ⟨-, kw, hmem, hkw⟩ := matchesTrigger_iff.mp hmatches
    have hne : kw ≠ [] := by
      rintro rfl
      exact hempty hmem
    exact ⟨kw, hmem, hne, (matchesKeyword_iff.mp hkw).imp_right And.left⟩

/-- ASCII and the common Chinese characters. -/
def Alphabet.common : Alphabet where
  isAlphanumeric c := c.isAlphanum || (0x4E00 ≤ c.toNat && c.toNat ≤ 0x9FFF)
  ascii c hc := by
    have hnot : decide (0x4E00 ≤ c.toNat) = false := decide_eq_false (by omega)
    rw [hnot, Bool.false_and, Bool.or_false]

/-- A keyword that is not ASCII matches a content with its letters in another case. -/
theorem other_case_matches :
    ¬ (matchesTrigger .common ["验证码ABC".toList] "验证码abc".toList = true ↔
      Described .common ["验证码ABC".toList] "验证码abc".toList) := by
  intro h
  obtain ⟨kw, hmem, -, hoccurs⟩ := h.mp (by decide)
  rw [List.mem_singleton.mp hmem, Occurs, if_neg (by decide)] at hoccurs
  exact absurd hoccurs (by decide)

theorem trigger_matches_login :
    matchesTrigger .common ["验证码".toList, "login".toList] " Please LOGIN, now ".toList = true := by
  apply (trigger_matches _ _ _).1
  refine ⟨"login".toList, by decide, by decide, Or.inr ⟨?_, fun _ => ?_⟩⟩
  · rw [Occurs, if_pos (by decide)]
    exact ⟨"Please ".toList, "LOGIN".toList, ", now".toList, by decide, by decide, by decide⟩
  · exact List.all_eq_true.mp (by decide)

/-- A keyword with a separator is found as the whole content only. -/
example : matchesTrigger .common ["log-in".toList] "Log-In".toList = true ∧
    matchesTrigger .common ["log-in".toList] "log-in please".toList = false := by decide

end Trigger

end Webshelf
