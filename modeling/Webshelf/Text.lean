import Webshelf.Routing.Router

/-!
# Texts

Functions of `str` that several parts of the server use.
-/

namespace Webshelf

/-- `str::trim`. -/
def trim (text : List Char) : List Char :=
  (Routing.trimStart (Routing.trimStart text).reverse).reverse

/-- `str::to_ascii_lowercase`. -/
def asciiLowercase (text : List Char) : List Char := text.map Char.toLower

/-- `str::is_ascii`. -/
def isAscii (text : List Char) : Bool := text.all (·.toNat < 128)

theorem isAlphanum_of_isUpper {c : Char} (h : c.isUpper = true) : c.isAlphanum = true := by
  change ((c.isUpper || c.isLower) || c.isDigit) = true
  rw [h, Bool.true_or, Bool.true_or]

theorem isAlphanum_of_isLower {c : Char} (h : c.isLower = true) : c.isAlphanum = true := by
  change ((c.isUpper || c.isLower) || c.isDigit) = true
  rw [h, Bool.or_true, Bool.true_or]

/-- Lowering changes nothing, or a letter of ASCII into another one. -/
theorem toLower_cases (c : Char) : c.toLower = c ∨
    (c.toNat < 128 ∧ c.toLower.toNat < 128) ∧ c.isAlphanum = true ∧
      c.toLower.isAlphanum = true := by
  by_cases h : c.val ≥ 'A'.val ∧ c.val ≤ 'Z'.val
  · right
    have hlow : c.toLower.val = c.val + 32 := congrArg Char.val (dif_pos h)
    have hup : c.isUpper = true := decide_eq_true h
    obtain ⟨h1, h2⟩ := h
    simp only [ge_iff_le, UInt32.le_iff_toNat_le] at h1 h2
    have h65 : 'A'.val.toNat = 65 := rfl
    have h90 : 'Z'.val.toNat = 90 := rfl
    have hnat : c.toLower.val.toNat = c.val.toNat + 32 := by
      rw [hlow, UInt32.toNat_add]
      have h32 : (32 : UInt32).toNat = 32 := rfl
      omega
    have hlower : c.toLower.isLower = true := by
      have h97 : 'a'.val.toNat = 97 := rfl
      have h122 : 'z'.val.toNat = 122 := rfl
      have hge : 'a'.val ≤ c.toLower.val := UInt32.le_iff_toNat_le.mpr (by omega)
      have hle : c.toLower.val ≤ 'z'.val := UInt32.le_iff_toNat_le.mpr (by omega)
      exact (Bool.and_eq_true _ _).mpr ⟨decide_eq_true hge, decide_eq_true hle⟩
    refine ⟨⟨?_, ?_⟩, isAlphanum_of_isUpper hup, isAlphanum_of_isLower hlower⟩
    · change c.val.toNat < 128
      omega
    · change c.toLower.val.toNat < 128
      omega
  · exact Or.inl (dif_neg h)

end Webshelf
