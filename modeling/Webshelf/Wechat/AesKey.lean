import Webshelf.Wechat.Crypto

/-!
# Which keys are accepted?

43 characters carry 258 bits, of which a key has 256. The engine does not let the other two be
anything but zero.
-/

namespace Webshelf

namespace AesCrypto

/-- 43 characters of the alphabet. -/
def IsKeyText (text : List Char) : Prop :=
  text.length = 43 ∧ ∀ c ∈ text, c ∈ Base64.alphabet

/-- The two bits beyond the key are zero. -/
def EndsInZeros (text : List Char) : Prop := ∀ c ∈ text.getLast?, Base64.value c % 4 = 0

/-- A text of 43 characters of the alphabet gives the key that its first 256 bits are, and one of
another length gives an error. -/
structure TotalAt (crates : Crates) (text : List Char) : Prop where
  accepts : IsKeyText text → ∃ key, decodeAesKey crates text = .ok key ∧ key.length = 32 ∧
    key.flatMap (fun b => Base64.bits 8 b.toNat) =
      ((text.map Base64.value).flatMap (Base64.bits 6)).take 256
  rejects : text.length ≠ 43 ∨ len text ≠ 43 → ∃ e, decodeAesKey crates text = .error e

/-- A key text must end in zeros, and no other text may be one with a `=` after it. -/
def Aligned (text : List Char) : Prop :=
  (IsKeyText text → EndsInZeros text) ∧
    ∀ keyText, text = keyText ++ ['='] → IsKeyText keyText → ¬ EndsInZeros keyText

section
variable {crates : Crates} {text keyText : List Char} {key : List UInt8}

/-! ### Encoded keys -/

theorem encode_key (h : key.length = 32) :
    Base64.encode key = (Base64.sextets key).map Base64.digit ++ ['='] := by
  rw [Base64.encode, h]
  rfl

/-- What a key is encoded to, without the `=`. -/
theorem isKeyText_sextets (h : key.length = 32) :
    IsKeyText ((Base64.sextets key).map Base64.digit) ∧
      EndsInZeros ((Base64.sextets key).map Base64.digit) := by
  refine ⟨⟨?_, ?_⟩, ?_⟩
  · rw [List.length_map, Base64.length_sextets, h]
  · intro c hc
    obtain ⟨n, hn, rfl⟩ := List.mem_map.mp hc
    exact Base64.digit_mem (Base64.sextets_lt n hn)
  · intro c hc
    rw [List.getLast?_map] at hc
    obtain ⟨n, hn, rfl⟩ := Option.map_eq_some_iff.mp hc
    rw [Base64.value_digit (Base64.sextets_lt n (List.mem_of_getLast? hn))]
    exact Base64.sextets_getLast (by rw [h]) n hn

/-- The key that a key text stands for. -/
theorem key_of_isKeyText (h : IsKeyText keyText) (hzeros : EndsInZeros keyText) :
    (Base64.octets (keyText.map Base64.value)).length = 32 ∧
      Base64.encode (Base64.octets (keyText.map Base64.value)) = keyText ++ ['='] := by
  have hlength : (Base64.octets (keyText.map Base64.value)).length = 32 := by
    rw [Base64.length_octets, List.length_map, h.1]
  refine ⟨hlength, ?_⟩
  have hlast : ∀ n ∈ (keyText.map Base64.value).getLast?, n % 4 = 0 := by
    intro n hn
    rw [List.getLast?_map] at hn
    obtain ⟨c, hc, rfl⟩ := Option.map_eq_some_iff.mp hn
    exact hzeros c hc
  have hlt : ∀ n ∈ keyText.map Base64.value, n < 64 := by
    intro n hn
    obtain ⟨c, hc, rfl⟩ := List.mem_map.mp hn
    exact Base64.value_lt (h.2 c hc)
  rw [encode_key hlength, Base64.sextets_octets (by rw [List.length_map, h.1]) hlt hlast,
    Base64.map_digit_value h.2]

/-! ### Which texts decode -/

theorem len_isKeyText (h : IsKeyText keyText) : len keyText = 43 := by
  rw [len_ascii fun c hc => alphabet_ascii c (h.2 c hc), h.1]

theorem len_equals : len ['='] = 1 := rfl

theorem pushEquals_isKeyText (h : IsKeyText keyText) :
    pushEquals 3 keyText = keyText ++ ['='] := by
  simp [pushEquals, len_append, len_isKeyText h, len_equals]

theorem pushEquals_padded (h : IsKeyText keyText) :
    pushEquals 3 (keyText ++ ['=']) = keyText ++ ['='] := by
  simp [pushEquals, len_append, len_isKeyText h, len_equals]

/-- A key text that ends in zeros is decoded, with or without the `=`, and nothing else. -/
theorem decodeAesKey_isOk (hdecode : Standard crates.decode) :
    (∃ key, decodeAesKey crates text = .ok key) ↔
      ∃ keyText, IsKeyText keyText ∧ EndsInZeros keyText ∧
        (text = keyText ∨ text = keyText ++ ['=']) := by
  constructor
  · rintro ⟨key, hkey⟩
    obtain ⟨hpadded, hlength⟩ := (decodeAesKey_ok hdecode).mp hkey
    obtain ⟨k, _, hpush⟩ := @pushEquals_eq text 3
    obtain ⟨htext, hzeros⟩ := isKeyText_sextets hlength
    rw [hpush, encode_key hlength] at hpadded
    generalize (Base64.sextets key).map Base64.digit = keyText at hpadded htext hzeros
    refine ⟨keyText, htext, hzeros, ?_⟩
    match k with
    | 0 => exact Or.inr (by simpa using hpadded)
    | 1 => exact Or.inl (List.append_cancel_right hpadded)
    | k + 2 =>
      -- the key text would end in `=`
      rw [List.replicate_succ', ← List.append_assoc] at hpadded
      have hend := List.append_cancel_right hpadded
      rw [List.replicate_succ', ← List.append_assoc] at hend
      have hmem : '=' ∈ keyText := by
        rw [← hend]
        simp
      exact absurd (htext.2 '=' hmem) Base64.equals_not_mem
  · rintro ⟨keyText, htext, hzeros, hcases⟩
    obtain ⟨hlength, hencode⟩ := key_of_isKeyText htext hzeros
    refine ⟨_, (decodeAesKey_ok hdecode).mpr ⟨?_, hlength⟩⟩
    cases hcases with
    | inl h => rw [h, pushEquals_isKeyText htext, hencode]
    | inr h => rw [h, pushEquals_padded htext, hencode]

theorem error_of_not_ok (h : ¬ ∃ key, decodeAesKey crates text = .ok key) :
    ∃ e, decodeAesKey crates text = .error e := by
  cases hresult : decodeAesKey crates text with
  | error e => exact ⟨e, rfl⟩
  | ok key => exact absurd ⟨key, hresult⟩ h

/-- Decoding does what is expected of it exactly where the text is aligned. -/
theorem decodeAesKey_totalAt_iff (hdecode : Standard crates.decode) :
    TotalAt crates text ↔ Aligned text := by
  constructor
  · intro h
    constructor
    · intro htext
      obtain ⟨key, hkey, _⟩ := h.accepts htext
      obtain ⟨keyText, hkeyText, hzeros, hcases⟩ := (decodeAesKey_isOk hdecode).mp ⟨key, hkey⟩
      cases hcases with
      | inl hsame => exact hsame ▸ hzeros
      | inr hlonger =>
        have hlength := htext.1
        rw [hlonger, List.length_append, hkeyText.1] at hlength
        cases hlength
    · rintro keyText rfl hkeyText hzeros
      obtain ⟨e, he⟩ := h.rejects (Or.inl (by rw [List.length_append, hkeyText.1]; decide))
      obtain ⟨key, hkey⟩ := (decodeAesKey_isOk hdecode).mpr
        ⟨keyText, hkeyText, hzeros, Or.inr rfl⟩
      rw [he] at hkey
      cases hkey
  · intro h
    constructor
    · intro htext
      obtain ⟨hlength, hencode⟩ := key_of_isKeyText htext (h.1 htext)
      refine ⟨_, (decodeAesKey_ok hdecode).mpr ⟨?_, hlength⟩, hlength, ?_⟩
      · rw [pushEquals_isKeyText htext, hencode]
      · rw [Base64.octets_bits, hlength]
        intro n hn
        obtain ⟨c, hc, rfl⟩ := List.mem_map.mp hn
        exact Base64.value_lt (htext.2 c hc)
    · intro hlength
      apply error_of_not_ok
      rw [decodeAesKey_isOk hdecode]
      rintro ⟨keyText, hkeyText, hzeros, hcases⟩
      cases hcases with
      | inl hsame =>
        rw [hsame, hkeyText.1, len_isKeyText hkeyText] at hlength
        simp at hlength
      | inr hlonger => exact h.2 keyText hlonger hkeyText hzeros

end

/-- All zeros, and the same with the last bit set. -/
def zeroKeyText : List Char := List.replicate 43 'A'

def oneKeyText : List Char := List.replicate 42 'A' ++ ['B']

theorem decodeAesKey_totalAt_iff_zeroKeyText :
    TotalAt (tableCrates fun _ _ data => data) zeroKeyText ↔ Aligned zeroKeyText :=
  decodeAesKey_totalAt_iff standard_decodeStandard

/-- A text of 43 characters of the alphabet is refused. -/
theorem not_totalAt_oneKeyText : ¬ TotalAt (tableCrates fun _ _ data => data) oneKeyText := by
  intro h
  obtain ⟨key, hkey, _⟩ := h.accepts ⟨by decide, List.all_iff_forall_prop.mp (by decide)⟩
  obtain ⟨keyText, _, hzeros, hcases⟩ :=
    (decodeAesKey_isOk standard_decodeStandard).mp ⟨key, hkey⟩
  cases hcases with
  | inl hsame =>
    have hlast := hzeros 'B' (by rw [← hsame]; decide)
    revert hlast
    decide
  | inr hlonger =>
    have hlast := congrArg List.getLast? hlonger
    rw [List.getLast?_concat] at hlast
    revert hlast
    decide

end AesCrypto

end Webshelf
