import Webshelf.Lib.Base64
import Mathlib.Algebra.Group.Nat.Defs
import Mathlib.Data.Bool.AllAny

/-!
# Decryption of messages

In safe mode messages come encrypted with a key that is configured as a text of 43 characters.
The crates that decode and decrypt are parameters; what they do is stated of them.
-/

namespace Webshelf

namespace AesCrypto

def utf8 (text : List Char) : List UInt8 := text.flatMap String.utf8EncodeChar

/-- `str::len`, in bytes. -/
def len (text : List Char) : Nat := (utf8 text).length

/-- `String::from_utf8`. -/
def fromUtf8 (bytes : List UInt8) : Option (List Char) :=
  bytes.toByteArray.utf8Decode?.map Array.toList

/-- The crates: base64's STANDARD engine, AES-256-CBC without padding, the unpadding of PKCS#7,
and the text of an error of `String::from_utf8`. -/
structure Crates where
  decode : List Char → Except String (List UInt8)
  cbcDecrypt : (key iv data : List UInt8) → List UInt8
  unpad : List UInt8 → Except String (List UInt8)
  utf8Error : List UInt8 → String

/-- The loop that appends `=` until the length is a multiple of four. -/
def pushEquals : Nat → List Char → List Char
  | 0, text => text
  | rounds + 1, text => if len text % 4 = 0 then text else pushEquals rounds (text ++ ['='])

/-- `decode_aes_key`; an error is the message of `WechatError::Decrypt`. -/
def decodeAesKey (crates : Crates) (encodingAesKey : List Char) : Except String (List UInt8) :=
  match crates.decode (pushEquals 3 encodingAesKey) with
  | .error e => .error ("Invalid EncodingAESKey base64: " ++ e)
  | .ok decoded =>
    if decoded.length ≠ 32 then
      .error ("EncodingAESKey decoded to " ++ toString decoded.length ++ " bytes, expected 32")
    else .ok decoded

/-- `u32::from_be_bytes`. -/
def fromBeBytes (bytes : List UInt8) : Nat := bytes.foldl (fun n b => n * 256 + b.toNat) 0

/-- What is read from the decrypted bytes: 16 random ones, the length of the message in 4, the
message, and the app id. -/
def readPayload (crates : Crates) (pt : List UInt8) : Except String (List Char) :=
  if pt.length < 20 then .error "Decrypted payload too short"
  else
    let msgLen := fromBeBytes ((pt.drop 16).take 4)
    if pt.length < 20 + msgLen then
      .error ("Declared msg_len " ++ toString msgLen ++ " exceeds payload")
    else
      let content := (pt.drop 20).take msgLen
      match fromUtf8 content with
      | none => .error ("Decrypted XML is not valid UTF-8: " ++ crates.utf8Error content)
      | some text => .ok text

def decryptMessage (crates : Crates) (encodingAesKey encryptedB64 : List Char) :
    Except String (List Char) := do
  let key ← decodeAesKey crates encodingAesKey
  let iv := key.take 16
  let ciphertext ← (crates.decode encryptedB64).mapError ("Invalid base64 ciphertext: " ++ ·)
  if ciphertext.length % 16 ≠ 0 || ciphertext.isEmpty then
    throw ("Ciphertext length " ++ toString ciphertext.length ++
      " is not a positive multiple of 16")
  let pt ← (crates.unpad (crates.cbcDecrypt key iv ciphertext)).mapError
    ("AES decrypt failed: " ++ ·)
  readPayload crates pt

/-! ### What the crates do -/

/-- The STANDARD engine accepts what is written with padding and zero trailing bits. -/
def Standard (decode : List Char → Except String (List UInt8)) : Prop :=
  ∀ text bytes, decode text = .ok bytes ↔ text = Base64.encode bytes

/-- `Pkcs7` takes 1 to 16 bytes off whole blocks of 16, each of which is their number. -/
def UnpadsBlocks (unpad : List UInt8 → Except String (List UInt8)) : Prop :=
  ∀ data out, data ≠ [] → 16 ∣ data.length →
    (unpad data = .ok out ↔ ∃ n, 1 ≤ n ∧ n ≤ 16 ∧ data = out ++ List.replicate n (UInt8.ofNat n))

/-- CBC decryption of whole blocks inverts the encryption. -/
def InvertsCbc (cbcEncrypt cbcDecrypt : (key iv data : List UInt8) → List UInt8) : Prop :=
  ∀ key iv data, key.length = 32 → iv.length = 16 → 16 ∣ data.length →
    cbcDecrypt key iv (cbcEncrypt key iv data) = data ∧
      (cbcEncrypt key iv data).length = data.length

/-! ### Texts -/

section
variable {text text' : List Char} {bytes : List UInt8}

theorem utf8_append : utf8 (text ++ text') = utf8 text ++ utf8 text' := List.flatMap_append

theorem len_append : len (text ++ text') = len text + len text' := by
  rw [len, utf8_append, List.length_append]
  rfl

theorem len_ascii (h : ∀ c ∈ text, c.val < 128) : len text = text.length := by
  induction text with
  | nil => rfl
  | cons c text ih =>
    have hc : c.utf8Size = 1 := by
      have hlt : c.val ≤ 127 := by
        have := UInt32.lt_iff_toNat_lt.mp (h c (by simp))
        apply UInt32.le_iff_toNat_le.mpr
        exact Nat.le_of_lt_succ this
      simp [Char.utf8Size, hlt]
    have hcons : len (c :: text) = len [c] + len text := @len_append [c] text
    rw [hcons, ih fun d hd => h d (by simp [hd]), List.length_cons, len, utf8,
      List.flatMap_singleton, String.length_utf8EncodeChar, hc, Nat.add_comm]

theorem alphabet_ascii : ∀ c ∈ Base64.alphabet, c.val < 128 :=
  List.all_iff_forall_prop.mp (by decide)

theorem fromUtf8_utf8 : fromUtf8 (utf8 text) = some text := by
  have hencode : (utf8 text).toByteArray = text.utf8Encode := rfl
  rw [fromUtf8, hencode, List.utf8Decode?_utf8Encode]
  rfl

/-- Some number of `=` is appended. -/
theorem pushEquals_eq (rounds : Nat) : ∃ k ≤ rounds,
    pushEquals rounds text = text ++ List.replicate k '=' := by
  induction rounds generalizing text with
  | zero => exact ⟨0, Nat.le_refl 0, by simp [pushEquals]⟩
  | succ rounds ih =>
    rw [pushEquals]
    split
    · exact ⟨0, Nat.zero_le _, by simp⟩
    · obtain ⟨k, hk, heq⟩ := @ih (text ++ ['='])
      exact ⟨k + 1, Nat.succ_le_succ hk, by rw [heq, List.replicate_succ]; simp⟩

/-- The loop has ended by then. -/
theorem pushEquals_len : len (pushEquals 3 text) % 4 = 0 := by
  have hone : len ['='] = 1 := rfl
  simp only [pushEquals]
  split
  · assumption
  · split
    · assumption
    · split
      · assumption
      · simp only [len_append, hone] at *
        omega

theorem decodeAesKey_ok {crates : Crates} (hdecode : Standard crates.decode) :
    decodeAesKey crates text = .ok bytes ↔
      pushEquals 3 text = Base64.encode bytes ∧ bytes.length = 32 := by
  unfold decodeAesKey
  cases hresult : crates.decode (pushEquals 3 text) with
  | error e =>
    apply iff_of_false (by simp)
    rintro ⟨h, _⟩
    rw [(hdecode _ _).mpr h] at hresult
    cases hresult
  | ok decoded =>
    have htext := (hdecode _ _).mp hresult
    by_cases hlength : decoded.length = 32
    · simp only [hlength, ne_eq, not_true_eq_false, if_false, Except.ok.injEq]
      constructor
      · rintro rfl
        exact ⟨htext, hlength⟩
      · rintro ⟨h, _⟩
        rw [(hdecode _ _).mpr h] at hresult
        exact (Except.ok.inj hresult).symm
    · dsimp only
      rw [if_pos hlength]
      apply iff_of_false (by simp)
      rintro ⟨h, hbytes⟩
      rw [(hdecode _ _).mpr h] at hresult
      exact hlength (Except.ok.inj hresult ▸ hbytes)

end

/-! ### Crates that do so -/

def decodeStandard (text : List Char) : Except String (List UInt8) :=
  match Base64.decode text with
  | none => .error "Invalid symbol"
  | some bytes => .ok bytes

def unpadBlocks (data : List UInt8) : Except String (List UInt8) :=
  let n := (data.getLast?.getD 0).toNat
  if 1 ≤ n ∧ n ≤ 16 ∧ n ≤ data.length ∧
      data.drop (data.length - n) = List.replicate n (UInt8.ofNat n) then
    .ok (data.take (data.length - n))
  else .error "UnpadError"

/-- The crates, with a table for AES. -/
def tableCrates (cbcDecrypt : (key iv data : List UInt8) → List UInt8) : Crates where
  decode := decodeStandard
  cbcDecrypt := cbcDecrypt
  unpad := unpadBlocks
  utf8Error := fun _ => "invalid utf-8 sequence"

theorem standard_decodeStandard : Standard decodeStandard := by
  intro text bytes
  rw [← Base64.decode_eq_some, decodeStandard]
  cases Base64.decode text <;> simp

theorem unpadsBlocks_unpadBlocks : UnpadsBlocks unpadBlocks := by
  intro data out _ _
  unfold unpadBlocks
  dsimp only
  constructor
  · intro h
    split at h
    · rename_i hn
      obtain ⟨hpos, hle, _, hdrop⟩ := hn
      refine ⟨_, hpos, hle, ?_⟩
      rw [← hdrop, ← Except.ok.inj h, List.take_append_drop]
    · cases h
  · rintro ⟨n, hpos, hle, rfl⟩
    have hlast : (out ++ List.replicate n (UInt8.ofNat n)).getLast? = some (UInt8.ofNat n) := by
      rw [List.getLast?_append_of_ne_nil _ (by simp; omega), List.getLast?_replicate,
        if_neg (by omega)]
    have hn : (UInt8.ofNat n).toNat = n := Base64.toNat_ofNat (by omega)
    have hlength : (out ++ List.replicate n (UInt8.ofNat n)).length - n = out.length := by simp
    rw [hlast, Option.getD_some, hn, hlength, List.drop_left, List.take_left]
    exact if_pos ⟨hpos, hle, by simp, rfl⟩

end AesCrypto

end Webshelf
