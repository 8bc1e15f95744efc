import Webshelf.Wechat.AesKey

/-!
# Are encrypted messages decrypted?

Messages are padded to whole blocks of 32 bytes before they are encrypted, and unpadded by blocks
of 16 when they have been decrypted.
-/

namespace Webshelf

namespace AesCrypto

/-! ### How a message is encrypted -/

/-- `u32::to_be_bytes`. -/
def toBeBytes (n : Nat) : List UInt8 :=
  [UInt8.ofNat (n / 2 ^ 24), UInt8.ofNat (n / 2 ^ 16), UInt8.ofNat (n / 2 ^ 8), UInt8.ofNat n]

def payload (random : List UInt8) (message appId : List Char) : List UInt8 :=
  random ++ toBeBytes (len message) ++ utf8 message ++ utf8 appId

/-- 1 to 32 bytes are appended, each of which is their number. -/
def padBlocks (data : List UInt8) : List UInt8 :=
  let n := 32 - data.length % 32
  data ++ List.replicate n (UInt8.ofNat n)

/-- The `EncodingAESKey`. -/
def encodingAesKey (key : List UInt8) : List Char := (Base64.sextets key).map Base64.digit

def encryptMessage (cbcEncrypt : (key iv data : List UInt8) → List UInt8)
    (key random : List UInt8) (message appId : List Char) : List Char :=
  Base64.encode (cbcEncrypt key (key.take 16) (padBlocks (payload random message appId)))

/-! ### What is read back -/

section
variable {crates : Crates} {key random data out ciphertext : List UInt8}
  {message appId aesKey encrypted : List Char}
  {cbcEncrypt : (key iv data : List UInt8) → List UInt8} {n : Nat}

theorem fromBeBytes_toBeBytes (h : n < 2 ^ 32) : fromBeBytes (toBeBytes n) = n := by
  simp only [fromBeBytes, toBeBytes, List.foldl_cons, List.foldl_nil, UInt8.toNat_ofNat']
  omega

theorem length_payload (hrandom : random.length = 16) :
    (payload random message appId).length = 20 + len message + len appId := by
  simp only [payload, List.length_append, hrandom]
  rfl

/-- The message is read out of its payload. -/
theorem readPayload_payload (hrandom : random.length = 16) (hm : len message < 2 ^ 32) :
    readPayload crates (payload random message appId) = .ok message := by
  have hlength := @length_payload random message appId hrandom
  have hsize : fromBeBytes (((payload random message appId).drop 16).take 4) = len message := by
    have hhead : payload random message appId =
        random ++ (toBeBytes (len message) ++ (utf8 message ++ utf8 appId)) := by
      simp only [payload, List.append_assoc]
    have hfour : (toBeBytes (len message)).length = 4 := rfl
    rw [hhead, List.drop_left' hrandom, List.take_left' hfour, fromBeBytes_toBeBytes hm]
  have hcontent : ((payload random message appId).drop 20).take (len message) =
      utf8 message := by
    have hhead : payload random message appId =
        (random ++ toBeBytes (len message)) ++ (utf8 message ++ utf8 appId) := by
      simp only [payload, List.append_assoc]
    have htwenty : (random ++ toBeBytes (len message)).length = 20 := by
      rw [List.length_append, hrandom]
      rfl
    have hlen : (utf8 message).length = len message := rfl
    rw [hhead, List.drop_left' htwenty, List.take_left' hlen]
  rw [readPayload, hsize, hlength, if_neg (by omega)]
  dsimp only
  rw [if_neg (by omega), hcontent, fromUtf8_utf8]

theorem length_padBlocks : (padBlocks data).length % 32 = 0 ∧ 0 < (padBlocks data).length := by
  simp only [padBlocks, List.length_append, List.length_replicate]
  omega

/-- What was padded with 16 bytes or fewer is unpadded. -/
theorem unpad_padBlocks (hunpad : UnpadsBlocks crates.unpad) (h : 16 ≤ data.length % 32) :
    crates.unpad (padBlocks data) = .ok data := by
  obtain ⟨hblocks, hpos⟩ := @length_padBlocks data
  apply (hunpad _ _ (List.ne_nil_of_length_pos hpos) (by omega)).mpr
  exact ⟨32 - data.length % 32, by omega, by omega, rfl⟩

/-- The last byte is too large. -/
theorem unpad_padBlocks_error (hunpad : UnpadsBlocks crates.unpad) (h : data.length % 32 < 16) :
    crates.unpad (padBlocks data) ≠ .ok out := by
  obtain ⟨hblocks, hpos⟩ := @length_padBlocks data
  intro hout
  obtain ⟨n, hn, hle, heq⟩ :=
    (hunpad _ _ (List.ne_nil_of_length_pos hpos) (by omega)).mp hout
  have hlast := congrArg List.getLast? heq
  rw [padBlocks, List.getLast?_append_of_ne_nil _ (by simp; omega), List.getLast?_replicate,
    if_neg (by omega), List.getLast?_append_of_ne_nil _ (by simp; omega),
    List.getLast?_replicate, if_neg (by omega), Option.some.injEq] at hlast
  have hvalue := congrArg UInt8.toNat hlast
  rw [Base64.toNat_ofNat (by omega), Base64.toNat_ofNat (by omega)] at hvalue
  omega

/-- Once the key and the ciphertext are decoded, the rest is left to the crates. -/
theorem decryptMessage_decoded (hkey : decodeAesKey crates aesKey = .ok key)
    (hciphertext : crates.decode encrypted = .ok ciphertext)
    (hblocks : ciphertext.length % 16 = 0) (hne : ciphertext ≠ []) :
    decryptMessage crates aesKey encrypted =
      match crates.unpad (crates.cbcDecrypt key (key.take 16) ciphertext) with
      | .error e => .error ("AES decrypt failed: " ++ e)
      | .ok pt => readPayload crates pt := by
  have hpositive : ¬ ((decide (ciphertext.length % 16 ≠ 0) || ciphertext.isEmpty) = true) := by
    simp [hblocks, hne]
  simp only [decryptMessage, hkey, hciphertext, Except.mapError, bind, Except.bind]
  rw [if_neg hpositive]
  cases crates.unpad (crates.cbcDecrypt key (key.take 16) ciphertext) <;> rfl

theorem decryptMessage_encryptMessage (hdecode : Standard crates.decode)
    (hcbc : InvertsCbc cbcEncrypt crates.cbcDecrypt) (hkey : key.length = 32) :
    decryptMessage crates (encodingAesKey key)
        (encryptMessage cbcEncrypt key random message appId) =
      match crates.unpad (padBlocks (payload random message appId)) with
      | .error e => .error ("AES decrypt failed: " ++ e)
      | .ok pt => readPayload crates pt := by
  obtain ⟨hblocks, hpos⟩ := @length_padBlocks (payload random message appId)
  obtain ⟨hinverse, hlength⟩ := hcbc key (key.take 16) (padBlocks (payload random message appId))
    hkey (by rw [List.length_take, hkey]; rfl) (by omega)
  have hdecoded : decodeAesKey crates (encodingAesKey key) = .ok key := by
    apply (decodeAesKey_ok hdecode).mpr
    refine ⟨?_, hkey⟩
    rw [encodingAesKey, pushEquals_isKeyText (isKeyText_sextets hkey).1, encode_key hkey]
  rw [encryptMessage, decryptMessage_decoded hdecoded ((hdecode _ _).mpr rfl), hinverse]
  · omega
  · apply List.ne_nil_of_length_pos
    omega

/-- A message is decrypted exactly where its padding fits into a block of 16. -/
theorem decryptMessage_encryptMessage_iff (hdecode : Standard crates.decode)
    (hcbc : InvertsCbc cbcEncrypt crates.cbcDecrypt) (hunpad : UnpadsBlocks crates.unpad)
    (hkey : key.length = 32) (hrandom : random.length = 16) (hm : len message < 2 ^ 32) :
    decryptMessage crates (encodingAesKey key)
        (encryptMessage cbcEncrypt key random message appId) = .ok message ↔
      16 ≤ (20 + len message + len appId) % 32 := by
  rw [decryptMessage_encryptMessage hdecode hcbc hkey, ← length_payload hrandom]
  by_cases hfits : 16 ≤ (payload random message appId).length % 32
  · rw [unpad_padBlocks hunpad hfits]
    exact iff_of_true (readPayload_payload hrandom hm) hfits
  · refine iff_of_false ?_ hfits
    cases hresult : crates.unpad (padBlocks (payload random message appId)) with
    | error e => simp
    | ok pt => exact absurd hresult (unpad_padBlocks_error hunpad (Nat.lt_of_not_le hfits))

end

/-! ### Two messages -/

def zeroKey : List UInt8 := List.replicate 32 0

/-- AES-256-CBC with the zero key on the blocks `plain`, which it encrypts to `cipher`. -/
def swapBlocks (plain cipher key iv data : List UInt8) : List UInt8 :=
  if key = zeroKey ∧ iv = zeroKey.take 16 then
    if data = plain then cipher else if data = cipher then plain else data
  else data

theorem invertsCbc_swapBlocks {plain cipher : List UInt8} (h : plain.length = cipher.length) :
    InvertsCbc (swapBlocks plain cipher) (swapBlocks plain cipher) := by
  intro key iv data _ _ _
  by_cases hzero : key = zeroKey ∧ iv = zeroKey.take 16
  · simp only [swapBlocks, if_pos hzero]
    by_cases hplain : data = plain
    · by_cases hsame : cipher = plain <;> simp [hplain, hsame, h]
    · by_cases hcipher : data = cipher
      · have hother : cipher ≠ plain := hcipher ▸ hplain
        simp [hcipher, hother, h]
      · simp [hplain, hcipher]
  · simp [swapBlocks, if_neg hzero]

/-- The message `hi` for the app id `wx1234`, with a random part of zeros. -/
def fittingPlain : List UInt8 :=
  padBlocks (payload (List.replicate 16 0) ['h', 'i'] ['w', 'x', '1', '2', '3', '4'])

def fittingCipher : List UInt8 :=
  [220, 149, 192, 120, 162, 64, 137, 137, 173, 72, 162, 20, 146, 132, 32, 135,
    247, 186, 250, 143, 16, 49, 112, 232, 120, 197, 127, 38, 88, 186, 10, 35]

theorem decryptMessage_encryptMessage_iff_fitting :
    decryptMessage (tableCrates (swapBlocks fittingPlain fittingCipher)) (encodingAesKey zeroKey)
        (encryptMessage (swapBlocks fittingPlain fittingCipher) zeroKey (List.replicate 16 0)
          ['h', 'i'] ['w', 'x', '1', '2', '3', '4']) = .ok ['h', 'i'] ↔
      16 ≤ (20 + len ['h', 'i'] + len ['w', 'x', '1', '2', '3', '4']) % 32 :=
  decryptMessage_encryptMessage_iff standard_decodeStandard (invertsCbc_swapBlocks rfl)
    unpadsBlocks_unpadBlocks rfl rfl (by decide)

/-- The same message for the app id `wx12345678` fills its block of 32, and another is added. -/
def fullPlain : List UInt8 :=
  padBlocks (payload (List.replicate 16 0) ['h', 'i']
    ['w', 'x', '1', '2', '3', '4', '5', '6', '7', '8'])

def fullCipher : List UInt8 :=
  [220, 149, 192, 120, 162, 64, 137, 137, 173, 72, 162, 20, 146, 132, 32, 135,
    66, 217, 73, 125, 211, 22, 173, 158, 11, 75, 125, 26, 103, 207, 176, 126,
    210, 116, 202, 6, 252, 58, 64, 83, 4, 136, 232, 21, 164, 90, 144, 161,
    98, 147, 142, 20, 254, 28, 174, 41, 167, 227, 119, 82, 160, 254, 43, 14]

/-- It is not decrypted. -/
theorem decryptMessage_encryptMessage_full :
    Standard (tableCrates (swapBlocks fullPlain fullCipher)).decode ∧
      InvertsCbc (swapBlocks fullPlain fullCipher)
        (tableCrates (swapBlocks fullPlain fullCipher)).cbcDecrypt ∧
      UnpadsBlocks (tableCrates (swapBlocks fullPlain fullCipher)).unpad ∧
      decryptMessage (tableCrates (swapBlocks fullPlain fullCipher)) (encodingAesKey zeroKey)
        (encryptMessage (swapBlocks fullPlain fullCipher) zeroKey (List.replicate 16 0)
          ['h', 'i'] ['w', 'x', '1', '2', '3', '4', '5', '6', '7', '8']) ≠ .ok ['h', 'i'] := by
  have hcbc : InvertsCbc (swapBlocks fullPlain fullCipher) (swapBlocks fullPlain fullCipher) :=
    invertsCbc_swapBlocks rfl
  refine ⟨standard_decodeStandard, hcbc, unpadsBlocks_unpadBlocks, ?_⟩
  rw [decryptMessage_encryptMessage standard_decodeStandard hcbc rfl]
  cases hresult : (tableCrates (swapBlocks fullPlain fullCipher)).unpad (padBlocks
      (payload (List.replicate 16 0) ['h', 'i']
        ['w', 'x', '1', '2', '3', '4', '5', '6', '7', '8'])) with
  | error e => simp
  | ok pt => exact absurd hresult (unpad_padBlocks_error unpadsBlocks_unpadBlocks (by decide))

end AesCrypto

end Webshelf
