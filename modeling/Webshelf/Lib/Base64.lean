import Mathlib.Data.List.Basic
import Mathlib.Algebra.Group.Nat.Defs

/-!
# Base64

Three bytes are four characters of 6 bits each. What is left over at the end is filled up with
zero bits, and the text with `=` to a multiple of four.

* `decode_eq_some`: the texts that decode are those that bytes encode to;
* `octets_bits`: decoding keeps the bits, but for those that fill no byte.
-/

namespace Base64

/-- The low `n` bits of a number, the highest one first. -/
def bits : Nat → Nat → List Bool
  | 0, _ => []
  | n + 1, x => x.testBit n :: bits n x

def alphabet : List Char :=
  "ABCDEFGHIJKLMNOPQRSTUVWXYZabcdefghijklmnopqrstuvwxyz0123456789+/".toList

def digit (n : Nat) : Char := alphabet.getD n '='

def value (c : Char) : Nat := alphabet.idxOf c

def sextets : List UInt8 → List Nat
  | a :: b :: c :: rest =>
    a.toNat / 4 :: (a.toNat % 4 * 16 + b.toNat / 16) :: (b.toNat % 16 * 4 + c.toNat / 64) ::
      c.toNat % 64 :: sextets rest
  | [a, b] => [a.toNat / 4, a.toNat % 4 * 16 + b.toNat / 16, b.toNat % 16 * 4]
  | [a] => [a.toNat / 4, a.toNat % 4 * 16]
  | [] => []

/-- Bits that fill no byte are dropped. -/
def octets : List Nat → List UInt8
  | w :: x :: y :: z :: rest =>
    UInt8.ofNat (w * 4 + x / 16) :: UInt8.ofNat (x % 16 * 16 + y / 4) ::
      UInt8.ofNat (y % 4 * 64 + z) :: octets rest
  | [w, x, y] => [UInt8.ofNat (w * 4 + x / 16), UInt8.ofNat (x % 16 * 16 + y / 4)]
  | [w, x] => [UInt8.ofNat (w * 4 + x / 16)]
  | [_] | [] => []

def padding (bytes : Nat) : List Char := List.replicate ((3 - bytes % 3) % 3) '='

def encode (bytes : List UInt8) : List Char :=
  (sextets bytes).map digit ++ padding bytes.length

/-- Only what is written as `encode` writes it is accepted. -/
def decode (text : List Char) : Option (List UInt8) :=
  let bytes := octets ((text.takeWhile (alphabet.contains ·)).map value)
  if encode bytes = text then some bytes else none

variable {c : Char} {n : Nat} {bytes : List UInt8} {v : List Nat} {text : List Char}

/-! ### Characters -/

theorem length_alphabet : alphabet.length = 64 := by decide

theorem nodup_alphabet : alphabet.Nodup := by decide

theorem equals_not_mem : '=' ∉ alphabet := by decide

theorem value_lt (h : c ∈ alphabet) : value c < 64 := by
  rw [← length_alphabet]
  exact List.idxOf_lt_length_of_mem h

theorem digit_value (h : c ∈ alphabet) : digit (value c) = c := by
  have hlt := List.idxOf_lt_length_of_mem h
  rw [digit, value, List.getD_eq_getElem?_getD, List.getElem?_eq_getElem hlt, Option.getD_some]
  exact List.getElem_idxOf hlt

theorem digit_mem (h : n < 64) : digit n ∈ alphabet := by
  rw [← length_alphabet] at h
  rw [digit, List.getD_eq_getElem?_getD, List.getElem?_eq_getElem h, Option.getD_some]
  exact List.getElem_mem h

theorem value_digit (h : n < 64) : value (digit n) = n := by
  rw [← length_alphabet] at h
  rw [digit, List.getD_eq_getElem?_getD, List.getElem?_eq_getElem h, Option.getD_some]
  exact List.Nodup.idxOf_getElem nodup_alphabet n h

/-! ### Groups -/

theorem sextets_lt : ∀ {bytes : List UInt8}, ∀ n ∈ sextets bytes, n < 64
  | [], n, h => by simp [sextets] at h
  | [a], n, h => by
    have := a.toNat_lt
    simp only [sextets, List.mem_cons, List.not_mem_nil, or_false] at h
    omega
  | [a, b], n, h => by
    have := a.toNat_lt
    have := b.toNat_lt
    simp only [sextets, List.mem_cons, List.not_mem_nil, or_false] at h
    omega
  | a :: b :: c :: rest, n, h => by
    have := a.toNat_lt
    have := b.toNat_lt
    have := c.toNat_lt
    have ih := @sextets_lt rest n
    simp only [sextets, List.mem_cons] at h
    obtain h | h | h | h | h := h
    · omega
    · omega
    · omega
    · omega
    · exact ih h

theorem ofNat_toNat {a : UInt8} (h : n = a.toNat) : UInt8.ofNat n = a := by
  rw [h, UInt8.ofNat_toNat]

theorem octets_sextets : ∀ {bytes : List UInt8}, octets (sextets bytes) = bytes
  | [] => rfl
  | [a] => by
    have := a.toNat_lt
    have ha : UInt8.ofNat (a.toNat / 4 * 4 + a.toNat % 4 * 16 / 16) = a :=
      ofNat_toNat (by omega)
    rw [sextets, octets, ha]
  | [a, b] => by
    have := a.toNat_lt
    have := b.toNat_lt
    have ha : UInt8.ofNat (a.toNat / 4 * 4 + (a.toNat % 4 * 16 + b.toNat / 16) / 16) = a :=
      ofNat_toNat (by omega)
    have hb : UInt8.ofNat ((a.toNat % 4 * 16 + b.toNat / 16) % 16 * 16 +
        b.toNat % 16 * 4 / 4) = b :=
      ofNat_toNat (by omega)
    rw [sextets, octets, ha, hb]
  | a :: b :: c :: rest => by
    have := a.toNat_lt
    have := b.toNat_lt
    have := c.toNat_lt
    have ha : UInt8.ofNat (a.toNat / 4 * 4 + (a.toNat % 4 * 16 + b.toNat / 16) / 16) = a :=
      ofNat_toNat (by omega)
    have hb : UInt8.ofNat ((a.toNat % 4 * 16 + b.toNat / 16) % 16 * 16 +
        (b.toNat % 16 * 4 + c.toNat / 64) / 4) = b :=
      ofNat_toNat (by omega)
    have hc : UInt8.ofNat ((b.toNat % 16 * 4 + c.toNat / 64) % 4 * 64 + c.toNat % 64) = c :=
      ofNat_toNat (by omega)
    rw [sextets, octets, ha, hb, hc, octets_sextets]

theorem length_sextets : ∀ {bytes : List UInt8},
    (sextets bytes).length = (4 * bytes.length + 2) / 3
  | [] | [_] | [_, _] => by simp [sextets]
  | a :: b :: c :: rest => by
    have ih := @length_sextets rest
    simp only [sextets, List.length_cons]
    omega

theorem length_octets : ∀ {v : List Nat}, (octets v).length = 3 * v.length / 4
  | [] | [_] | [_, _] | [_, _, _] => by simp [octets]
  | w :: x :: y :: z :: rest => by
    have ih := @length_octets rest
    simp only [octets, List.length_cons]
    omega

theorem getLast?_cons_of_ne_nil {α : Type} {a : α} {l : List α} (h : l ≠ []) :
    (a :: l).getLast? = l.getLast? := by
  cases l with
  | nil => exact absurd rfl h
  | cons b l => rw [List.getLast?_cons_cons]

/-- Two bytes are three sextets, and two bits that are zero. -/
theorem sextets_getLast : ∀ {bytes : List UInt8}, bytes.length % 3 = 2 →
    ∀ n ∈ (sextets bytes).getLast?, n % 4 = 0
  | [], h => by simp at h
  | [_], h => by simp at h
  | [a, b], _ => by
    intro n hn
    simp only [sextets, List.getLast?_cons_cons, List.getLast?_singleton, Option.mem_def,
      Option.some.injEq] at hn
    omega
  | a :: b :: c :: rest, h => by
    have hrest : rest.length % 3 = 2 := by
      simp only [List.length_cons] at h
      omega
    have hne : sextets rest ≠ [] := by
      intro hnil
      have hlength := congrArg List.length hnil
      rw [length_sextets, List.length_nil] at hlength
      omega
    intro n hn
    simp only [sextets, List.getLast?_cons_cons] at hn
    rw [getLast?_cons_of_ne_nil hne] at hn
    exact sextets_getLast hrest n hn

theorem toNat_ofNat (h : n < 256) : (UInt8.ofNat n).toNat = n := by
  rw [UInt8.toNat_ofNat']
  exact Nat.mod_eq_of_lt h

section
variable {w x y z : Nat}

/-- The three bytes of a group of sextets. -/
theorem toNat_first (hw : w < 64) (hx : x < 64) :
    (UInt8.ofNat (w * 4 + x / 16)).toNat = w * 4 + x / 16 := toNat_ofNat (by omega)

theorem toNat_second (hy : y < 64) :
    (UInt8.ofNat (x % 16 * 16 + y / 4)).toNat = x % 16 * 16 + y / 4 := toNat_ofNat (by omega)

theorem toNat_third (hz : z < 64) :
    (UInt8.ofNat (y % 4 * 64 + z)).toNat = y % 4 * 64 + z := toNat_ofNat (by omega)

end

/-- And three sextets that end in two such bits are two bytes. -/
theorem sextets_octets : ∀ {v : List Nat}, v.length % 4 = 3 → (∀ n ∈ v, n < 64) →
    (∀ n ∈ v.getLast?, n % 4 = 0) → sextets (octets v) = v
  | [], h, _, _ => by simp at h
  | [_], h, _, _ => by simp at h
  | [_, _], h, _, _ => by simp at h
  | [w, x, y], _, hlt, hlast => by
    have hw : w < 64 := hlt w (by simp)
    have hx : x < 64 := hlt x (by simp)
    have hy : y < 64 := hlt y (by simp)
    have hzero : y % 4 = 0 := hlast y (by simp)
    rw [octets, sextets, toNat_first hw hx, toNat_second hy, show (w * 4 + x / 16) / 4 = w by omega,
      show (w * 4 + x / 16) % 4 * 16 + (x % 16 * 16 + y / 4) / 16 = x by omega,
      show (x % 16 * 16 + y / 4) % 16 * 4 = y by omega]
  | w :: x :: y :: z :: rest, h, hlt, hlast => by
    have hrest : rest.length % 4 = 3 := by
      simp only [List.length_cons] at h
      omega
    have hne : rest ≠ [] := by
      rintro rfl
      cases hrest
    have ih := sextets_octets hrest (fun n hn => hlt n (by simp [hn])) fun n hn => hlast n (by
      rw [List.getLast?_cons_cons, List.getLast?_cons_cons, List.getLast?_cons_cons,
        getLast?_cons_of_ne_nil hne]
      exact hn)
    have hw : w < 64 := hlt w (by simp)
    have hx : x < 64 := hlt x (by simp)
    have hy : y < 64 := hlt y (by simp)
    have hz : z < 64 := hlt z (by simp)
    rw [octets, sextets, toNat_first hw hx, toNat_second hy, toNat_third hz, ih, show (w * 4 + x / 16) / 4 = w by omega,
      show (w * 4 + x / 16) % 4 * 16 + (x % 16 * 16 + y / 4) / 16 = x by omega,
      show (x % 16 * 16 + y / 4) % 16 * 4 + (y % 4 * 64 + z) / 64 = y by omega,
      show (y % 4 * 64 + z) % 64 = z by omega]

/-! ### Texts -/

theorem takeWhile_encode :
    (encode bytes).takeWhile (alphabet.contains ·) = (sextets bytes).map digit := by
  have hdigits : ∀ c ∈ (sextets bytes).map digit, alphabet.contains c = true := by
    intro c hc
    obtain ⟨n, hn, rfl⟩ := List.mem_map.mp hc
    exact List.contains_iff_mem.mpr (digit_mem (sextets_lt n hn))
  have hpadding : (padding bytes.length).takeWhile (alphabet.contains ·) = [] := by
    rw [padding]
    cases (3 - bytes.length % 3) % 3 with
    | zero => rfl
    | succ k =>
      rw [List.replicate_succ, List.takeWhile_cons_of_neg]
      decide
  rw [encode, List.takeWhile_append_of_pos hdigits, hpadding, List.append_nil]

theorem map_value_digit (h : ∀ n ∈ v, n < 64) : (v.map digit).map value = v := by
  rw [List.map_map]
  exact (List.map_congr_left fun n hn => value_digit (h n hn)).trans (List.map_id v)

theorem map_digit_value (h : ∀ c ∈ text, c ∈ alphabet) : (text.map value).map digit = text := by
  rw [List.map_map]
  exact (List.map_congr_left fun c hc => digit_value (h c hc)).trans (List.map_id text)

/-- The texts that decode are those that bytes encode to. -/
theorem decode_eq_some : decode text = some bytes ↔ text = encode bytes := by
  unfold decode
  constructor
  · intro h
    dsimp only at h
    split at h
    · rename_i heq
      rw [← Option.some.inj h, heq]
    · cases h
  · rintro rfl
    rw [takeWhile_encode, map_value_digit sextets_lt, octets_sextets]
    exact if_pos rfl

/-! ### Bits -/

theorem bits_append {lo hi : Nat} (h : lo < 2 ^ n) (m : Nat) :
    bits (m + n) (hi * 2 ^ n + lo) = bits m hi ++ bits n lo := by
  have hlow : ∀ k ≤ n, bits k (hi * 2 ^ n + lo) = bits k lo := by
    intro k hk
    induction k with
    | zero => rfl
    | succ k ih =>
      rw [bits, bits, ih (Nat.le_of_succ_le hk), Nat.mul_comm,
        Nat.testBit_two_pow_mul_add hi h k, if_pos (Nat.lt_of_succ_le hk)]
  induction m with
  | zero =>
    rw [Nat.zero_add]
    exact hlow n (Nat.le_refl n)
  | succ m ih =>
    rw [Nat.succ_add, bits, bits, ih, Nat.mul_comm, Nat.testBit_two_pow_mul_add hi h (m + n),
      if_neg (by omega), Nat.add_sub_cancel]
    rfl

theorem length_bits (x : Nat) : (bits n x).length = n := by
  induction n with
  | zero => rfl
  | succ n ih => rw [bits, List.length_cons, ih]

/-- The bits of a byte that is made of two parts. -/
theorem bits_byte {m k hi lo : Nat} (hm : m + k = 8) (hhi : hi < 2 ^ m) (hlo : lo < 2 ^ k) :
    bits 8 (UInt8.ofNat (hi * 2 ^ k + lo)).toNat = bits m hi ++ bits k lo := by
  have hlt : hi * 2 ^ k + lo < 256 := by
    have hle : (hi + 1) * 2 ^ k ≤ 2 ^ m * 2 ^ k := Nat.mul_le_mul_right _ hhi
    rw [← Nat.pow_add, hm, Nat.add_mul] at hle
    omega
  rw [toNat_ofNat hlt, ← hm, bits_append hlo]

/-- The bits of a sextet, in two parts. -/
theorem bits_sextet {m k : Nat} (hm : m + k = 6) (x : Nat) :
    bits 6 x = bits m (x / 2 ^ k) ++ bits k (x % 2 ^ k) := by
  rw [← bits_append (Nat.mod_lt _ (Nat.two_pow_pos k)), hm, Nat.mul_comm, Nat.div_add_mod]

section
variable {w x y z : Nat}

theorem bits_first (hw : w < 64) (hx : x < 64) :
    bits 8 (UInt8.ofNat (w * 4 + x / 16)).toNat = bits 6 w ++ bits 2 (x / 16) :=
  bits_byte (m := 6) (k := 2) rfl hw (by omega)

theorem bits_second (hy : y < 64) :
    bits 8 (UInt8.ofNat (x % 16 * 16 + y / 4)).toNat = bits 4 (x % 16) ++ bits 4 (y / 4) :=
  bits_byte (m := 4) (k := 4) rfl (by omega) (by omega)

theorem bits_third (hz : z < 64) :
    bits 8 (UInt8.ofNat (y % 4 * 64 + z)).toNat = bits 2 (y % 4) ++ bits 6 z :=
  bits_byte (m := 2) (k := 6) rfl (by omega) hz

theorem bits_two_four : bits 6 x = bits 2 (x / 16) ++ bits 4 (x % 16) :=
  bits_sextet (m := 2) (k := 4) rfl x

theorem bits_four_two : bits 6 y = bits 4 (y / 4) ++ bits 2 (y % 4) :=
  bits_sextet (m := 4) (k := 2) rfl y

/-- A group has the bits of its four sextets. -/
theorem bits_group (hw : w < 64) (hx : x < 64) (hy : y < 64) (hz : z < 64) :
    bits 8 (UInt8.ofNat (w * 4 + x / 16)).toNat ++
        (bits 8 (UInt8.ofNat (x % 16 * 16 + y / 4)).toNat ++
          bits 8 (UInt8.ofNat (y % 4 * 64 + z)).toNat) =
      bits 6 w ++ (bits 6 x ++ (bits 6 y ++ bits 6 z)) := by
  rw [bits_first hw hx, bits_second hy, bits_third hz, @bits_two_four x, @bits_four_two y]
  simp only [List.append_assoc]

end

/-- Decoding keeps the bits, but for those at the end that fill no byte. -/
theorem octets_bits : ∀ {v : List Nat}, (∀ n ∈ v, n < 64) →
    (octets v).flatMap (fun b => bits 8 b.toNat) =
      (v.flatMap (bits 6)).take (8 * (octets v).length)
  | [], _ => rfl
  | [w], _ => by simp [octets]
  | [w, x], h => by
    have hw : w < 64 := h w (by simp)
    have hx : x < 64 := h x (by simp)
    have hlength : (bits 6 w ++ bits 2 (x / 16)).length = 8 := by simp [length_bits]
    simp only [octets, List.flatMap_cons, List.flatMap_nil, List.append_nil]
    rw [bits_first hw hx, @bits_two_four x, ← List.append_assoc]
    exact (List.take_left' hlength).symm
  | [w, x, y], h => by
    have hw : w < 64 := h w (by simp)
    have hx : x < 64 := h x (by simp)
    have hy : y < 64 := h y (by simp)
    have hlength : (bits 6 w ++ bits 2 (x / 16) ++ (bits 4 (x % 16) ++ bits 4 (y / 4))).length =
        16 := by
      simp [length_bits]
    have hsplit : bits 6 w ++ (bits 6 x ++ bits 6 y) =
        bits 6 w ++ bits 2 (x / 16) ++ (bits 4 (x % 16) ++ bits 4 (y / 4)) ++ bits 2 (y % 4) := by
      rw [@bits_two_four x, @bits_four_two y]
      simp only [List.append_assoc]
    simp only [octets, List.flatMap_cons, List.flatMap_nil, List.append_nil]
    rw [bits_first hw hx, bits_second hy, hsplit]
    exact (List.take_left' hlength).symm
  | w :: x :: y :: z :: rest, h => by
    have hw : w < 64 := h w (by simp)
    have hx : x < 64 := h x (by simp)
    have hy : y < 64 := h y (by simp)
    have hz : z < 64 := h z (by simp)
    have ih := octets_bits (v := rest) fun n hn => h n (by simp [hn])
    have hlength : (bits 6 w ++ (bits 6 x ++ (bits 6 y ++ bits 6 z))).length = 24 := by
      simp [length_bits]
    have hcount : 8 * (octets (w :: x :: y :: z :: rest)).length =
        24 + 8 * (octets rest).length := by
      simp only [octets, List.length_cons]
      omega
    have hsplit : bits 6 w ++ (bits 6 x ++ (bits 6 y ++ (bits 6 z ++ rest.flatMap (bits 6)))) =
        bits 6 w ++ (bits 6 x ++ (bits 6 y ++ bits 6 z)) ++ rest.flatMap (bits 6) := by
      simp only [List.append_assoc]
    rw [hcount]
    simp only [octets, List.flatMap_cons]
    rw [ih, hsplit, ← hlength, List.take_length_add_append,
      ← bits_group hw hx hy hz]
    simp only [List.append_assoc]

end Base64
