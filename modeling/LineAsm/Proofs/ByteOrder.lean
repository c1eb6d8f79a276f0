import Mathlib.Algebra.Group.Nat.Defs
import Mathlib.Tactic.SplitIfs

/-!
# Texts in the order of their bytes

Texts are compared character by character, and stored as UTF-8 they can be compared byte by byte. It
comes to the same. The first byte of a character grows with the number of bytes behind it, so that
of two characters with encodings of different length the longer one is the greater. Encodings of one
length are the digits of the character in base 64, the highest one first.

Results:
* `utf8EncodeChar_eq`: the encoding of a character by its digits.
* `leadByte_lt_or`, `tailBytes_append_lt`: where the encodings of two characters part.
* `utf8Bytes_lt_iff`, `compare_eq_lt_iff_bytes`: what follows for texts.
-/
namespace LineAsm

/-- The bytes of a text in UTF-8. -/
def utf8Bytes (text : String) : List UInt8 := text.toByteArray.data.toList

theorem utf8Bytes_eq (text : String) :
    utf8Bytes text = text.toList.flatMap String.utf8EncodeChar := by
  unfold utf8Bytes
  rw [← String.utf8Encode_toList, List.utf8Encode, List.data_toByteArray]

/-! ## The encoding of a character -/

/-- How many bytes stand behind the first byte of the character with a number. -/
def tailLength (v : Nat) : Nat :=
  if v ≤ 0x7f then 0 else if v ≤ 0x7ff then 1 else if v ≤ 0xffff then 2 else 3

/-- What the first byte of a character starts at, by the number of bytes behind it. -/
def leadMark : Nat → Nat
  | 0 => 0
  | 1 => 0xc0
  | 2 => 0xe0
  | _ => 0xf0

/-- The first byte: the highest digit in base 64, above the mark of the length. -/
def leadByte (v : Nat) : Nat := v / 64 ^ tailLength v + leadMark (tailLength v)

/-- The last `n` digits of a number in base 64, each in a byte of its own. -/
def tailBytes : (n v : Nat) → List UInt8
  | 0, _ => []
  | n + 1, v => UInt8.ofNat (v / 64 ^ n % 64 + 0x80) :: tailBytes n v

theorem toNat_le_max (c : Char) : c.toNat ≤ 0x10ffff := by
  have hvalid := c.valid
  simp only [UInt32.isValidChar, Nat.isValidChar] at hvalid
  unfold Char.toNat
  omega

/-- The four lengths of an encoding. -/
theorem tailLength_cases (v : Nat) :
    (v ≤ 0x7f ∧ tailLength v = 0 ∧ leadByte v = v) ∨
    (0x7f < v ∧ v ≤ 0x7ff ∧ tailLength v = 1 ∧ leadByte v = v / 64 + 0xc0) ∨
    (0x7ff < v ∧ v ≤ 0xffff ∧ tailLength v = 2 ∧ leadByte v = v / 4096 + 0xe0) ∨
    (0xffff < v ∧ tailLength v = 3 ∧ leadByte v = v / 262144 + 0xf0) := by
  unfold leadByte tailLength
  split_ifs <;> simp [leadMark] <;> omega

theorem leadByte_lt {v : Nat} (h : v ≤ 0x10ffff) : leadByte v < 256 := by
  have := tailLength_cases v
  omega

theorem utf8EncodeChar_eq (c : Char) :
    String.utf8EncodeChar c =
      UInt8.ofNat (leadByte c.toNat) :: tailBytes (tailLength c.toNat) c.toNat := by
  have hmax := toNat_le_max c
  unfold String.utf8EncodeChar
  unfold Char.toNat at hmax ⊢
  dsimp only
  generalize c.val.toNat = v at hmax ⊢
  -- the highest digit has room beside the mark, so taking it modulo that room changes nothing
  rcases tailLength_cases v with ⟨h, ht, hl⟩ | ⟨h, h', ht, hl⟩ | ⟨h, h', ht, hl⟩ | ⟨h, ht, hl⟩
  · rw [ht, hl, if_pos h, tailBytes]
  · have hdigit : v / 64 % 0x20 = v / 64 := by omega
    rw [ht, hl, if_neg (by omega), if_pos h', hdigit]
    simp [tailBytes]
  · have hdigit : v / 4096 % 0x10 = v / 4096 := by omega
    rw [ht, hl, if_neg (by omega), if_neg (by omega), if_pos h', hdigit]
    simp [tailBytes]
  · have hdigit : v / 262144 % 0x08 = v / 262144 := by omega
    rw [ht, hl, if_neg (by omega), if_neg (by omega), if_neg (by omega), hdigit]
    simp [tailBytes]

/-! ## Where two encodings part -/

/-- The greater of two characters has the greater first byte, or the same first byte and greater
digits behind it. -/
theorem leadByte_lt_or {v w : Nat} (h : v < w) :
    leadByte v < leadByte w ∨ leadByte v = leadByte w ∧ tailLength v = tailLength w ∧
      v % 64 ^ tailLength w < w % 64 ^ tailLength w := by
  have hv := tailLength_cases v
  rcases tailLength_cases w with ⟨_, ht, hl⟩ | ⟨_, _, ht, hl⟩ | ⟨_, _, ht, hl⟩ | ⟨_, ht, hl⟩ <;>
    rw [ht, hl] <;> simp only [Nat.reducePow] <;> omega

theorem byte_cons_lt {x y : Nat} (hx : x < 256) (hy : y < 256) {s t : List UInt8}
    (h : x < y ∨ x = y ∧ s < t) : UInt8.ofNat x :: s < UInt8.ofNat y :: t := by
  rw [List.cons_lt_cons_iff, UInt8.ofNat_lt_iff_lt hx hy]
  rcases h with h | ⟨rfl, h⟩
  · exact .inl h
  · exact .inr ⟨rfl, h⟩

theorem tailBytes_append_lt {n v w : Nat} (h : v % 64 ^ n < w % 64 ^ n) (s t : List UInt8) :
    tailBytes n v ++ s < tailBytes n w ++ t := by
  induction n with
  | zero => simp [Nat.mod_one] at h
  | succ n ih =>
    rw [Nat.mod_pow_succ, Nat.mod_pow_succ] at h
    have hv : v % 64 ^ n < 64 ^ n := Nat.mod_lt _ (Nat.pow_pos (by decide))
    have hw : w % 64 ^ n < 64 ^ n := Nat.mod_lt _ (Nat.pow_pos (by decide))
    apply byte_cons_lt (by omega) (by omega)
    rcases Nat.lt_trichotomy (v / 64 ^ n % 64) (w / 64 ^ n % 64) with hdigit | hdigit | hdigit
    · exact .inl (by omega)
    · rw [hdigit] at h
      exact .inr ⟨by omega, ih (by omega)⟩
    · -- a greater digit outweighs all that follows
      have hstep := Nat.mul_le_mul_left (64 ^ n) hdigit
      rw [Nat.mul_succ] at hstep
      omega

theorem utf8EncodeChar_append_lt {c d : Char} (h : c < d) (s t : List UInt8) :
    String.utf8EncodeChar c ++ s < String.utf8EncodeChar d ++ t := by
  have hnumber : c.toNat < d.toNat := h
  rw [utf8EncodeChar_eq, utf8EncodeChar_eq, List.cons_append, List.cons_append]
  apply byte_cons_lt (leadByte_lt (toNat_le_max c)) (leadByte_lt (toNat_le_max d))
  rcases leadByte_lt_or hnumber with hlead | ⟨hlead, hlength, htail⟩
  · exact .inl hlead
  · exact .inr ⟨hlead, hlength ▸ tailBytes_append_lt htail s t⟩

/-! ## Texts -/

theorem flatMap_utf8EncodeChar_lt {a b : List Char} (h : a < b) :
    a.flatMap String.utf8EncodeChar < b.flatMap String.utf8EncodeChar := by
  induction h with
  | nil =>
    rw [List.flatMap_nil, List.flatMap_cons, utf8EncodeChar_eq]
    exact List.nil_lt_cons _ _
  | rel hchar =>
    rw [List.flatMap_cons, List.flatMap_cons]
    exact utf8EncodeChar_append_lt hchar _ _
  | cons _ ih =>
    rw [List.flatMap_cons, List.flatMap_cons]
    exact List.append_left_lt ih

/-- **Byte order.** Texts are in the order of their bytes. -/
theorem utf8Bytes_lt_iff {a b : String} : utf8Bytes a < utf8Bytes b ↔ a < b := by
  rw [utf8Bytes_eq, utf8Bytes_eq]
  refine ⟨fun h => ?_, flatMap_utf8EncodeChar_lt⟩
  by_cases hlt : a < b
  · exact hlt
  · by_cases hgt : b < a
    · exact absurd (flatMap_utf8EncodeChar_lt hgt) (List.lt_asymm h)
    · have heq : a = b := String.le_antisymm (String.not_lt.1 hgt) (String.not_lt.1 hlt)
      rw [heq] at h
      exact absurd h (List.lt_irrefl _)

theorem compare_eq_lt_iff_bytes {a b : String} :
    compare a b = .lt ↔ utf8Bytes a < utf8Bytes b := by
  rw [utf8Bytes_lt_iff]
  exact compareOfLessAndEq_eq_lt

end LineAsm
