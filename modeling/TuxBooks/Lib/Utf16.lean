import Mathlib.Data.List.Basic
import Mathlib.Tactic.Common

set_option relaxedAutoImplicit false
set_option autoImplicit false

/-!
# UTF-16

Text as a sequence of code units, and the units as pairs of bytes with the high byte first. A
character beyond the first 65536 becomes two units, the surrogates, which no other character uses;
a surrogate without its partner is read as the replacement character.

## Main definitions

* `Utf16.units`, `Utf16.encode` — the units of a character and of a text.
* `Utf16.decode` — the text of a sequence of units.
* `Utf16.toBytes`, `Utf16.ofBytes` — units as bytes, and back.

## Main results

* `Utf16.decode_encode` — every text is read back.
* `Utf16.ofBytes_toBytes` — every sequence of units is read back.
-/

namespace Utf16

/-! ## Units -/

def isHigh (unit : UInt16) : Bool := 0xD800 ≤ unit.toNat && unit.toNat < 0xDC00

def isLow (unit : UInt16) : Bool := 0xDC00 ≤ unit.toNat && unit.toNat < 0xE000

lemma isHigh_eq_false {unit : UInt16} (h : unit.toNat < 0xD800 ∨ 0xDC00 ≤ unit.toNat) :
    isHigh unit = false := by
  rw [isHigh, Bool.and_eq_false_iff]
  simp only [decide_eq_false_iff_not]
  omega

lemma isLow_eq_false {unit : UInt16} (h : unit.toNat < 0xDC00 ∨ 0xE000 ≤ unit.toNat) :
    isLow unit = false := by
  rw [isLow, Bool.and_eq_false_iff]
  simp only [decide_eq_false_iff_not]
  omega

/-- The code units of a character. -/
def units (c : Char) : List UInt16 :=
  if c.toNat < 0x10000 then [.ofNat c.toNat]
  else
    [.ofNat (0xD800 + (c.toNat - 0x10000) / 0x400), .ofNat (0xDC00 + (c.toNat - 0x10000) % 0x400)]

def encode (text : List Char) : List UInt16 := text.flatMap units

/-- The character of two surrogates. -/
def pair (high low : UInt16) : Char :=
  Char.ofNat (0x10000 + (high.toNat - 0xD800) * 0x400 + (low.toNat - 0xDC00))

/-- The character of a unit alone. -/
def alone (unit : UInt16) : Char :=
  if isHigh unit || isLow unit then '\uFFFD' else Char.ofNat unit.toNat

/-- The text of a sequence of units. -/
def decode : List UInt16 → List Char
  | [] => []
  | [unit] => [alone unit]
  | unit :: next :: rest =>
    if isHigh unit && isLow next then pair unit next :: decode rest
    else alone unit :: decode (next :: rest)

/-! ## Reading a text back -/

lemma toNat_lt (c : Char) : c.toNat < 0x110000 := by
  rcases c.valid with h | h
  · exact Nat.lt_trans h (by decide)
  · exact h.2

/-- No character is a surrogate. -/
lemma not_surrogate (c : Char) : c.toNat < 0xD800 ∨ 0xE000 ≤ c.toNat := by
  rcases c.valid with h | h
  · exact Or.inl h
  · exact Or.inr h.1

lemma toNat_unit {n : ℕ} (h : n < 0x10000) : (UInt16.ofNat n).toNat = n :=
  UInt16.toNat_ofNat_of_lt' h

/-- A character of one unit is read alone. -/
lemma decode_small {c : Char} (h : c.toNat < 0x10000) (rest : List UInt16) :
    decode (.ofNat c.toNat :: rest) = c :: decode rest := by
  have hunit := toNat_unit h
  have hnone := not_surrogate c
  have hhigh : isHigh (.ofNat c.toNat) = false := isHigh_eq_false (by omega)
  have hlow : isLow (.ofNat c.toNat) = false := isLow_eq_false (by omega)
  have halone : alone (.ofNat c.toNat) = c := by
    rw [alone, hhigh, hlow, hunit]
    simp
  cases rest with
  | nil => simp [decode, halone]
  | cons next rest => simp [decode, halone, hhigh]

/-- A character of two units is read from both. -/
lemma decode_large {c : Char} (h : 0x10000 ≤ c.toNat) (rest : List UInt16) :
    decode (.ofNat (0xD800 + (c.toNat - 0x10000) / 0x400) ::
      .ofNat (0xDC00 + (c.toNat - 0x10000) % 0x400) :: rest) = c :: decode rest := by
  have hlt := toNat_lt c
  have hhigh : (UInt16.ofNat (0xD800 + (c.toNat - 0x10000) / 0x400)).toNat =
      0xD800 + (c.toNat - 0x10000) / 0x400 := toNat_unit (by omega)
  have hlow : (UInt16.ofNat (0xDC00 + (c.toNat - 0x10000) % 0x400)).toNat =
      0xDC00 + (c.toNat - 0x10000) % 0x400 := toNat_unit (by omega)
  have hpair : pair (.ofNat (0xD800 + (c.toNat - 0x10000) / 0x400))
      (.ofNat (0xDC00 + (c.toNat - 0x10000) % 0x400)) = c := by
    have hsum : 0x10000 + (0xD800 + (c.toNat - 0x10000) / 0x400 - 0xD800) * 0x400 +
        (0xDC00 + (c.toNat - 0x10000) % 0x400 - 0xDC00) = c.toNat := by
      omega
    rw [pair, hhigh, hlow, hsum, Char.ofNat_toNat]
  rw [decode, if_pos, hpair]
  rw [isHigh, isLow, hhigh, hlow]
  simp only [Bool.and_eq_true, decide_eq_true_eq]
  omega

/-- **Every text is read back.** -/
theorem decode_encode (text : List Char) : decode (encode text) = text := by
  induction text with
  | nil => rfl
  | cons c text ih =>
    rw [encode, List.flatMap_cons, ← encode, units]
    split_ifs with h
    · rw [List.singleton_append, decode_small h, ih]
    · rw [List.cons_append, List.singleton_append, decode_large (by omega), ih]

/-! ## Bytes -/

/-- The bytes of the units, the high byte of each first. -/
def toBytes (text : List UInt16) : List UInt8 :=
  text.flatMap fun unit => [.ofNat (unit.toNat / 0x100), .ofNat (unit.toNat % 0x100)]

/-- The units of the bytes; an odd byte at the end is dropped. -/
def ofBytes : List UInt8 → List UInt16
  | high :: low :: rest => .ofNat (high.toNat * 0x100 + low.toNat) :: ofBytes rest
  | _ => []

/-- **Every sequence of units is read back.** -/
theorem ofBytes_toBytes (text : List UInt16) : ofBytes (toBytes text) = text := by
  induction text with
  | nil => rfl
  | cons unit text ih =>
    have hlt := unit.toNat_lt
    have hhigh : (UInt8.ofNat (unit.toNat / 0x100)).toNat = unit.toNat / 0x100 := by
      apply UInt8.toNat_ofNat_of_lt'
      show unit.toNat / 0x100 < 0x100
      omega
    have hlow : (UInt8.ofNat (unit.toNat % 0x100)).toNat = unit.toNat % 0x100 := by
      apply UInt8.toNat_ofNat_of_lt'
      show unit.toNat % 0x100 < 0x100
      omega
    have hunit : unit.toNat / 0x100 * 0x100 + unit.toNat % 0x100 = unit.toNat := by omega
    rw [toBytes, List.flatMap_cons, ← toBytes]
    simp only [List.cons_append, List.nil_append, ofBytes]
    rw [hhigh, hlow, hunit, UInt16.ofNat_toNat, ih]

end Utf16
