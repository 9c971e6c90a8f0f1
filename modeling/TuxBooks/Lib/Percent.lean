import Mathlib.Data.List.Basic
import Mathlib.Tactic.IntervalCases

set_option relaxedAutoImplicit false
set_option autoImplicit false

/-!
# Percent encoding

Bytes written as text: the kept bytes as the characters they are, the others as a percent sign and
two hexadecimal digits. Reading is strict: a percent sign needs its two digits.

## Main definitions

* `Percent.encode` — the text of some bytes, for any choice of the kept ones.
* `Percent.decode?` — the bytes of a text.

## Main results

* `Percent.decode?_encode` — reading gives the bytes back.
-/

namespace Percent

/-- A hexadecimal digit, in upper case. -/
def digit (n : ℕ) : Char := Char.ofNat (if n < 10 then 0x30 + n else 0x37 + n)

/-- The value of a hexadecimal digit, in either case. -/
def value? (c : Char) : Option ℕ :=
  if 0x30 ≤ c.toNat ∧ c.toNat ≤ 0x39 then some (c.toNat - 0x30)
  else if 0x41 ≤ c.toNat ∧ c.toNat ≤ 0x46 then some (c.toNat - 0x37)
  else if 0x61 ≤ c.toNat ∧ c.toNat ≤ 0x66 then some (c.toNat - 0x57)
  else none

/-- One byte. -/
def encodeByte (keep : UInt8 → Bool) (byte : UInt8) : List Char :=
  if keep byte then [Char.ofNat byte.toNat]
  else ['%', digit (byte.toNat / 16), digit (byte.toNat % 16)]

/-- The text of some bytes. -/
def encode (keep : UInt8 → Bool) (bytes : List UInt8) : List Char :=
  bytes.flatMap (encodeByte keep)

/-- The bytes of a text. A character other than the percent sign stands for its own encoding. -/
def decode? : List Char → Option (List UInt8)
  | [] => some []
  | c :: rest =>
    if c = '%' then
      match rest with
      | high :: low :: rest =>
        match value? high, value? low with
        | some h, some l => (decode? rest).map (UInt8.ofNat (16 * h + l) :: ·)
        | _, _ => none
      | _ => none
    else (decode? rest).map (String.utf8EncodeChar c ++ ·)

lemma value?_digit {n : ℕ} (h : n < 16) : value? (digit n) = some n := by
  interval_cases n <;> decide

lemma decode?_literal {c : Char} (h : c ≠ '%') (rest : List Char) :
    decode? (c :: rest) = (decode? rest).map (String.utf8EncodeChar c ++ ·) := by
  rw [decode?.eq_def]
  simp [h]

lemma decode?_escape {n : ℕ} (h : n < 256) (rest : List Char) :
    decode? ('%' :: digit (n / 16) :: digit (n % 16) :: rest) =
      (decode? rest).map (UInt8.ofNat n :: ·) := by
  have hhigh : value? (digit (n / 16)) = some (n / 16) := value?_digit (by omega)
  have hlow : value? (digit (n % 16)) = some (n % 16) := value?_digit (by omega)
  have hbyte : 16 * (n / 16) + n % 16 = n := Nat.div_add_mod n 16
  rw [decode?.eq_def]
  simp [hhigh, hlow, hbyte]

/-- The kept bytes are characters of their own, and none of them is the percent sign. -/
structure Keeps (keep : UInt8 → Bool) : Prop where
  ascii : ∀ byte, keep byte = true → byte.toNat < 0x80
  literal : ∀ byte, keep byte = true → byte.toNat ≠ 0x25

lemma utf8EncodeChar_ofNat {n : ℕ} (h : n < 0x80) :
    String.utf8EncodeChar (Char.ofNat n) = [UInt8.ofNat n] := by
  interval_cases n <;> rfl

lemma ofNat_ne_percent {n : ℕ} (h : n < 0x80) (hne : n ≠ 0x25) : Char.ofNat n ≠ '%' := by
  interval_cases n <;> first | exact absurd rfl hne | decide

/-- One encoded byte is read back. -/
lemma decode?_encodeByte {keep : UInt8 → Bool} (hkeep : Keeps keep) (byte : UInt8)
    (rest : List Char) :
    decode? (encodeByte keep byte ++ rest) = (decode? rest).map (byte :: ·) := by
  rw [encodeByte]
  split_ifs with hkept
  · have hascii := hkeep.ascii byte hkept
    rw [List.singleton_append, decode?_literal (ofNat_ne_percent hascii (hkeep.literal byte hkept)),
      utf8EncodeChar_ofNat hascii, UInt8.ofNat_toNat]
    rfl
  · have hread := decode?_escape (UInt8.toNat_lt byte) rest
    rw [UInt8.ofNat_toNat] at hread
    exact hread

/-- **Reading gives the bytes back.** -/
theorem decode?_encode {keep : UInt8 → Bool} (hkeep : Keeps keep) (bytes : List UInt8) :
    decode? (encode keep bytes) = some bytes := by
  induction bytes with
  | nil => rfl
  | cons byte bytes ih =>
    rw [encode, List.flatMap_cons, decode?_encodeByte hkeep, ← encode, ih]
    rfl

lemma encode_append (keep : UInt8 → Bool) (bytes more : List UInt8) :
    encode keep (bytes ++ more) = encode keep bytes ++ encode keep more :=
  List.flatMap_append

/-- What the text consists of: kept characters, percent signs and digits. -/
lemma mem_encode {keep : UInt8 → Bool} {bytes : List UInt8} {c : Char}
    (h : c ∈ encode keep bytes) :
    (∃ byte, keep byte = true ∧ c = Char.ofNat byte.toNat) ∨ c = '%' ∨
      ∃ n < 16, c = digit n := by
  obtain ⟨byte, -, hc⟩ := List.mem_flatMap.mp h
  rw [encodeByte] at hc
  split_ifs at hc with hkept
  · exact .inl ⟨byte, hkept, List.mem_singleton.mp hc⟩
  · have hbyte := UInt8.toNat_lt byte
    simp only [List.mem_cons, List.not_mem_nil, or_false] at hc
    obtain rfl | rfl | rfl := hc
    · exact .inr (.inl rfl)
    · exact .inr (.inr ⟨byte.toNat / 16, by omega, rfl⟩)
    · exact .inr (.inr ⟨byte.toNat % 16, by omega, rfl⟩)

end Percent
