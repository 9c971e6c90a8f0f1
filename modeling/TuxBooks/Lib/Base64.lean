import Mathlib.Data.List.Basic
import Mathlib.Tactic.Common

set_option relaxedAutoImplicit false
set_option autoImplicit false

/-!
# Base64

Bytes as text: three bytes are four digits of six bits each, and a last group of one or two bytes
is filled up with padding.

## Main definitions

* `Base64.encode`, `Base64.decode` — the standard alphabet, with padding.

## Main results

* `Base64.decode_encode` — decoding gives the bytes back.
* `Base64.encode_injective` — different bytes are different texts.
-/

namespace Base64

/-! ## Digits -/

/-- The standard alphabet. -/
def alphabet : List Char :=
  "ABCDEFGHIJKLMNOPQRSTUVWXYZabcdefghijklmnopqrstuvwxyz0123456789+/".toList

/-- The digit of six bits. -/
def digit (n : ℕ) : Char := alphabet.getD n '='

/-- The six bits of a digit. -/
def value (c : Char) : Option ℕ := alphabet.findIdx? (· == c)

lemma value_digit {n : ℕ} (h : n < 64) : value (digit n) = some n := by
  have hall : ∀ n : Fin 64, value (digit n.val) = some n.val := by decide +kernel
  exact hall ⟨n, h⟩

/-- No digit is the padding. -/
lemma digit_ne_pad {n : ℕ} (h : n < 64) : digit n ≠ '=' := by
  have hall : ∀ n : Fin 64, digit n.val ≠ '=' := by decide +kernel
  exact hall ⟨n, h⟩

/-! ## Texts -/

/-- Three bytes at a time. -/
def encodeChars : List UInt8 → List Char
  | [] => []
  | [a] => [digit (a.toNat / 4), digit (a.toNat % 4 * 16), '=', '=']
  | [a, b] =>
    [digit (a.toNat / 4), digit (a.toNat % 4 * 16 + b.toNat / 16), digit (b.toNat % 16 * 4), '=']
  | a :: b :: c :: rest =>
    digit (a.toNat / 4) :: digit (a.toNat % 4 * 16 + b.toNat / 16) ::
      digit (b.toNat % 16 * 4 + c.toNat / 64) :: digit (c.toNat % 64) :: encodeChars rest

/-- The bytes of one group of four characters. -/
def decodeGroup (c₀ c₁ c₂ c₃ : Char) : Option (List UInt8) := do
  let v₀ ← value c₀
  let v₁ ← value c₁
  let first := UInt8.ofNat (v₀ * 4 + v₁ / 16)
  if c₂ = '=' then if c₃ = '=' then some [first] else none
  else
    let v₂ ← value c₂
    let second := UInt8.ofNat (v₁ % 16 * 16 + v₂ / 4)
    if c₃ = '=' then some [first, second]
    else
      let v₃ ← value c₃
      some [first, second, UInt8.ofNat (v₂ % 4 * 64 + v₃)]

/-- Four characters at a time. -/
def decodeChars : List Char → Option (List UInt8)
  | [] => some []
  | c₀ :: c₁ :: c₂ :: c₃ :: rest => do
    let group ← decodeGroup c₀ c₁ c₂ c₃
    let bytes ← decodeChars rest
    return group ++ bytes
  | _ => none

/-- Bytes as text. -/
def encode (bytes : List UInt8) : String := String.ofList (encodeChars bytes)

/-- The bytes of a text, if it is the encoding of some. -/
def decode (text : String) : Option (List UInt8) := decodeChars text.toList

/-! ## The round trip -/

lemma ofNat_eq {n : ℕ} {a : UInt8} (h : n = a.toNat) : UInt8.ofNat n = a := by
  rw [h, UInt8.ofNat_toNat]

lemma decodeGroup_three (a b c : UInt8) :
    decodeGroup (digit (a.toNat / 4)) (digit (a.toNat % 4 * 16 + b.toNat / 16))
      (digit (b.toNat % 16 * 4 + c.toNat / 64)) (digit (c.toNat % 64)) = some [a, b, c] := by
  have ha := a.toNat_lt
  have hb := b.toNat_lt
  have hc := c.toNat_lt
  have hthird : b.toNat % 16 * 4 + c.toNat / 64 < 64 := by omega
  have hfourth : c.toNat % 64 < 64 := by omega
  simp only [decodeGroup, value_digit (show a.toNat / 4 < 64 by omega),
    value_digit (show a.toNat % 4 * 16 + b.toNat / 16 < 64 by omega), value_digit hthird,
    value_digit hfourth, if_neg (digit_ne_pad hthird), if_neg (digit_ne_pad hfourth),
    Option.bind_eq_bind, Option.bind_some, Option.some.injEq, List.cons.injEq, and_true]
  exact ⟨ofNat_eq (by omega), ofNat_eq (by omega), ofNat_eq (by omega)⟩

lemma decodeGroup_two (a b : UInt8) :
    decodeGroup (digit (a.toNat / 4)) (digit (a.toNat % 4 * 16 + b.toNat / 16))
      (digit (b.toNat % 16 * 4)) '=' = some [a, b] := by
  have ha := a.toNat_lt
  have hb := b.toNat_lt
  have hthird : b.toNat % 16 * 4 < 64 := by omega
  simp only [decodeGroup, value_digit (show a.toNat / 4 < 64 by omega),
    value_digit (show a.toNat % 4 * 16 + b.toNat / 16 < 64 by omega), value_digit hthird,
    if_neg (digit_ne_pad hthird), if_true, Option.bind_eq_bind, Option.bind_some,
    Option.some.injEq, List.cons.injEq, and_true]
  exact ⟨ofNat_eq (by omega), ofNat_eq (by omega)⟩

lemma decodeGroup_one (a : UInt8) :
    decodeGroup (digit (a.toNat / 4)) (digit (a.toNat % 4 * 16)) '=' '=' = some [a] := by
  have ha := a.toNat_lt
  simp only [decodeGroup, value_digit (show a.toNat / 4 < 64 by omega),
    value_digit (show a.toNat % 4 * 16 < 64 by omega), if_true, Option.bind_eq_bind,
    Option.bind_some, Option.some.injEq, List.cons.injEq, and_true]
  exact ofNat_eq (by omega)

lemma decodeChars_encodeChars (bytes : List UInt8) :
    decodeChars (encodeChars bytes) = some bytes := by
  induction bytes using encodeChars.induct with
  | case1 => rfl
  | case2 a => simp [encodeChars, decodeChars, decodeGroup_one]
  | case3 a b => simp [encodeChars, decodeChars, decodeGroup_two]
  | case4 a b c rest ih => simp [encodeChars, decodeChars, decodeGroup_three, ih]

/-- Decoding gives the bytes back. -/
@[simp] theorem decode_encode (bytes : List UInt8) : decode (encode bytes) = some bytes := by
  simp [decode, encode, decodeChars_encodeChars]

/-- Different bytes are different texts. -/
theorem encode_injective : Function.Injective encode := by
  intro left right h
  have hdecoded := congrArg decode h
  simpa using hdecoded

example : encode [77, 97, 110, 33] = "TWFuIQ==" := by decide +kernel

end Base64
