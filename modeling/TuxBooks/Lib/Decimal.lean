import Mathlib.Data.List.TakeWhile
import Mathlib.Data.Int.Notation
import Mathlib.Tactic.Linarith

set_option relaxedAutoImplicit false
set_option autoImplicit false

/-!
# Decimal texts of integers

Printing an integer in base ten and reading it back, over lists of characters. A reader is
either strict (the whole text is a numeral) or lenient (the longest numeral at the start counts).

## Main definitions

* `Decimal.text` — the decimal text of an integer.
* `Decimal.digits?`, `Decimal.unsigned?`, `Decimal.signed?` — the strict readers.
* `Decimal.leading` — the lenient reader.

## Main results

* `Decimal.signed?_text`, `Decimal.unsigned?_text` — the strict readers read back what was
  printed.
* `Decimal.leading_text` — so does the lenient one.
-/

namespace Decimal

/-! ## Printing and reading -/

/-- The decimal text of an integer. -/
def text : ℤ → List Char
  | .ofNat n => Nat.toDigits 10 n
  | .negSucc n => '-' :: Nat.toDigits 10 (n + 1)

/-- The value of a text that consists of digits, of which there is at least one. -/
def digits? (s : List Char) : Option ℕ :=
  if s.isEmpty || !s.all Char.isDigit then none else some (Nat.ofDigitChars 10 s 0)

/-- The value of digits that may follow a plus sign. -/
def unsigned? : List Char → Option ℕ
  | '+' :: s => digits? s
  | s => digits? s

/-- The value of digits that may follow a sign. -/
def signed? : List Char → Option ℤ
  | '+' :: s => (digits? s).map fun (n : ℕ) => (n : ℤ)
  | '-' :: s => (digits? s).map fun (n : ℕ) => -(n : ℤ)
  | s => (digits? s).map fun (n : ℕ) => (n : ℤ)

/-- The value of the digits at the start of a text, zero when there are none. -/
def leadingDigits (s : List Char) : ℕ := Nat.ofDigitChars 10 (s.takeWhile Char.isDigit) 0

/-- The value of the longest numeral at the start of a text, zero when there is none. -/
def leading : List Char → ℤ
  | '+' :: s => leadingDigits s
  | '-' :: s => -(leadingDigits s : ℤ)
  | s => leadingDigits s

/-! ## Digits -/

lemma all_isDigit_toDigits (n : ℕ) : (Nat.toDigits 10 n).all Char.isDigit = true := by
  rw [List.all_eq_true]
  intro c hc
  exact Nat.isDigit_of_mem_toDigits (by decide) (by decide) hc

/-- A text of digits starts with a digit, so it has no sign. -/
lemma exists_cons_toDigits (n : ℕ) :
    ∃ c s, Nat.toDigits 10 n = c :: s ∧ c ≠ '+' ∧ c ≠ '-' := by
  obtain ⟨c, s, hcs⟩ := List.exists_cons_of_ne_nil (Nat.toDigits_ne_nil (b := 10) (n := n))
  have hdigit : c.isDigit = true :=
    List.all_eq_true.mp (all_isDigit_toDigits n) c (by rw [hcs]; exact List.mem_cons_self)
  refine ⟨c, s, hcs, ?_, ?_⟩
  · intro h
    rw [h] at hdigit
    exact absurd hdigit (by decide)
  · intro h
    rw [h] at hdigit
    exact absurd hdigit (by decide)

@[simp] lemma digits?_toDigits (n : ℕ) : digits? (Nat.toDigits 10 n) = some n := by
  have hne : (Nat.toDigits 10 n).isEmpty = false := by
    rw [List.isEmpty_eq_false_iff]
    exact Nat.toDigits_ne_nil
  simp [digits?, hne, all_isDigit_toDigits]

@[simp] lemma leadingDigits_toDigits (n : ℕ) : leadingDigits (Nat.toDigits 10 n) = n := by
  have hall : (Nat.toDigits 10 n).takeWhile Char.isDigit = Nat.toDigits 10 n := by
    rw [List.takeWhile_eq_self_iff]
    exact List.all_eq_true.mp (all_isDigit_toDigits n)
  simp [leadingDigits, hall]

/-! ## Reading back what was printed -/

/-- **The strict reader of naturals** reads back what was printed. -/
@[simp] theorem unsigned?_text (n : ℕ) : unsigned? (text n) = some n := by
  show unsigned? (Nat.toDigits 10 n) = some n
  obtain ⟨c, s, hcs, hplus, -⟩ := exists_cons_toDigits n
  have hread : unsigned? (Nat.toDigits 10 n) = digits? (Nat.toDigits 10 n) := by
    rw [hcs]
    unfold unsigned?
    split
    · next h => exact absurd (List.cons.inj h).1 hplus
    · rfl
  rw [hread, digits?_toDigits]

/-- **The strict reader of integers** reads back what was printed. -/
@[simp] theorem signed?_text (n : ℤ) : signed? (text n) = some n := by
  cases n with
  | ofNat n =>
    show signed? (Nat.toDigits 10 n) = some (n : ℤ)
    obtain ⟨c, s, hcs, hplus, hminus⟩ := exists_cons_toDigits n
    have hread : signed? (Nat.toDigits 10 n) =
        (digits? (Nat.toDigits 10 n)).map fun (n : ℕ) => (n : ℤ) := by
      rw [hcs]
      unfold signed?
      split
      · next h => exact absurd (List.cons.inj h).1 hplus
      · next h => exact absurd (List.cons.inj h).1 hminus
      · rfl
    rw [hread, digits?_toDigits, Option.map_some]
  | negSucc n =>
    show (digits? (Nat.toDigits 10 (n + 1))).map (fun (k : ℕ) => -(k : ℤ)) = some (Int.negSucc n)
    rw [digits?_toDigits, Option.map_some, Int.negSucc_eq]
    simp

/-- **The lenient reader** reads back what was printed. -/
@[simp] theorem leading_text (n : ℤ) : leading (text n) = n := by
  cases n with
  | ofNat n =>
    show leading (Nat.toDigits 10 n) = (n : ℤ)
    obtain ⟨c, s, hcs, hplus, hminus⟩ := exists_cons_toDigits n
    have hread : leading (Nat.toDigits 10 n) = leadingDigits (Nat.toDigits 10 n) := by
      rw [hcs]
      unfold leading
      split
      · next h => exact absurd (List.cons.inj h).1 hplus
      · next h => exact absurd (List.cons.inj h).1 hminus
      · rfl
    rw [hread, leadingDigits_toDigits]
  | negSucc n =>
    show -(leadingDigits (Nat.toDigits 10 (n + 1)) : ℤ) = Int.negSucc n
    rw [leadingDigits_toDigits, Int.negSucc_eq]
    simp

/-- The characters of a numeral are digits and the minus sign. -/
lemma isDigit_or_minus_of_mem_text {n : ℤ} {c : Char} (h : c ∈ text n) :
    c.isDigit = true ∨ c = '-' := by
  cases n with
  | ofNat n => exact Or.inl (List.all_eq_true.mp (all_isDigit_toDigits n) c h)
  | negSucc n =>
    rcases List.mem_cons.mp h with h | h
    · exact Or.inr h
    · exact Or.inl (List.all_eq_true.mp (all_isDigit_toDigits (n + 1)) c h)

/-- A character that is neither a digit nor the minus sign is in no numeral. -/
lemma notMem_text {n : ℤ} {c : Char} (hdigit : c.isDigit = false) (hminus : c ≠ '-') :
    c ∉ text n := by
  intro h
  rcases isDigit_or_minus_of_mem_text h with hd | hm
  · rw [hdigit] at hd
    exact absurd hd (by decide)
  · exact hminus hm

end Decimal
