import Mathlib.Data.List.DropRight
import Mathlib.Tactic.Common

set_option relaxedAutoImplicit false
set_option autoImplicit false

/-!
# Trimming text

What `String.prototype.trim` removes, and prefixes of what is left.

## Main definitions

* `JsText.isSpace`, `JsText.stripped` — white space, and a text without it at its ends.

## Main results

* `JsText.prefix_stripped_iff` — a prefix without white space is seen after trimming exactly when
  it follows the white space at the start.
-/

namespace JsText

/-- The code units that `trim` removes: white space and line terminators. -/
def isSpace (n : ℕ) : Bool :=
  n ∈ [0x09, 0x0a, 0x0b, 0x0c, 0x0d, 0x20, 0xa0, 0x1680, 0x2028, 0x2029, 0x202f, 0x205f, 0x3000,
    0xfeff] || (0x2000 ≤ n && n ≤ 0x200a)

variable {α : Type*}

/-- A text without the elements at its ends for which `p` holds. -/
def stripped (p : α → Bool) (text : List α) : List α := (text.dropWhile p).rdropWhile p

/-- What does not hold of a prefix does not shorten it from the end. -/
lemma prefix_rdropWhile_iff {p : α → Bool} {pre text : List α} (h : ∀ a ∈ pre, p a = false) :
    pre <+: text.rdropWhile p ↔ pre <+: text := by
  constructor
  · exact fun hpre => hpre.trans (List.rdropWhile_prefix p text)
  · rintro ⟨rest, rfl⟩
    induction rest using List.reverseRecOn with
    | nil =>
      have hself : pre.rdropWhile p = pre := by
        rw [List.rdropWhile_eq_self_iff]
        intro hne
        simp [h _ (List.getLast_mem hne)]
      simp [hself]
    | append_singleton rest a ih =>
      rw [← List.append_assoc]
      cases ha : p a with
      | true =>
        rw [List.rdropWhile_concat_pos p _ a ha]
        exact ih
      | false =>
        rw [List.rdropWhile_concat_neg p _ a (by simp [ha]), List.append_assoc]
        exact List.prefix_append _ _

/-- A prefix without white space is seen after trimming when it follows the white space. -/
theorem prefix_stripped_iff {p : α → Bool} {pre text : List α} (h : ∀ a ∈ pre, p a = false) :
    pre <+: stripped p text ↔ pre <+: text.dropWhile p :=
  prefix_rdropWhile_iff h

end JsText
