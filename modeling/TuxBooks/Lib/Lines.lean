import Mathlib.Data.List.Basic

set_option relaxedAutoImplicit false
set_option autoImplicit false

/-!
# Lines of a text and what is left after them

A text over any alphabet is cut after every separator: the complete lines, and the rest that no
separator ends yet. Reading more of the text only goes on with the rest, so the lines of a stream
do not depend on how it arrives.

## Main definitions

* `Lines.complete`, `Lines.rest` — the lines a separator ends, and what follows the last of them.
* `Lines.unlines` — every line with the separator behind it.

## Main results

* `Lines.complete_append`, `Lines.rest_append` — a text that goes on.
* `Lines.complete_unlines_append` — the lines of terminated lines and a tail.
-/

namespace Lines

variable {α : Type*} [DecidableEq α] {sep : α}

/-- The lines that a separator ends. -/
def complete (sep : α) (text : List α) : List (List α) := (text.splitOn sep).dropLast

/-- What follows the last separator. -/
def rest (sep : α) (text : List α) : List α :=
  (text.splitOn sep).getLast (List.splitOn_ne_nil sep text)

/-- Every line, with the separator behind it. -/
def unlines (sep : α) (lines : List (List α)) : List α := lines.flatMap (· ++ [sep])

omit [DecidableEq α] in
@[simp] lemma unlines_nil : unlines sep [] = [] := rfl

omit [DecidableEq α] in
@[simp] lemma unlines_cons (line : List α) (lines : List (List α)) :
    unlines sep (line :: lines) = line ++ sep :: unlines sep lines := by
  simp [unlines]

/-! ## One line at a time -/

lemma complete_of_free {text : List α} (h : sep ∉ text) : complete sep text = [] := by
  simp [complete, List.splitOn_eq_singleton h]

lemma rest_of_free {text : List α} (h : sep ∉ text) : rest sep text = text := by
  simp [rest, List.splitOn_eq_singleton h]

/-- The first line comes before the first separator. -/
lemma complete_cons {line text : List α} (h : sep ∉ line) :
    complete sep (line ++ sep :: text) = line :: complete sep text := by
  have hsplit : (line ++ sep :: text).splitOn sep = line :: text.splitOn sep := by
    rw [List.splitOn_append_cons_self, List.splitOn_eq_singleton h, List.singleton_append]
  rw [complete, hsplit, List.dropLast_cons_of_ne_nil (List.splitOn_ne_nil sep text), complete]

lemma rest_cons {line text : List α} (h : sep ∉ line) :
    rest sep (line ++ sep :: text) = rest sep text := by
  have hsplit : (line ++ sep :: text).splitOn sep = line :: text.splitOn sep := by
    rw [List.splitOn_append_cons_self, List.splitOn_eq_singleton h, List.singleton_append]
  simp only [rest, hsplit]
  rw [List.getLast_cons (List.splitOn_ne_nil sep text)]

/-- A text has no separator, or a first one. -/
lemma first_or_free (sep : α) (text : List α) :
    sep ∉ text ∨ ∃ line more, sep ∉ line ∧ text = line ++ sep :: more := by
  by_cases h : sep ∈ text
  · obtain ⟨line, more, htext, hline⟩ := List.eq_append_cons_of_mem h
    exact .inr ⟨line, more, hline, htext⟩
  · exact .inl h

/-- Induction on the lines of a text. -/
theorem lines_induction (sep : α) {motive : List α → Prop} (text : List α)
    (free : ∀ text, sep ∉ text → motive text)
    (line : ∀ line more, sep ∉ line → motive more → motive (line ++ sep :: more)) :
    motive text := by
  induction hlen : text.length using Nat.strongRecOn generalizing text with
  | _ n ih =>
    obtain hfree | ⟨first, more, hfirst, rfl⟩ := first_or_free sep text
    · exact free text hfree
    · refine line first more hfirst (ih more.length ?_ more rfl)
      rw [← hlen, List.length_append, List.length_cons]
      omega

/-! ## A text that goes on -/

/-- **More text goes on with the rest.** -/
theorem complete_append (text more : List α) :
    complete sep (text ++ more) = complete sep text ++ complete sep (rest sep text ++ more) := by
  induction text using lines_induction sep with
  | free text h => rw [complete_of_free h, rest_of_free h, List.nil_append]
  | line line text h ih =>
    rw [List.append_assoc, List.cons_append, complete_cons h, complete_cons h, rest_cons h, ih,
      List.cons_append]

theorem rest_append (text more : List α) :
    rest sep (text ++ more) = rest sep (rest sep text ++ more) := by
  induction text using lines_induction sep with
  | free text h => rw [rest_of_free h]
  | line line text h ih =>
    rw [List.append_assoc, List.cons_append, rest_cons h, rest_cons h, ih]

/-- **Terminated lines and a tail** have those lines. -/
theorem complete_unlines_append {lines : List (List α)} (h : ∀ line ∈ lines, sep ∉ line)
    (tail : List α) : complete sep (unlines sep lines ++ tail) = lines ++ complete sep tail := by
  induction lines with
  | nil => simp
  | cons line lines ih =>
    rw [unlines_cons, List.append_assoc, List.cons_append,
      complete_cons (h line List.mem_cons_self),
      ih fun other hother => h other (List.mem_cons_of_mem line hother), List.cons_append]

end Lines
