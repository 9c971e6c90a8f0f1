import Mathlib.Data.List.Basic
import Mathlib.Data.List.Infix
import Mathlib.Tactic.Common

set_option relaxedAutoImplicit false
set_option autoImplicit false

/-!
# Occurrences of a word in a text

A scan of a text from left to right that takes the first occurrence of a word and goes on behind
it. The occurrences it takes do not overlap, and every other occurrence overlaps one of them.

## Main definitions

* `Occurrences.At` — the word occurs at a place of the text.
* `Occurrences.indexOf` — the first occurrence from a place on.
* `Occurrences.scan` — the occurrences that the scan takes.

## Main results

* `Occurrences.scan_pairwise` — they do not overlap, and they are in order.
* `Occurrences.scan_complete` — every occurrence starts within one of them.
-/

namespace Occurrences

variable {α : Type*} [DecidableEq α]

/-- The word occurs at a place. -/
def At (word text : List α) (i : ℕ) : Prop := word <+: text.drop i

instance (word text : List α) (i : ℕ) : Decidable (At word text i) :=
  inferInstanceAs (Decidable (word <+: text.drop i))

/-- The first occurrence from `start` on. -/
def indexOf (word text : List α) (start : ℕ) : Option ℕ :=
  (List.range' start (text.length + 1 - start)).find? fun i => At word text i

section First

variable {word text : List α} {start i : ℕ}

lemma indexOf_bounds (h : indexOf word text start = some i) : start ≤ i ∧ i ≤ text.length := by
  have hmem := List.mem_of_find?_eq_some h
  rw [List.mem_range'_1] at hmem
  omega

lemma at_of_indexOf (h : indexOf word text start = some i) : At word text i := by
  simpa using List.find?_some h

omit [DecidableEq α] in
/-- A word that is not empty occurs before the end of the text. -/
lemma At.lt_length (h : At word text i) (hne : word ≠ []) : i < text.length := by
  by_contra hge
  rw [At, List.drop_eq_nil_of_le (by omega), List.prefix_nil] at h
  exact hne h

/-- Nothing occurs before the first occurrence. -/
lemma indexOf_le (h : indexOf word text start = some i) {j : ℕ} (hj : start ≤ j)
    (hat : At word text j) : i ≤ j := by
  by_contra hlt
  obtain ⟨-, before, after, hsplit, hnone⟩ := List.find?_eq_some_iff_append.mp h
  have hbounds := indexOf_bounds h
  have hmem : j ∈ List.range' start (text.length + 1 - start) := by
    rw [List.mem_range'_1]
    omega
  have hsorted : (List.range' start (text.length + 1 - start)).Pairwise (· < ·) :=
    List.pairwise_lt_range'
  rw [hsplit] at hmem hsorted
  rcases List.mem_append.mp hmem with hbefore | hafter
  · simpa [hat] using hnone j hbefore
  · rcases List.mem_cons.mp hafter with rfl | hrest
    · omega
    · have hlt' := (List.pairwise_cons.mp (List.pairwise_append.mp hsorted).2.1).1 j hrest
      omega

/-- A word that is not found does not occur. -/
lemma not_at_of_indexOf (h : indexOf word text start = none) (hne : word ≠ []) {j : ℕ}
    (hj : start ≤ j) : ¬ At word text j := by
  intro hat
  have hlt := hat.lt_length hne
  have hmem : j ∈ List.range' start (text.length + 1 - start) := by
    rw [List.mem_range'_1]
    omega
  simpa [hat] using List.find?_eq_none.mp h j hmem

end First

/-- The occurrences taken from `cursor` on. -/
def scan (word text : List α) (cursor : ℕ) : List ℕ :=
  if _hword : word = [] then []
  else
    match _hfound : indexOf word text cursor with
    | none => []
    | some i => i :: scan word text (i + word.length)
termination_by text.length + 1 - cursor
decreasing_by
  have hbounds := indexOf_bounds _hfound
  have hpos := List.length_pos_of_ne_nil _hword
  omega

section Scan

variable {word text : List α} {cursor : ℕ}

lemma scan_none (h : indexOf word text cursor = none) : scan word text cursor = [] := by
  rw [scan]
  split_ifs
  · rfl
  · split <;> simp_all

lemma scan_some (hword : word ≠ []) {i : ℕ} (h : indexOf word text cursor = some i) :
    scan word text cursor = i :: scan word text (i + word.length) := by
  conv_lhs => rw [scan]
  rw [dif_neg hword]
  split <;> simp_all

/-- What is taken is an occurrence from the cursor on. -/
lemma mem_scan (hword : word ≠ []) {i : ℕ} (h : i ∈ scan word text cursor) :
    cursor ≤ i ∧ At word text i := by
  induction cursor using scan.induct word text with
  | case1 cursor hempty => exact absurd hempty hword
  | case2 cursor _ hnone =>
    rw [scan_none hnone] at h
    cases h
  | case3 cursor _ first hfirst ih =>
    rw [scan_some hword hfirst] at h
    have hbounds := indexOf_bounds hfirst
    rcases List.mem_cons.mp h with rfl | hrest
    · exact ⟨hbounds.1, at_of_indexOf hfirst⟩
    · obtain ⟨hle, hat⟩ := ih hrest
      exact ⟨by omega, hat⟩

/-- **What is taken does not overlap**, and it is taken in order. -/
theorem scan_pairwise (hword : word ≠ []) :
    (scan word text cursor).Pairwise fun i j => i + word.length ≤ j := by
  induction cursor using scan.induct word text with
  | case1 cursor hempty => exact absurd hempty hword
  | case2 cursor _ hnone =>
    rw [scan_none hnone]
    exact List.Pairwise.nil
  | case3 cursor _ first hfirst ih =>
    rw [scan_some hword hfirst]
    exact List.Pairwise.cons (fun j hj => (mem_scan hword hj).1) ih

/-- **Every occurrence starts within one that is taken.** -/
theorem scan_complete (hword : word ≠ []) {j : ℕ} (hj : cursor ≤ j) (hat : At word text j) :
    ∃ i ∈ scan word text cursor, i ≤ j ∧ j < i + word.length := by
  induction cursor using scan.induct word text with
  | case1 cursor hempty => exact absurd hempty hword
  | case2 cursor _ hnone => exact absurd hat (not_at_of_indexOf hnone hword hj)
  | case3 cursor _ first hfirst ih =>
    rw [scan_some hword hfirst]
    by_cases hwithin : j < first + word.length
    · exact ⟨first, List.mem_cons_self, indexOf_le hfirst hj hat, hwithin⟩
    · obtain ⟨i, hi, hle, hlt⟩ := ih (by omega)
      exact ⟨i, List.mem_cons_of_mem _ hi, hle, hlt⟩

end Scan

end Occurrences
