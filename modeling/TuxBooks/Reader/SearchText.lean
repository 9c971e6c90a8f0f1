import TuxBooks.Lib.Occurrences
import TuxBooks.Lib.Utf16
import TuxBooks.Shell.Framing

set_option relaxedAutoImplicit false
set_option autoImplicit false

/-!
# Excerpts of a search

What the two searches in a book share: the text around an occurrence, and the search in a lowered
copy of the text whose offsets are then applied to the text itself. Lowering is
`String.prototype.toLowerCase`, a table of the language; it may change the length of a text.

## Main definitions

* `TuxBooks.BookSearch.Excerpt`, `TuxBooks.BookSearch.Contiguous` — an excerpt, and what it is of a
  text.
* `TuxBooks.BookSearch.Kept` — texts whose lowered copy has the offsets of the text.

## Main results

* `TuxBooks.BookSearch.contiguous_slices` — three slices are contiguous in every text.
* `TuxBooks.BookSearch.lower_slice` — an occurrence in the lowered copy lowers to the word.
* `TuxBooks.BookSearch.exact_scan` — what a scan of the lowered copy finds.
-/

namespace TuxBooks

namespace BookSearch

/-! ## Excerpts -/

/-- The text around a match. -/
structure Excerpt where
  pre : JsString
  matched : JsString
  post : JsString

/-- `text.slice(i, j)`. -/
def slice (text : JsString) (i j : ℕ) : JsString := (text.take j).drop i

/-- Every run of white space becomes one space. -/
def collapse : JsString → JsString
  | [] => []
  | unit :: rest =>
    if isWhiteSpace unit then
      if rest.head?.any isWhiteSpace then collapse rest else 0x20 :: collapse rest
    else unit :: collapse rest

/-- The excerpt is a part of the text: the match with what is next to it on either side, each as it
is displayed. -/
def Contiguous (displayedBefore displayedAfter : JsString → JsString) (context : ℕ)
    (text : JsString) (excerpt : Excerpt) : Prop :=
  ∃ before near after far, text = before ++ near ++ excerpt.matched ++ far ++ after ∧
    near.length ≤ context ∧ far.length ≤ context ∧
    excerpt.pre = displayedBefore near ∧ excerpt.post = displayedAfter far

lemma slice_eq (text : JsString) (i n : ℕ) : slice text i (i + n) = (text.drop i).take n := by
  rw [slice, List.drop_take]
  congr 1
  omega

/-- Three slices next to each other. -/
lemma contiguous_slices (displayedBefore displayedAfter : JsString → JsString)
    (context : ℕ) (text : JsString) (i n : ℕ) :
    Contiguous displayedBefore displayedAfter context text
      { pre := displayedBefore (slice text (i - context) i)
        matched := slice text i (i + n)
        post := displayedAfter (slice text (i + n) (i + n + context)) } := by
  refine ⟨text.take (i - context), slice text (i - context) i, text.drop (i + n + context),
    slice text (i + n) (i + n + context), ?_, ?_, ?_, rfl, rfl⟩
  · have hjoin : ∀ j m, j ≤ m → text.take j ++ slice text j m = text.take m := by
      intro j m hle
      have htake : text.take j = (text.take m).take j := by
        rw [List.take_take, Nat.min_eq_left hle]
      rw [htake, slice, List.take_append_drop]
    rw [hjoin _ _ (by omega), hjoin _ _ (by omega), hjoin _ _ (by omega), List.take_append_drop]
  · simp only [slice, List.length_drop, List.length_take]
    omega
  · simp only [slice, List.length_drop, List.length_take]
    omega

/-! ## Lowered copies -/

/-- The place is in the middle of a surrogate pair. -/
def Cuts (text : JsString) (i : ℕ) : Prop :=
  ∃ j, i = j + 1 ∧ text[j]?.any Utf16.isHigh = true ∧ text[j + 1]?.any Utf16.isLow = true

/-- The word starts and ends with whole characters. -/
def Whole (word : JsString) : Prop :=
  word.head?.any Utf16.isLow = false ∧ word.getLast?.any Utf16.isHigh = false

/-- The lowered copy has the offsets of the text: a part of the text that cuts no surrogate pair
lowers to the same part of the copy, and surrogates lower to surrogates. -/
structure Kept (lower : JsString → JsString) (text : JsString) : Prop where
  parts : ∀ i n, ¬ Cuts text i → ¬ Cuts text (i + n) →
    lower ((text.drop i).take n) = ((lower text).drop i).take n
  high : ∀ i : ℕ, (lower text)[i]?.any Utf16.isHigh = text[i]?.any Utf16.isHigh
  low : ∀ i : ℕ, (lower text)[i]?.any Utf16.isLow = text[i]?.any Utf16.isLow

section Lowered

variable {lower : JsString → JsString} {text word : JsString} {i : ℕ}

/-- Where each unit is lowered by itself, and surrogates are left as they are, the offsets are
kept. -/
lemma kept_of_map {f : UInt16 → UInt16}
    (hlower : ∀ part : JsString, part ⊆ text → lower part = part.map f)
    (hhigh : ∀ unit ∈ text, Utf16.isHigh (f unit) = Utf16.isHigh unit)
    (hlow : ∀ unit ∈ text, Utf16.isLow (f unit) = Utf16.isLow unit) : Kept lower text where
  parts := by
    intro i n _ _
    have hpart : (text.drop i).take n ⊆ text :=
      fun _ hunit => List.mem_of_mem_drop (List.mem_of_mem_take hunit)
    rw [hlower _ hpart, hlower text (List.Subset.refl _), List.map_take, List.map_drop]
  high := by
    intro i
    rw [hlower text (List.Subset.refl _), List.getElem?_map]
    cases hunit : text[i]? with
    | none => rfl
    | some unit => exact hhigh unit (List.mem_of_getElem? hunit)
  low := by
    intro i
    rw [hlower text (List.Subset.refl _), List.getElem?_map]
    cases hunit : text[i]? with
    | none => rfl
    | some unit => exact hlow unit (List.mem_of_getElem? hunit)

/-- The units of an occurrence. -/
lemma getElem?_of_at (hat : Occurrences.At word text i) {j : ℕ} (hj : j < word.length) :
    text[i + j]? = word[j]? := by
  obtain ⟨rest, hrest⟩ := hat
  rw [← List.getElem?_drop, ← hrest, List.getElem?_append_left hj]

/-- An occurrence in the lowered copy lowers to the word. -/
theorem lower_slice (hkept : Kept lower text) (hword : Whole word) (hne : word ≠ [])
    (hat : Occurrences.At word (lower text) i) :
    lower (slice text i (i + word.length)) = word := by
  have hpos := List.length_pos_of_ne_nil hne
  have hstart : ¬ Cuts text i := by
    rintro ⟨j, rfl, -, hlow⟩
    have hfirst := getElem?_of_at hat hpos
    rw [← hkept.low, ← Nat.add_zero (j + 1), hfirst, ← List.head?_eq_getElem?, hword.1] at hlow
    cases hlow
  have hend : ¬ Cuts text (i + word.length) := by
    rintro ⟨j, hj, hhigh, -⟩
    have hlast := getElem?_of_at hat (Nat.sub_lt hpos Nat.one_pos)
    have hplace : j = i + (word.length - 1) := by omega
    rw [← hkept.high, hplace, hlast, ← List.getLast?_eq_getElem?, hword.2] at hhigh
    cases hhigh
  rw [slice_eq, hkept.parts i word.length hstart hend]
  exact (List.prefix_iff_eq_take.mp hat).symm

/-- What a search in a text finds: the word at places of the lowered copy that do not overlap, in
order, so that it occurs nowhere else but over one of them. Each excerpt is a part of the text, and
its match lowers to the word where the copy has the offsets of the text. -/
structure Exact (lower displayedBefore displayedAfter : JsString → JsString) (context : ℕ)
    (text word : JsString) (excerpts : List Excerpt) : Prop where
  places : ∃ offsets : List ℕ, excerpts.map Excerpt.matched =
      offsets.map (fun i => slice text i (i + word.length)) ∧
    offsets.Pairwise (fun i j => i + word.length ≤ j) ∧
    (∀ i ∈ offsets, Occurrences.At word (lower text) i) ∧
    ∀ j, Occurrences.At word (lower text) j → ∃ i ∈ offsets, i ≤ j ∧ j < i + word.length
  contiguous : ∀ excerpt ∈ excerpts,
    Contiguous displayedBefore displayedAfter context text excerpt
  matched : Kept lower text → Whole word → ∀ excerpt ∈ excerpts, lower excerpt.matched = word

/-- **A scan of the lowered copy is exact.** -/
theorem exact_scan {displayedBefore displayedAfter : JsString → JsString} {context : ℕ}
    (hword : word ≠ []) :
    Exact lower displayedBefore displayedAfter context text word
      ((Occurrences.scan word (lower text) 0).map fun i =>
        { pre := displayedBefore (slice text (i - context) i)
          matched := slice text i (i + word.length)
          post := displayedAfter (slice text (i + word.length) (i + word.length + context)) }) where
  places := by
    refine ⟨Occurrences.scan word (lower text) 0, ?_, Occurrences.scan_pairwise hword,
      fun i hi => (Occurrences.mem_scan hword hi).2,
      fun j hat => Occurrences.scan_complete hword (Nat.zero_le j) hat⟩
    rw [List.map_map]
    rfl
  contiguous := by
    intro excerpt hexcerpt
    obtain ⟨i, -, rfl⟩ := List.mem_map.mp hexcerpt
    exact contiguous_slices _ _ _ _ _ _
  matched := by
    intro hkept hwhole excerpt hexcerpt
    obtain ⟨i, hi, rfl⟩ := List.mem_map.mp hexcerpt
    exact lower_slice hkept hwhole hword (Occurrences.mem_scan hword hi).2

end Lowered

/-! ## Groups -/

/-- Matches under one heading. -/
structure SearchGroup (Match : Type) where
  label : String
  hits : List Match

/-- What a search hands over: its groups, and whether it stopped at its limit. -/
structure SearchResults (Match : Type) where
  groups : List (SearchGroup Match)
  truncated : Bool

end BookSearch

end TuxBooks
