import Mathlib.Data.Int.ConditionallyCompleteOrder
import TuxBooks.Reader.Position
import TuxBooks.Reader.Saves

set_option relaxedAutoImplicit false
set_option autoImplicit false

/-!
# A PDF position that is stored as a percentage

`parsePdfProgress` of `frontend/src/components/reader/readerModel.ts` restores the page of a PDF,
also from a row that carries a percentage only. `link_editions` of
`sidecar/src/repository/editions.rs` writes such a row. The percentage of a page is the one that
the reader shows; percentages are rational numbers in place of floats.

## Main definitions

* `TuxBooks.parsePdfProgress` — the page that a row reopens at.
* `TuxBooks.copiedProgress` — the row of an edition after it is linked.
* `TuxBooks.PagesAgree` — the reader, the stored percentage and the restored page agree on a page.

## Main results

* `TuxBooks.positionToPage_mono` — a later position is not shown as an earlier page.
* `TuxBooks.pagesAgree_iff` — the pages that all three agree on.
-/

namespace TuxBooks

/-- What a PDF saves of its position. -/
def pdfProgressPayload (page : ℤ) (position : ℚ) : ProgressUpdate :=
  { pageNumber := some page, progressPercent := some position }

/-- The saved page, or the page of a percentage when no page is saved. -/
def parsePdfProgress (record : Option ProgressRow) (pageCount : ℤ) : Option ℤ :=
  match record.bind ProgressRow.pageNumber with
  | some page => if 1 ≤ page ∧ page ≤ pageCount then some page else none
  | none =>
    match record.bind ProgressRow.progressPercent with
    | some percent =>
      if 0 < pageCount then
        some (min pageCount (max 1 (mathRound (percent / 100 * pageCount))))
      else none
    | none => none

/-- `link_editions`, on the position of the target: nothing but a percentage crosses, and the
position of the target is replaced by it. -/
def copiedProgress (source target : Option ProgressRow) (now : String) : Option ProgressRow :=
  match source.bind ProgressRow.progressPercent with
  | some percent => some { progressPercent := some percent, updatedAt := now }
  | none => target

/-! ## Positions and pages -/

lemma mathRound_mono {x y : ℚ} (h : x ≤ y) : mathRound x ≤ mathRound y := by
  unfold mathRound
  apply Int.floor_le_floor
  linarith

lemma clampPercent_mono {x y : ℚ} (h : x ≤ y) : clampPercent x ≤ clampPercent y :=
  max_le_max le_rfl (min_le_min le_rfl h)

/-- **A later position is not shown as an earlier page.** -/
theorem positionToPage_mono {pageCount : ℤ} (hcount : 1 ≤ pageCount) :
    Monotone fun position => positionToPage position pageCount := by
  intro x y h
  have hpages : (0 : ℚ) ≤ pageCount - 1 := by
    have : (1 : ℚ) ≤ pageCount := by exact_mod_cast hcount
    linarith
  have hscaled : clampPercent x / 100 * ((pageCount : ℚ) - 1) ≤
      clampPercent y / 100 * ((pageCount : ℚ) - 1) := by
    have hle := clampPercent_mono h
    apply mul_le_mul_of_nonneg_right _ hpages
    linarith
  have hround := mathRound_mono hscaled
  show positionToPage x pageCount ≤ positionToPage y pageCount
  unfold positionToPage
  omega

/-! ## The percentage of a page -/

section Percentage

variable {page pageCount : ℤ}

/-- The percentage of a page counts the pages before it among the other pages, and the restore
multiplies it by all the pages. -/
lemma percentage_pages (hcount : 1 < pageCount) :
    pageToPosition page pageCount / 100 * pageCount =
      ((page - 1 : ℤ) : ℚ) + (page - 1) / (pageCount - 1) := by
  have hpos : (pageCount : ℚ) - 1 ≠ 0 := by
    have : (1 : ℚ) < pageCount := by exact_mod_cast hcount
    linarith
  rw [pageToPosition, if_neg (by omega)]
  push_cast
  field_simp
  ring

/-- The restore rounds to the page before, for a page of the first half. -/
lemma mathRound_percentage (hlow : 1 ≤ page) (hhigh : page ≤ pageCount) (hcount : 1 < pageCount) :
    mathRound (pageToPosition page pageCount / 100 * pageCount) =
      if pageCount + 1 ≤ 2 * page then page else page - 1 := by
  have hpos : (0 : ℚ) < pageCount - 1 := by
    have : (1 : ℚ) < pageCount := by exact_mod_cast hcount
    linarith
  have hlow' : (1 : ℚ) ≤ page := by exact_mod_cast hlow
  have hhigh' : (page : ℚ) ≤ pageCount := by exact_mod_cast hhigh
  rw [percentage_pages hcount, mathRound, add_assoc, Int.floor_intCast_add]
  split_ifs with hhalf
  · have hhalf' : (pageCount : ℚ) + 1 ≤ 2 * page := by exact_mod_cast hhalf
    have hge : (1 : ℚ) / 2 ≤ (page - 1) / (pageCount - 1) := by
      rw [le_div_iff₀ hpos]
      linarith
    have hle : ((page : ℚ) - 1) / (pageCount - 1) ≤ 1 := by
      rw [div_le_one hpos]
      linarith
    have hfloor : ⌊((page : ℚ) - 1) / (pageCount - 1) + 1 / 2⌋ = 1 := by
      rw [Int.floor_eq_iff]
      constructor
      · push_cast
        linarith
      · push_cast
        linarith
    omega
  · have hhalf' : 2 * (page : ℚ) < pageCount + 1 := by exact_mod_cast not_le.mp hhalf
    have hge : (0 : ℚ) ≤ (page - 1) / (pageCount - 1) := div_nonneg (by linarith) hpos.le
    have hlt : ((page : ℚ) - 1) / (pageCount - 1) < 1 / 2 := by
      rw [div_lt_iff₀ hpos]
      linarith
    have hfloor : ⌊((page : ℚ) - 1) / (pageCount - 1) + 1 / 2⌋ = 0 := by
      rw [Int.floor_eq_iff]
      constructor
      · push_cast
        linarith
      · push_cast
        linarith
    omega

/-- The page that the percentage of a page reopens at. -/
lemma parsePdfProgress_percentage (hlow : 1 ≤ page) (hhigh : page ≤ pageCount) {row : ProgressRow}
    (hpage : row.pageNumber = none)
    (hpercent : row.progressPercent = some (pageToPosition page pageCount)) :
    parsePdfProgress (some row) pageCount =
      some (if pageCount + 1 ≤ 2 * page then page else max 1 (page - 1)) := by
  have hpositive : 0 < pageCount := by omega
  simp only [parsePdfProgress, Option.bind_some, hpage, hpercent, hpositive, if_true]
  congr 1
  by_cases hcount : pageCount ≤ 1
  · obtain rfl : pageCount = 1 := by omega
    obtain rfl : page = 1 := by omega
    simp
  · rw [mathRound_percentage hlow hhigh (by omega)]
    split_ifs <;> omega

end Percentage

/-! ## When they agree -/

/-- The reader shows the page for its position and no earlier page for a later position, and a row
that carries the percentage only reopens at the page, also the row of a linked edition. -/
structure PagesAgree (page pageCount : ℤ) : Prop where
  shown : positionToPage (pageToPosition page pageCount) pageCount = page
  mono : Monotone fun position => positionToPage position pageCount
  reopens : ∀ row : ProgressRow, row.pageNumber = none →
    row.progressPercent = some (pageToPosition page pageCount) →
    parsePdfProgress (some row) pageCount = some page
  linked : ∀ (source : ProgressRow) (target : Option ProgressRow) (now : String),
    source.progressPercent = some (pageToPosition page pageCount) →
    parsePdfProgress (copiedProgress (some source) target now) pageCount = some page

/-- **Reader, stored percentage and restored page agree exactly on the first page and on the pages
of the second half.** -/
theorem pagesAgree_iff {page pageCount : ℤ} (hlow : 1 ≤ page) (hhigh : page ≤ pageCount) :
    PagesAgree page pageCount ↔ page = 1 ∨ pageCount + 1 ≤ 2 * page := by
  constructor
  · intro h
    have hrow := h.reopens
      { progressPercent := some (pageToPosition page pageCount), updatedAt := "" } rfl rfl
    rw [parsePdfProgress_percentage hlow hhigh rfl rfl] at hrow
    have hpage := Option.some.inj hrow
    split_ifs at hpage <;> omega
  · intro hpage
    have hreopens : ∀ row : ProgressRow, row.pageNumber = none →
        row.progressPercent = some (pageToPosition page pageCount) →
        parsePdfProgress (some row) pageCount = some page := by
      intro row hnone hpercent
      rw [parsePdfProgress_percentage hlow hhigh hnone hpercent]
      congr 1
      split_ifs <;> omega
    refine ⟨positionToPage_pageToPosition hlow hhigh, positionToPage_mono (hlow.trans hhigh),
      hreopens, fun source target now hsource => ?_⟩
    have hcopied : copiedProgress (some source) target now =
        some { progressPercent := some (pageToPosition page pageCount), updatedAt := now } := by
      simp [copiedProgress, hsource]
    rw [hcopied]
    exact hreopens _ rfl rfl

/-- The last page of three is agreed on. -/
theorem pagesAgree_last : PagesAgree 3 3 := (pagesAgree_iff (by decide) le_rfl).mpr (by decide)

/-- The claim fails on the second page of four: its percentage reopens the first page. -/
theorem not_pagesAgree_second : ¬ ∀ page pageCount : ℤ, 1 ≤ page → page ≤ pageCount →
    PagesAgree page pageCount := by
  intro h
  have hrow := (h 2 4 (by decide) (by decide)).reopens
    { progressPercent := some (pageToPosition 2 4), updatedAt := "" } rfl rfl
  rw [parsePdfProgress_percentage (by decide) (by decide) rfl rfl] at hrow
  exact absurd (Option.some.inj hrow) (by decide)

end TuxBooks
