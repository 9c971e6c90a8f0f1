import Mathlib.Algebra.Order.Field.Rat
import Mathlib.Algebra.Order.Floor.Ring
import Mathlib.Data.Rat.Floor
import Mathlib.Tactic.FieldSimp
import Mathlib.Tactic.Linarith

set_option relaxedAutoImplicit false
set_option autoImplicit false

/-!
# The shared reading position

The shell keeps a position in percent (`frontend/src/state/ReaderProvider.tsx`), and a PDF shows it
as a page (`frontend/src/components/reader/pdf/pdfPages.ts`). Positions are rational numbers in
place of floats.

## Main definitions

* `TuxBooks.clampPercent`, `TuxBooks.clamp01` — the bounds of the position and of a fraction.
* `TuxBooks.positionToPage`, `TuxBooks.pageToPosition` — the page of a position, and back.

## Main results

* `TuxBooks.positionToPage_pageToPosition` — a page comes back from its position.
-/

namespace TuxBooks

/-- The bounds that `setPosition` of the provider keeps. -/
def clampPercent (percentage : ℚ) : ℚ := max 0 (min 100 percentage)

/-- `clamp01` of the EPUB engine. -/
def clamp01 (fraction : ℚ) : ℚ := min (max fraction 0) 1

/-- `Math.round`. -/
def mathRound (x : ℚ) : ℤ := ⌊x + 1 / 2⌋

def positionToPage (position : ℚ) (pageCount : ℤ) : ℤ :=
  min (max 1 (mathRound (clampPercent position / 100 * (pageCount - 1)) + 1)) pageCount

def pageToPosition (page pageCount : ℤ) : ℚ :=
  if pageCount ≤ 1 then 0 else (page - 1) / (pageCount - 1) * 100

def clampPage (page pageCount : ℤ) : ℤ := min pageCount (max 1 page)

lemma clampPercent_eq_self {position : ℚ} (hlow : 0 ≤ position) (hhigh : position ≤ 100) :
    clampPercent position = position := by
  rw [clampPercent, min_eq_right hhigh, max_eq_right hlow]

/-- `setPosition` does not change the page. -/
lemma positionToPage_clampPercent (position : ℚ) (pageCount : ℤ) :
    positionToPage (clampPercent position) pageCount = positionToPage position pageCount := by
  have hlow : 0 ≤ clampPercent position := le_max_left _ _
  have hhigh : clampPercent position ≤ 100 := max_le (by norm_num) (min_le_left _ _)
  unfold positionToPage
  rw [clampPercent_eq_self hlow hhigh]

lemma mathRound_intCast (n : ℤ) : mathRound n = n := by
  rw [mathRound, Int.floor_intCast_add]
  norm_num

/-- **A page comes back from its position.** -/
theorem positionToPage_pageToPosition {page pageCount : ℤ} (hlow : 1 ≤ page)
    (hhigh : page ≤ pageCount) :
    positionToPage (pageToPosition page pageCount) pageCount = page := by
  have hround : mathRound (clampPercent (pageToPosition page pageCount) / 100 * (pageCount - 1)) =
      page - 1 := by
    unfold pageToPosition
    split_ifs with hone
    · obtain rfl : page = 1 := by omega
      obtain rfl : pageCount = 1 := by omega
      simpa using mathRound_intCast 0
    · have hpos : (0 : ℚ) < pageCount - 1 := by
        have : (1 : ℚ) < pageCount := by exact_mod_cast not_le.mp hone
        linarith
      have hnum : (0 : ℚ) ≤ page - 1 := by
        have : (1 : ℚ) ≤ page := by exact_mod_cast hlow
        linarith
      have hratio : ((page : ℚ) - 1) / (pageCount - 1) ≤ 1 := by
        have : (page : ℚ) ≤ pageCount := by exact_mod_cast hhigh
        rw [div_le_one hpos]
        linarith
      have hback : ((page : ℚ) - 1) / (pageCount - 1) * 100 / 100 * (pageCount - 1) =
          ((page - 1 : ℤ) : ℚ) := by
        push_cast
        field_simp
      rw [clampPercent_eq_self (by positivity) (by linarith), hback, mathRound_intCast]
  unfold positionToPage
  rw [hround]
  omega

lemma clampPage_le {page pageCount : ℤ} : clampPage page pageCount ≤ pageCount := min_le_left _ _

lemma one_le_clampPage {page pageCount : ℤ} (h : 1 ≤ pageCount) : 1 ≤ clampPage page pageCount :=
  le_min h (le_max_left _ _)

end TuxBooks
