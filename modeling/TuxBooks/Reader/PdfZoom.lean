import Mathlib.Algebra.BigOperators.Group.List.Basic
import Mathlib.Algebra.BigOperators.Ring.List
import Mathlib.Algebra.Order.BigOperators.Group.List
import Mathlib.Algebra.Order.Field.Rat
import Mathlib.Algebra.Order.Floor.Ring
import Mathlib.Data.Rat.Floor
import Mathlib.Tactic.FieldSimp
import Mathlib.Tactic.Linarith
import Mathlib.Tactic.LinearCombination
import TuxBooks.Lib.Arrangement
import TuxBooks.Lib.Bisect

set_option relaxedAutoImplicit false
set_option autoImplicit false

/-!
# Zooming around the pointer

The layout of a PDF in `frontend/src/components/reader/pdf/pdfLayout.ts` and the scroll offset that
an explicit zoom leads to. Offsets are rational numbers in place of floats. The gaps between pages
do not scale, while the new offset comes from the ratio of the two heights of the document.

## Main definitions

* `TuxBooks.PdfZoom.displayedSizes`, `TuxBooks.PdfZoom.layoutSlots` — the pages at a scale.
* `TuxBooks.PdfZoom.centerValue` — the scroll offset after a zoom.
* `TuxBooks.PdfZoom.anchorAtOffset`, `TuxBooks.PdfZoom.offsetForAnchor` — from an offset to a point
  of a page, and back.
* `TuxBooks.PdfZoom.Holds` — the point under the pointer stays within a gap of the pointer.

## Main results

* `TuxBooks.PdfZoom.displacement` — how far the point moves away from the pointer.
* `TuxBooks.PdfZoom.holds_iff` — when it stays within a gap.
* `TuxBooks.PdfZoom.balanced_of_uniform` — it does for pages of one height.
-/

namespace TuxBooks

namespace PdfZoom

/-! ## The layout -/

structure PageSize where
  pageNumber : ℤ
  width : ℚ
  height : ℚ

structure LayoutSlot where
  pageNumber : ℤ
  top : ℚ
  width : ℚ
  height : ℚ

/-- The gap between pages. -/
def PAGE_GAP_PX : ℚ := 8

def scaledPixels (points scale : ℚ) : ℤ := ⌊points * scale + 1 / 2⌋

def displayedSizes (sizes : List PageSize) (scale : ℚ) : List PageSize :=
  sizes.map fun size =>
    { pageNumber := size.pageNumber
      width := scaledPixels size.width scale
      height := scaledPixels size.height scale }

/-- The slots of pages below `top`. -/
def slotsFrom (gapPx top : ℚ) : List PageSize → List LayoutSlot
  | [] => []
  | size :: sizes =>
    ⟨size.pageNumber, top, size.width, size.height⟩ ::
      slotsFrom gapPx (top + (size.height + gapPx)) sizes

def layoutSlots (sizes : List PageSize) (gapPx : ℚ) : List LayoutSlot := slotsFrom gapPx 0 sizes

def documentHeight (slots : List LayoutSlot) : ℚ :=
  match slots.getLast? with
  | some last => last.top + last.height
  | none => 0

/-- The page of an offset, by bisection over the tops of the slots. -/
def pageAtOffset (offset : ℚ) (slots : List LayoutSlot) : Option ℤ :=
  if slots = [] then none
  else
    (slots[Bisect.search (fun i => slots[i]?.any fun probe => probe.top ≤ offset)
      0 slots.length 0]?).map LayoutSlot.pageNumber

/-! ## Scroll offsets -/

structure ScrollAdjustment where
  value : ℚ
  upper : ℚ
  pageSize : ℚ

def clampScrollValue (value upper pageSize : ℚ) : ℚ :=
  max 0 (min (max 0 (upper - pageSize)) value)

/-- The offset after a zoom, before it is clamped. -/
def centered (adjustment : ScrollAdjustment) (newUpper center : ℚ) : ℚ :=
  let factor :=
    if adjustment.upper ≠ 0 then (adjustment.value + center) / adjustment.upper else 0
  newUpper * factor - center

def centerValue (adjustment : ScrollAdjustment) (newUpper newPageSize zoomCenter : ℚ) : ℚ :=
  let center := if 0 ≤ zoomCenter then zoomCenter else adjustment.pageSize * (1 / 2)
  clampScrollValue (centered adjustment newUpper center) newUpper newPageSize

/-! ## Points of the document -/

structure DocumentAnchor where
  page : ℤ
  fraction : ℚ

def anchorAtOffset (offset : ℚ) (slots : List LayoutSlot) : Option DocumentAnchor :=
  (pageAtOffset offset slots).map fun page =>
    match slots.find? fun candidate => candidate.pageNumber = page with
    | some slot =>
      if slot.height ≤ 0 then ⟨page, 0⟩
      else ⟨page, max 0 (min 1 ((offset - slot.top) / slot.height))⟩
    | none => ⟨page, 0⟩

def offsetForAnchor (anchor : DocumentAnchor) (slots : List LayoutSlot) : Option ℚ :=
  (slots.find? fun candidate => candidate.pageNumber = anchor.page).map fun slot =>
    slot.top + anchor.fraction * slot.height

/-! ## A zoom -/

/-- A zoom with the pointer over a page: the pages, the two scales, and the scroll offset, the
height of the viewport and the place of the pointer in it. -/
structure Zoom where
  sizes : List PageSize
  gapPx : ℚ
  scale : ℚ
  newScale : ℚ
  value : ℚ
  viewportHeight : ℚ
  pointer : ℚ

namespace Zoom

variable (z : Zoom)

def slots : List LayoutSlot := layoutSlots (displayedSizes z.sizes z.scale) z.gapPx

def newSlots : List LayoutSlot := layoutSlots (displayedSizes z.sizes z.newScale) z.gapPx

/-- The offset in the document under the pointer. -/
def offset : ℚ := z.value + z.pointer

def adjustment : ScrollAdjustment := ⟨z.value, documentHeight z.slots, z.viewportHeight⟩

/-- `adjustmentValueForPolicy` with the policy `center`. -/
def newValue : ℚ :=
  centerValue z.adjustment (documentHeight z.newSlots) z.viewportHeight z.pointer

/-- The page heights scale to whole pixels. -/
def Whole (scale : ℚ) : Prop :=
  ∀ size ∈ z.sizes, (scaledPixels size.height scale : ℚ) = size.height * scale

/-- What the layout of a document and a pointer in its viewport satisfy. -/
structure Valid : Prop where
  gap : 0 < z.gapPx
  scale : 0 < z.scale
  newScale : 0 < z.newScale
  heights : ∀ size ∈ z.sizes, 0 ≤ size.height
  numbers : (z.sizes.map PageSize.pageNumber).Nodup
  whole : z.Whole z.scale
  newWhole : z.Whole z.newScale
  pointer : 0 ≤ z.pointer

/-- The pointer is over the page with `k` pages above it. -/
def Over (k : ℕ) : Prop :=
  ∃ slot, z.slots[k]? = some slot ∧ slot.top ≤ z.offset ∧ z.offset ≤ slot.top + slot.height

/-- The new offset is not clamped. -/
def Unclamped : Prop :=
  z.newValue = centered z.adjustment (documentHeight z.newSlots) z.pointer

/-- The point under the pointer is displayed within a gap, times the larger of one and the ratio of
the scales, of the pointer. -/
def Holds : Prop :=
  ∃ anchor place, anchorAtOffset z.offset z.slots = some anchor ∧
    offsetForAnchor anchor z.newSlots = some place ∧
    |place - z.newValue - z.pointer| ≤ z.gapPx * max 1 (z.newScale / z.scale)

/-- The height of the pages, at scale one. -/
def height : ℚ := (z.sizes.map PageSize.height).sum

/-- The gaps of the document. -/
def gaps : ℚ := z.sizes.length - 1

/-- The page height above the pointer at scale one, with `k` pages above its page. -/
def heightAbove (k : ℕ) : ℚ := (z.offset - k * z.gapPx) / z.scale

/-- The gaps above the pointer are in proportion to the page height above it, up to what a zoom
between the two scales does not show. -/
def Balanced (k : ℕ) : Prop :=
  |z.newScale - z.scale| * |k * z.height - z.gaps * z.heightAbove k| ≤
    max 1 (z.newScale / z.scale) * (z.height * z.scale + z.gaps * z.gapPx)

end Zoom

/-! ## The slots of a document -/

/-- The height of the pages above one. -/
def heightBefore (sizes : List PageSize) (k : ℕ) : ℚ := ((sizes.take k).map PageSize.height).sum

lemma length_slotsFrom (gapPx top : ℚ) (sizes : List PageSize) :
    (slotsFrom gapPx top sizes).length = sizes.length := by
  induction sizes generalizing top with
  | nil => rfl
  | cons size sizes ih => simp [slotsFrom, ih]

lemma map_pageNumber_slotsFrom (gapPx top : ℚ) (sizes : List PageSize) :
    (slotsFrom gapPx top sizes).map LayoutSlot.pageNumber = sizes.map PageSize.pageNumber := by
  induction sizes generalizing top with
  | nil => rfl
  | cons size sizes ih => simp [slotsFrom, ih]

/-- A page lies below the pages and the gaps above it. -/
lemma getElem?_slotsFrom (gapPx top : ℚ) (sizes : List PageSize) (k : ℕ) :
    (slotsFrom gapPx top sizes)[k]? = sizes[k]?.map fun size =>
      ⟨size.pageNumber, top + (heightBefore sizes k + k * gapPx), size.width, size.height⟩ := by
  induction sizes generalizing top k with
  | nil => rfl
  | cons size sizes ih =>
    cases k with
    | zero => simp [slotsFrom, heightBefore]
    | succ k =>
      simp only [slotsFrom, List.getElem?_cons_succ, ih]
      congr 1
      funext later
      congr 1
      simp only [heightBefore, List.take_succ_cons, List.map_cons, List.sum_cons]
      push_cast
      ring

lemma documentHeight_layoutSlots {sizes : List PageSize} (hne : sizes ≠ []) (gapPx : ℚ) :
    documentHeight (layoutSlots sizes gapPx) =
      (sizes.map PageSize.height).sum + (sizes.length - 1) * gapPx := by
  obtain ⟨before, last, rfl⟩ := (List.eq_nil_or_concat' sizes).resolve_left hne
  have hlast : (layoutSlots (before ++ [last]) gapPx).getLast? = some ⟨last.pageNumber,
      0 + (heightBefore (before ++ [last]) before.length + before.length * gapPx), last.width,
      last.height⟩ := by
    rw [List.getLast?_eq_getElem?, layoutSlots, length_slotsFrom, getElem?_slotsFrom]
    simp
  rw [documentHeight, hlast]
  simp only [heightBefore, List.take_left', List.map_append, List.sum_append, List.map_cons,
    List.map_nil, List.sum_singleton, List.length_append, List.length_singleton]
  push_cast
  ring

section Displayed

variable {sizes : List PageSize} {scale : ℚ}

lemma getElem?_displayedSizes (k : ℕ) :
    (displayedSizes sizes scale)[k]? = sizes[k]?.map fun size =>
      ⟨size.pageNumber, scaledPixels size.width scale, scaledPixels size.height scale⟩ := by
  simp [displayedSizes]

lemma heightBefore_displayedSizes
    (hwhole : ∀ size ∈ sizes, (scaledPixels size.height scale : ℚ) = size.height * scale) (k : ℕ) :
    heightBefore (displayedSizes sizes scale) k = heightBefore sizes k * scale := by
  have hmap : ((displayedSizes sizes scale).take k).map PageSize.height =
      (sizes.take k).map fun size => size.height * scale := by
    rw [displayedSizes, ← List.map_take, List.map_map]
    apply List.map_congr_left
    intro size hsize
    exact hwhole size (List.mem_of_mem_take hsize)
  rw [heightBefore, hmap, List.sum_map_mul_right]
  rfl

lemma sum_displayedSizes
    (hwhole : ∀ size ∈ sizes, (scaledPixels size.height scale : ℚ) = size.height * scale) :
    ((displayedSizes sizes scale).map PageSize.height).sum =
      (sizes.map PageSize.height).sum * scale := by
  have h := heightBefore_displayedSizes hwhole sizes.length
  have hlength : (displayedSizes sizes scale).length = sizes.length := List.length_map ..
  rw [heightBefore, heightBefore, List.take_length] at h
  rwa [← hlength, List.take_length] at h

end Displayed

/-! ## The page of an offset -/

/-- The page whose slot starts last before an offset. -/
lemma pageAtOffset_eq {offset : ℚ} {slots : List LayoutSlot} {k : ℕ} {slot : LayoutSlot}
    (hslot : slots[k]? = some slot)
    (hbelow : ∀ i slot, i ≤ k → slots[i]? = some slot → slot.top ≤ offset)
    (habove : ∀ i slot, k < i → slots[i]? = some slot → offset < slot.top) :
    pageAtOffset offset slots = some slot.pageNumber := by
  have hk : k < slots.length := (List.getElem?_eq_some_iff.mp hslot).1
  have hsearch : Bisect.search (fun i => slots[i]?.any fun probe => probe.top ≤ offset)
      0 slots.length 0 = k := by
    apply Bisect.search_eq _ _ hk
    · intro i hi
      have hlt : i < slots.length := by omega
      rw [List.getElem?_eq_getElem hlt, Option.any_some, decide_eq_true_eq]
      exact hbelow i _ hi (List.getElem?_eq_getElem hlt)
    · intro i hi hlt
      rw [List.getElem?_eq_getElem hlt, Option.any_some, decide_eq_false_iff_not, not_le]
      exact habove i _ hi (List.getElem?_eq_getElem hlt)
  have hne : slots ≠ [] := List.ne_nil_of_length_pos (by omega)
  rw [pageAtOffset, if_neg hne, hsearch, hslot, Option.map_some]

section Zooming

variable {z : Zoom} {k : ℕ}

open Zoom

lemma heightBefore_mono (hheights : ∀ size ∈ z.sizes, 0 ≤ size.height) {i j : ℕ} (h : i ≤ j) :
    heightBefore z.sizes i ≤ heightBefore z.sizes j := by
  obtain ⟨d, rfl⟩ := Nat.exists_eq_add_of_le h
  rw [heightBefore, heightBefore, List.take_add, List.map_append, List.sum_append]
  have hrest : 0 ≤ (((z.sizes.drop i).take d).map PageSize.height).sum := by
    apply List.sum_nonneg
    intro height hheight
    obtain ⟨size, hsize, rfl⟩ := List.mem_map.mp hheight
    exact hheights size (List.mem_of_mem_drop (List.mem_of_mem_take hsize))
  linarith

/-- The slot of a page at a scale at which the heights are whole. -/
lemma getElem?_slots {scale : ℚ} (hwhole : z.Whole scale) (i : ℕ) :
    (layoutSlots (displayedSizes z.sizes scale) z.gapPx)[i]? = z.sizes[i]?.map fun size =>
      ⟨size.pageNumber, heightBefore z.sizes i * scale + i * z.gapPx,
        scaledPixels size.width scale, size.height * scale⟩ := by
  rw [layoutSlots, getElem?_slotsFrom, getElem?_displayedSizes, Option.map_map]
  cases hsize : z.sizes[i]? with
  | none => rfl
  | some size =>
    have hheight := hwhole size (List.mem_of_getElem? hsize)
    simp [heightBefore_displayedSizes hwhole, hheight]

/-- What the pointer is over. -/
lemma over_iff (hz : z.Valid) : z.Over k ↔ ∃ size, z.sizes[k]? = some size ∧
    heightBefore z.sizes k * z.scale + k * z.gapPx ≤ z.offset ∧
    z.offset ≤ heightBefore z.sizes k * z.scale + k * z.gapPx + size.height * z.scale := by
  rw [Over, slots, getElem?_slots hz.whole]
  cases z.sizes[k]? with
  | none => simp
  | some size => simp

/-- The slots of the document are found by the numbers of their pages. -/
lemma find?_slots (hz : z.Valid) (scale : ℚ) {slot : LayoutSlot}
    (hslot : slot ∈ layoutSlots (displayedSizes z.sizes scale) z.gapPx) :
    ((layoutSlots (displayedSizes z.sizes scale) z.gapPx).find? fun candidate =>
      candidate.pageNumber = slot.pageNumber) = some slot := by
  apply Arrangement.find?_key _ hslot
  rw [layoutSlots, map_pageNumber_slotsFrom, displayedSizes, List.map_map]
  exact hz.numbers

/-- The anchor of the point under the pointer. -/
lemma anchorAtOffset_eq (hz : z.Valid) {size : PageSize} (hsize : z.sizes[k]? = some size)
    (hlow : heightBefore z.sizes k * z.scale + k * z.gapPx ≤ z.offset)
    (hhigh : z.offset ≤
      heightBefore z.sizes k * z.scale + k * z.gapPx + size.height * z.scale) :
    ∃ fraction, anchorAtOffset z.offset z.slots = some ⟨size.pageNumber, fraction⟩ ∧
      fraction * (size.height * z.scale) =
        z.offset - (heightBefore z.sizes k * z.scale + k * z.gapPx) := by
  have hscale := hz.scale
  have hgap := hz.gap
  have hslot := getElem?_slots hz.whole k
  rw [hsize, Option.map_some] at hslot
  have hpage : pageAtOffset z.offset z.slots = some size.pageNumber := by
    apply pageAtOffset_eq hslot
    · intro i slot hi hslot
      rw [getElem?_slots hz.whole] at hslot
      obtain ⟨size', -, rfl⟩ := Option.map_eq_some_iff.mp hslot
      have hbefore := mul_le_mul_of_nonneg_right (heightBefore_mono hz.heights hi) hscale.le
      have hgaps : (i : ℚ) * z.gapPx ≤ k * z.gapPx :=
        mul_le_mul_of_nonneg_right (by exact_mod_cast hi) hgap.le
      simp only
      linarith
    · intro i slot hi hslot
      rw [getElem?_slots hz.whole] at hslot
      obtain ⟨size', -, rfl⟩ := Option.map_eq_some_iff.mp hslot
      have hnext : heightBefore z.sizes (k + 1) = heightBefore z.sizes k + size.height := by
        rw [heightBefore, heightBefore, List.take_add_one, hsize]
        simp
      have hbefore := mul_le_mul_of_nonneg_right (heightBefore_mono hz.heights hi) hscale.le
      have hgaps : ((k : ℚ) + 1) * z.gapPx ≤ i * z.gapPx :=
        mul_le_mul_of_nonneg_right (by exact_mod_cast hi) hgap.le
      rw [Nat.succ_eq_add_one, hnext, add_mul] at hbefore
      simp only
      linarith
  have hfind := find?_slots hz z.scale (List.mem_of_getElem? hslot)
  simp only at hfind
  have hanchor : anchorAtOffset z.offset z.slots = some
      (if size.height * z.scale ≤ 0 then ⟨size.pageNumber, 0⟩
        else ⟨size.pageNumber, max 0 (min 1 ((z.offset -
          (heightBefore z.sizes k * z.scale + k * z.gapPx)) / (size.height * z.scale)))⟩) := by
    rw [anchorAtOffset, hpage, Option.map_some, Zoom.slots, hfind]
  by_cases hflat : size.height * z.scale ≤ 0
  · rw [if_pos hflat] at hanchor
    refine ⟨0, hanchor, ?_⟩
    have hnonneg := mul_nonneg (hz.heights size (List.mem_of_getElem? hsize)) hscale.le
    linarith
  · rw [if_neg hflat] at hanchor
    rw [not_le] at hflat
    have hfraction : 0 ≤ (z.offset - (heightBefore z.sizes k * z.scale + k * z.gapPx)) /
        (size.height * z.scale) := div_nonneg (by linarith) hflat.le
    have hfraction' : (z.offset - (heightBefore z.sizes k * z.scale + k * z.gapPx)) /
        (size.height * z.scale) ≤ 1 := by
      rw [div_le_one hflat]
      linarith
    rw [min_eq_right hfraction', max_eq_right hfraction] at hanchor
    exact ⟨_, hanchor, div_mul_cancel₀ _ hflat.ne'⟩

/-- Where the point under the pointer is displayed after the zoom. -/
lemma offsetForAnchor_eq (hz : z.Valid) {size : PageSize} (hsize : z.sizes[k]? = some size)
    {fraction : ℚ} (hfraction : fraction * (size.height * z.scale) =
      z.offset - (heightBefore z.sizes k * z.scale + k * z.gapPx)) :
    offsetForAnchor ⟨size.pageNumber, fraction⟩ z.newSlots =
      some (z.heightAbove k * z.newScale + k * z.gapPx) := by
  have hslot := getElem?_slots hz.newWhole k
  rw [hsize, Option.map_some] at hslot
  have hfind := find?_slots hz z.newScale (List.mem_of_getElem? hslot)
  simp only at hfind
  rw [offsetForAnchor, newSlots]
  simp only [hfind, Option.map_some, heightAbove]
  have hscale := hz.scale.ne'
  congr 1
  field_simp
  linear_combination z.newScale * hfraction

/-- The height of the document at a scale. -/
lemma documentHeight_slots {scale : ℚ} (hwhole : z.Whole scale) (hne : z.sizes ≠ []) :
    documentHeight (layoutSlots (displayedSizes z.sizes scale) z.gapPx) =
      z.height * scale + z.gaps * z.gapPx := by
  have hdisplayed : displayedSizes z.sizes scale ≠ [] := by
    simpa [displayedSizes] using hne
  rw [documentHeight_layoutSlots hdisplayed, sum_displayedSizes hwhole, Zoom.height, Zoom.gaps,
    displayedSizes, List.length_map]

/-- The new offset before it is clamped. -/
lemma centered_eq (hz : z.Valid) (hne : z.sizes ≠ [])
    (htall : z.height * z.scale + z.gaps * z.gapPx ≠ 0) :
    centered z.adjustment (documentHeight z.newSlots) z.pointer =
      (z.height * z.newScale + z.gaps * z.gapPx) *
        (z.offset / (z.height * z.scale + z.gaps * z.gapPx)) - z.pointer := by
  have hupper : z.adjustment.upper = z.height * z.scale + z.gaps * z.gapPx :=
    documentHeight_slots hz.whole hne
  have hvalue : z.adjustment.value + z.pointer = z.offset := rfl
  rw [centered, hupper, hvalue, if_pos htall, Zoom.newSlots, documentHeight_slots hz.newWhole hne]

/-- An offset within the range of the new layout is not clamped. -/
lemma unclamped_of_le (hz : z.Valid)
    (hlow : 0 ≤ centered z.adjustment (documentHeight z.newSlots) z.pointer)
    (hhigh : centered z.adjustment (documentHeight z.newSlots) z.pointer ≤
      documentHeight z.newSlots - z.viewportHeight) : z.Unclamped := by
  rw [Zoom.Unclamped, Zoom.newValue, centerValue, if_pos hz.pointer, clampScrollValue]
  rw [min_eq_right (le_max_of_le_right hhigh), max_eq_right hlow]

/-! ## The displacement -/

lemma height_nonneg (hz : z.Valid) : 0 ≤ z.height := by
  apply List.sum_nonneg
  intro height hheight
  obtain ⟨size, hsize, rfl⟩ := List.mem_map.mp hheight
  exact hz.heights size hsize

lemma gaps_nonneg (hne : z.sizes ≠ []) : 0 ≤ z.gaps := by
  have hone : (1 : ℚ) ≤ z.sizes.length := by
    exact_mod_cast List.length_pos_of_ne_nil hne
  rw [Zoom.gaps]
  linarith

/-- A document without height is one page, and the pointer is at its top. -/
lemma flat (hz : z.Valid) (hover : z.Over k) (hne : z.sizes ≠ [])
    (hflat : z.height * z.scale + z.gaps * z.gapPx = 0) :
    z.height = 0 ∧ z.gaps = 0 ∧ k = 0 ∧ z.heightAbove k = 0 := by
  have hheight := mul_nonneg (height_nonneg hz) hz.scale.le
  have hgaps := mul_nonneg (gaps_nonneg hne) hz.gap.le
  have hnone : z.gaps = 0 := by
    have hzero : z.gaps * z.gapPx = 0 := by linarith
    exact (mul_eq_zero.mp hzero).resolve_right hz.gap.ne'
  have hlow : z.height = 0 := by
    have hzero : z.height * z.scale = 0 := by linarith
    exact (mul_eq_zero.mp hzero).resolve_right hz.scale.ne'
  obtain ⟨size, hsize, habove, hbelow⟩ := (over_iff hz).mp hover
  have hone : z.sizes.length = 1 := by
    have hcast : (z.sizes.length : ℚ) = 1 := by
      rw [Zoom.gaps] at hnone
      linarith
    exact_mod_cast hcast
  have hfirst : k = 0 := by
    have hlt := (List.getElem?_eq_some_iff.mp hsize).1
    omega
  subst hfirst
  have hsum : size.height = z.height := by
    obtain ⟨size', hsizes⟩ := List.length_eq_one_iff.mp hone
    rw [hsizes] at hsize
    cases hsize
    simp [Zoom.height, hsizes]
  have hoffset : z.offset = 0 := by
    rw [hsum, hlow] at hbelow
    simp only [heightBefore, List.take_zero, List.map_nil, List.sum_nil, Nat.cast_zero,
      zero_mul, add_zero] at habove hbelow
    linarith
  refine ⟨hlow, hnone, rfl, ?_⟩
  simp [Zoom.heightAbove, hoffset]

/-- **How far the point under the pointer is displayed below the pointer.** -/
theorem displacement (hz : z.Valid) (hover : z.Over k) (hunclamped : z.Unclamped) :
    z.heightAbove k * z.newScale + k * z.gapPx - z.newValue - z.pointer =
      z.gapPx * (z.scale - z.newScale) * (k * z.height - z.gaps * z.heightAbove k) /
        (z.height * z.scale + z.gaps * z.gapPx) := by
  obtain ⟨size, hsize, -, -⟩ := (over_iff hz).mp hover
  have hne : z.sizes ≠ [] := List.ne_nil_of_mem (List.mem_of_getElem? hsize)
  have hoffset : z.offset = z.heightAbove k * z.scale + k * z.gapPx := by
    rw [Zoom.heightAbove, div_mul_cancel₀ _ hz.scale.ne']
    ring
  rw [hunclamped]
  by_cases hflat : z.height * z.scale + z.gaps * z.gapPx = 0
  · obtain ⟨hheight, hgaps, rfl, habove⟩ := flat hz hover hne hflat
    have hupper : documentHeight z.newSlots = 0 := by
      rw [Zoom.newSlots, documentHeight_slots hz.newWhole hne, hheight, hgaps]
      ring
    simp [centered, hheight, hgaps, habove, hupper]
  · rw [centered_eq hz hne hflat, hoffset]
    have hcancel := div_mul_cancel₀ (z.heightAbove k * z.scale + k * z.gapPx) hflat
    rw [eq_div_iff hflat]
    linear_combination -(z.height * z.newScale + z.gaps * z.gapPx) * hcancel

/-- The point under the pointer stays near it when its displacement is small. -/
lemma holds_iff_displacement (hz : z.Valid) (hover : z.Over k) :
    z.Holds ↔ |z.heightAbove k * z.newScale + k * z.gapPx - z.newValue - z.pointer| ≤
      z.gapPx * max 1 (z.newScale / z.scale) := by
  obtain ⟨size, hsize, hlow, hhigh⟩ := (over_iff hz).mp hover
  obtain ⟨fraction, hanchor, hfraction⟩ := anchorAtOffset_eq hz hsize hlow hhigh
  have hplace := offsetForAnchor_eq hz hsize hfraction
  constructor
  · rintro ⟨anchor, place, hanchor', hplace', h⟩
    rw [hanchor] at hanchor'
    cases hanchor'
    rw [hplace] at hplace'
    cases hplace'
    exact h
  · intro h
    exact ⟨_, _, hanchor, hplace, h⟩

/-- **When the point under the pointer stays within a gap of the pointer.** -/
theorem holds_iff (hz : z.Valid) (hover : z.Over k) (hunclamped : z.Unclamped) :
    z.Holds ↔ z.Balanced k := by
  obtain ⟨size, hsize, -, -⟩ := (over_iff hz).mp hover
  have hne : z.sizes ≠ [] := List.ne_nil_of_mem (List.mem_of_getElem? hsize)
  rw [holds_iff_displacement hz hover, displacement hz hover hunclamped, Zoom.Balanced]
  by_cases hflat : z.height * z.scale + z.gaps * z.gapPx = 0
  · obtain ⟨hheight, hgaps, -, -⟩ := flat hz hover hne hflat
    have hroom : 0 ≤ z.gapPx * max 1 (z.newScale / z.scale) :=
      mul_nonneg hz.gap.le (le_max_of_le_left zero_le_one)
    simp [hheight, hgaps, hroom]
  · have hpos : 0 < z.height * z.scale + z.gaps * z.gapPx := by
      apply lt_of_le_of_ne _ (Ne.symm hflat)
      exact add_nonneg (mul_nonneg (height_nonneg hz) hz.scale.le)
        (mul_nonneg (gaps_nonneg hne) hz.gap.le)
    rw [abs_div, abs_mul, abs_mul, abs_of_pos hz.gap, abs_of_pos hpos, abs_sub_comm,
      div_le_iff₀ hpos, mul_assoc, mul_assoc, mul_le_mul_iff_right₀ hz.gap]

lemma heightBefore_uniform {sizes : List PageSize} {height : ℚ}
    (huniform : ∀ size ∈ sizes, size.height = height) {i : ℕ} (hi : i ≤ sizes.length) :
    heightBefore sizes i = i * height := by
  have hmap : (sizes.take i).map PageSize.height = List.replicate i height := by
    rw [List.eq_replicate_iff]
    constructor
    · simpa using hi
    · intro h hh
      obtain ⟨size, hsize, rfl⟩ := List.mem_map.mp hh
      exact huniform size (List.mem_of_mem_take hsize)
  rw [heightBefore, hmap, List.sum_replicate, nsmul_eq_mul]

/-- Pages of one height are balanced. -/
theorem balanced_of_uniform (hz : z.Valid) (hover : z.Over k) {height : ℚ}
    (huniform : ∀ size ∈ z.sizes, size.height = height) : z.Balanced k := by
  obtain ⟨size, hsize, hlow, hhigh⟩ := (over_iff hz).mp hover
  have hmem := List.mem_of_getElem? hsize
  have hlt := (List.getElem?_eq_some_iff.mp hsize).1
  have hnonneg : 0 ≤ height := huniform size hmem ▸ hz.heights size hmem
  have hscale := hz.scale
  have hnewScale := hz.newScale
  have hgaps := gaps_nonneg (List.ne_nil_of_mem hmem)
  have hgap := hz.gap
  rw [heightBefore_uniform huniform hlt.le] at hlow hhigh
  rw [huniform size hmem] at hhigh
  have htotal : z.height = (z.gaps + 1) * height := by
    have h := heightBefore_uniform huniform (Nat.le_refl z.sizes.length)
    rw [heightBefore, List.take_length] at h
    rw [Zoom.height, h, Zoom.gaps]
    ring
  -- the page height above the pointer
  have habove : k * height ≤ z.heightAbove k := by
    rw [Zoom.heightAbove, le_div_iff₀ hscale]
    linarith
  have hbelow : z.heightAbove k ≤ (k + 1) * height := by
    rw [Zoom.heightAbove, div_le_iff₀ hscale]
    linarith
  have hk : (k : ℚ) ≤ z.gaps := by
    have hcast : (k : ℚ) + 1 ≤ z.sizes.length := by exact_mod_cast hlt
    rw [Zoom.gaps]
    linarith
  have hdifference : |k * z.height - z.gaps * z.heightAbove k| ≤ z.height := by
    rw [abs_le, htotal]
    have hsome : 0 ≤ (k : ℚ) * height := mul_nonneg k.cast_nonneg hnonneg
    have hfew : (k : ℚ) * height ≤ z.gaps * height := mul_le_mul_of_nonneg_right hk hnonneg
    have hmost := mul_le_mul_of_nonneg_left habove hgaps
    have hleast := mul_le_mul_of_nonneg_left hbelow hgaps
    constructor <;> linarith
  have hscales : |z.newScale - z.scale| ≤ max 1 (z.newScale / z.scale) * z.scale := by
    rw [max_mul_of_nonneg _ _ hscale.le, one_mul, div_mul_cancel₀ _ hscale.ne', abs_le]
    have hold := le_max_left z.scale z.newScale
    have hnew := le_max_right z.scale z.newScale
    constructor <;> linarith
  calc |z.newScale - z.scale| * |k * z.height - z.gaps * z.heightAbove k|
      ≤ max 1 (z.newScale / z.scale) * z.scale * z.height :=
        mul_le_mul hscales hdifference (abs_nonneg _) (by positivity)
    _ = max 1 (z.newScale / z.scale) * (z.height * z.scale) := by ring
    _ ≤ max 1 (z.newScale / z.scale) * (z.height * z.scale + z.gaps * z.gapPx) := by
        apply mul_le_mul_of_nonneg_left _ (le_max_of_le_left zero_le_one)
        exact le_add_of_nonneg_right (mul_nonneg hgaps hgap.le)

end Zooming

/-! ## Twice the scale -/

/-- Pages of the given heights, zoomed from scale one to two. -/
def enlarged (heights : List ℕ) (value viewportHeight pointer : ℚ) : Zoom where
  sizes := heights.zipIdx.map fun page => ⟨page.2 + 1, 1, page.1⟩
  gapPx := PAGE_GAP_PX
  scale := 1
  newScale := 2
  value := value
  viewportHeight := viewportHeight
  pointer := pointer

lemma scaledPixels_natCast (height scale : ℕ) :
    (scaledPixels height scale : ℚ) = height * scale := by
  have hfloor : scaledPixels height scale = (height * scale : ℕ) := by
    rw [scaledPixels, Int.floor_eq_iff]
    push_cast
    constructor <;> linarith
  rw [hfloor]
  push_cast
  rfl

section Enlarged

variable {heights : List ℕ} {value viewportHeight pointer : ℚ}

lemma enlarged_valid (hpointer : 0 ≤ pointer) :
    (enlarged heights value viewportHeight pointer).Valid where
  gap := by norm_num [enlarged, PAGE_GAP_PX]
  scale := by norm_num [enlarged]
  newScale := by norm_num [enlarged]
  heights := by
    intro size hsize
    obtain ⟨page, -, rfl⟩ := List.mem_map.mp hsize
    exact Nat.cast_nonneg _
  numbers := by
    have hmap : (enlarged heights value viewportHeight pointer).sizes.map PageSize.pageNumber =
        (List.range' 0 heights.length).map fun i => ((i : ℕ) : ℤ) + 1 := by
      rw [← List.zipIdx_map_snd, enlarged, List.map_map, List.map_map]
      rfl
    rw [hmap]
    apply List.Nodup.map _ List.nodup_range'
    intro i j hij
    simpa using hij
  whole := by
    intro size hsize
    obtain ⟨page, -, rfl⟩ := List.mem_map.mp hsize
    simpa [enlarged] using scaledPixels_natCast page.1 1
  newWhole := by
    intro size hsize
    obtain ⟨page, -, rfl⟩ := List.mem_map.mp hsize
    simpa [enlarged] using scaledPixels_natCast page.1 2
  pointer := hpointer

/-- The offset after the zoom of a document with some height. -/
lemma enlarged_unclamped (hne : heights ≠ []) (hpointer : 0 ≤ pointer) {height gaps : ℚ}
    (hheight : (enlarged heights value viewportHeight pointer).height = height)
    (hgaps : (enlarged heights value viewportHeight pointer).gaps = gaps)
    (htall : height + gaps * 8 ≠ 0)
    (hlow : pointer ≤ (height * 2 + gaps * 8) * ((value + pointer) / (height + gaps * 8)))
    (hhigh : (height * 2 + gaps * 8) * ((value + pointer) / (height + gaps * 8)) - pointer ≤
      height * 2 + gaps * 8 - viewportHeight) :
    (enlarged heights value viewportHeight pointer).Unclamped := by
  have hvalid := @enlarged_valid heights value viewportHeight pointer hpointer
  have hsizes : (enlarged heights value viewportHeight pointer).sizes ≠ [] := by
    simpa [enlarged] using hne
  have hgap : (enlarged heights value viewportHeight pointer).gapPx = 8 := rfl
  have hold : (enlarged heights value viewportHeight pointer).scale = 1 := rfl
  have htwice : (enlarged heights value viewportHeight pointer).newScale = 2 := rfl
  have hnew : documentHeight (enlarged heights value viewportHeight pointer).newSlots =
      height * 2 + gaps * 8 := by
    rw [Zoom.newSlots, documentHeight_slots hvalid.newWhole hsizes, hheight, hgaps, hgap, htwice]
  have hcentered := centered_eq hvalid hsizes (by rwa [hheight, hgaps, hgap, hold, mul_one])
  rw [hheight, hgaps, hgap, hold, htwice, mul_one] at hcentered
  apply unclamped_of_le hvalid
  · rw [hcentered]
    exact sub_nonneg.mpr hlow
  · rw [hcentered, hnew]
    exact hhigh

end Enlarged

/-- The pointer is halfway down the first of two equal pages. -/
theorem holds_iff_pages : ∃ z : Zoom, z.Valid ∧ z.Over 0 ∧ z.Unclamped ∧ z.Holds := by
  have hvalid := @enlarged_valid [100, 100] 30 100 20 (by norm_num)
  have hover : (enlarged [100, 100] 30 100 20).Over 0 := by
    rw [over_iff hvalid]
    refine ⟨⟨1, 1, 100⟩, rfl, ?_⟩
    norm_num [enlarged, heightBefore, Zoom.offset]
  have hunclamped : (enlarged [100, 100] 30 100 20).Unclamped := by
    have hheight : (enlarged [100, 100] 30 100 20).height = 200 := by
      norm_num [enlarged, Zoom.height]
    have hgaps : (enlarged [100, 100] 30 100 20).gaps = 1 := by
      norm_num [enlarged, Zoom.gaps]
    apply enlarged_unclamped (by simp) (by norm_num) hheight hgaps <;> norm_num
  have hbalanced : (enlarged [100, 100] 30 100 20).Balanced 0 := by
    apply @balanced_of_uniform _ _ hvalid hover 100
    simp [enlarged]
  exact ⟨_, hvalid, hover, hunclamped, (holds_iff hvalid hover hunclamped).mpr hbalanced⟩

/-- Three short pages lie above a long one. -/
def unfolded : List ℕ := [200, 200, 200, 5000]

/-- The gaps above the pointer do not grow, and the new offset supposes that they do. -/
theorem not_holds_unfolded : ∃ z : Zoom, z.Valid ∧ z.Over 3 ∧ z.Unclamped ∧ ¬ z.Holds := by
  have hvalid := @enlarged_valid unfolded 574 100 50 (by norm_num)
  have hover : (enlarged unfolded 574 100 50).Over 3 := by
    rw [over_iff hvalid]
    refine ⟨⟨4, 1, 5000⟩, rfl, ?_⟩
    norm_num [enlarged, unfolded, heightBefore, Zoom.offset, PAGE_GAP_PX]
  have hheight : (enlarged unfolded 574 100 50).height = 5600 := by
    norm_num [enlarged, unfolded, Zoom.height]
  have hgaps : (enlarged unfolded 574 100 50).gaps = 3 := by
    norm_num [enlarged, unfolded, Zoom.gaps]
  have hunclamped : (enlarged unfolded 574 100 50).Unclamped := by
    apply enlarged_unclamped (by simp [unfolded]) (by norm_num) hheight hgaps <;> norm_num
  refine ⟨_, hvalid, hover, hunclamped, ?_⟩
  rw [holds_iff_displacement hvalid hover, displacement hvalid hover hunclamped, hheight, hgaps,
    not_le]
  norm_num [enlarged, Zoom.heightAbove, Zoom.offset, PAGE_GAP_PX]

end PdfZoom

end TuxBooks
