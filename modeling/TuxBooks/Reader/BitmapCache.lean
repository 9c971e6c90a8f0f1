import Mathlib.Algebra.Order.BigOperators.Group.List
import TuxBooks.Reader.Position

set_option relaxedAutoImplicit false
set_option autoImplicit false

/-!
# Page bitmaps

The ratio that a page of a PDF is rastered at (`pdfRenderPolicy.ts`), and the cache of the bitmaps
that were rastered (`pdfBitmapCache.ts`), both in `frontend/src/components/reader/pdf`. Numbers are
rational, and `Math.sqrt` is a parameter.

## Main definitions

* `TuxBooks.PdfCanvas.effectiveRenderRatio`, `TuxBooks.PdfCanvas.regionRenderRatioForPage` — the
  ratio of a whole page and of a region.
* `TuxBooks.PdfCanvas.Raster`, `TuxBooks.PdfCanvas.Buffer` — what a buffer shows.
* `TuxBooks.PdfCanvas.PdfBitmapCache` — the cache, with the bytes that it retains.

## Main results

* `TuxBooks.PdfCanvas.regionRenderRatioForPage_le` — a region is inside the budget of its page.
* `TuxBooks.PdfCanvas.PdfBitmapCache.mem_of_get`, `TuxBooks.PdfCanvas.PdfBitmapCache.mem_of_put` —
  what the cache gives was put in.
-/

namespace TuxBooks

namespace PdfCanvas

/-! ## Render ratios -/

def MAX_RENDER_PIXELS : ℚ := 2 ^ 24

def MAX_RENDER_PIXELS_HARD : ℚ := 2 ^ 25

def MAX_RENDER_DIMENSION : ℚ := 8192

section

variable (sqrt : ℚ → ℚ)

/-- The device pixels for each CSS pixel of a whole page. -/
def effectiveRenderRatio (width height scale dpr : ℚ) : ℚ :=
  if ¬0 < width ∨ ¬0 < height ∨ ¬0 < scale ∨ ¬0 < dpr then 1
  else
    let area := width * height * scale * scale
    let areaSoft := sqrt (MAX_RENDER_PIXELS / area)
    let areaHard := sqrt (MAX_RENDER_PIXELS_HARD / area)
    let dimensionRatio :=
      min (MAX_RENDER_DIMENSION / (width * scale)) (MAX_RENDER_DIMENSION / (height * scale))
    let candidate := min (min dpr areaSoft) dimensionRatio
    let floor := min (min 1 areaHard) dimensionRatio
    min dpr (max candidate floor)

/-- The whole-page raster would be coarser than the display. -/
def needsRegionRender (width height scale dpr : ℚ) : Bool :=
  effectiveRenderRatio sqrt width height scale dpr < dpr - 1 / 10 ^ 9

/-- The device pixels for each CSS pixel of a region. -/
def regionRenderRatio (width height dpr : ℚ) : ℚ :=
  if ¬0 < width ∨ ¬0 < height ∨ ¬0 < dpr then 1
  else
    let hard := sqrt (MAX_RENDER_PIXELS_HARD / (width * height))
    let dimensionRatio := min (MAX_RENDER_DIMENSION / width) (MAX_RENDER_DIMENSION / height)
    max (1 / 100) (min (min dpr hard) dimensionRatio)

/-- Region ratio additionally capped by the whole-page budget. -/
def regionRenderRatioForPage (pageUnitWidth pageUnitHeight regionWidth regionHeight scale dpr : ℚ) :
    ℚ :=
  min (regionRenderRatio sqrt regionWidth regionHeight dpr)
    (effectiveRenderRatio sqrt pageUnitWidth pageUnitHeight scale dpr)

lemma effectiveRenderRatio_le {dpr : ℚ} (hdpr : 0 < dpr) {width height scale : ℚ}
    (hwidth : 0 < width) (hheight : 0 < height) (hscale : 0 < scale) :
    effectiveRenderRatio sqrt width height scale dpr ≤ dpr := by
  unfold effectiveRenderRatio
  rw [if_neg (by simp [hdpr, hwidth, hheight, hscale])]
  exact min_le_left _ _

/-- The raster of a region asks for no larger device scale than that of its page. -/
theorem regionRenderRatioForPage_le (width height regionWidth regionHeight scale dpr : ℚ) :
    regionRenderRatioForPage sqrt width height regionWidth regionHeight scale dpr ≤
      effectiveRenderRatio sqrt width height scale dpr :=
  min_le_right _ _

end

/-! ## Rasters -/

/-- A part of a page, in CSS pixels from its top left corner. -/
structure Rect where
  top : ℚ
  left : ℚ
  width : ℚ
  height : ℚ
  deriving DecidableEq

/-- What a raster shows: the whole page, or a region of it. -/
structure Raster where
  document : ℕ
  pageNumber : ℕ
  scale : ℚ
  ratio : ℚ
  /-- The palette, and the name of its variant. -/
  smartColors : Option String
  variant : String
  region : Option Rect
  deriving DecidableEq

/-- A private canvas with the size of its store. -/
structure Buffer where
  raster : Raster
  width : ℕ
  height : ℕ
  deriving DecidableEq

/-- The key `full` is `none`. -/
structure PdfBitmap where
  pageNumber : ℕ
  regionKey : Option Rect
  scale : ℚ
  ratio : ℚ
  variant : String
  buffer : Buffer
  deriving DecidableEq

def bitmapBytes (buffer : Buffer) : ℕ := buffer.width * buffer.height * 4

/-- `cacheKey`. -/
def PdfBitmap.cacheKey (bitmap : PdfBitmap) : ℕ × Option Rect :=
  (bitmap.pageNumber, bitmap.regionKey)

/-- The bytes of some bitmaps. -/
def byteSize (entries : List PdfBitmap) : ℕ := (entries.map (bitmapBytes ·.buffer)).sum

@[simp] lemma byteSize_cons (bitmap : PdfBitmap) (entries : List PdfBitmap) :
    byteSize (bitmap :: entries) = bitmapBytes bitmap.buffer + byteSize entries := by
  simp [byteSize]

@[simp] lemma byteSize_concat (entries : List PdfBitmap) (bitmap : PdfBitmap) :
    byteSize (entries ++ [bitmap]) = byteSize entries + bitmapBytes bitmap.buffer := by
  simp [byteSize]

/-! ## The cache -/

lemma byteSize_nil : 0 = byteSize [] := rfl

/-- The entries in the order of the map, the least recently used one first. The bytes are those of
the entries. -/
structure PdfBitmapCache where
  maxBytes : ℕ := 320 * 1024 * 1024
  maxEntries : ℕ := 8
  entries : List PdfBitmap := []
  bytes : ℕ := 0
  bytes_eq : bytes = byteSize entries := by rfl

namespace PdfBitmapCache

variable (cache : PdfBitmapCache)

/-- What the entry of a key adds to the bytes. -/
lemma byteSize_eraseP {entries : List PdfBitmap} {key : ℕ × Option Rect} {bitmap : PdfBitmap}
    (hfind : entries.find? (·.cacheKey = key) = some bitmap) :
    byteSize entries = byteSize (entries.eraseP (·.cacheKey = key)) +
      bitmapBytes bitmap.buffer := by
  induction entries with
  | nil => cases hfind
  | cons first rest ih =>
    by_cases hkey : first.cacheKey = key
    · rw [List.find?_cons_of_pos (by simpa using hkey), Option.some.injEq] at hfind
      rw [List.eraseP_cons_of_pos (by simpa using hkey), byteSize_cons, hfind, add_comm]
    · rw [List.find?_cons_of_neg (by simpa using hkey)] at hfind
      rw [List.eraseP_cons_of_neg (by simpa using hkey), byteSize_cons, byteSize_cons, ih hfind,
        add_assoc]

/-- The bitmap of a page with exactly this scale, ratio and variant. -/
def get (pageNumber : ℕ) (scale ratio : ℚ) (variant : String) (regionKey : Option Rect) :
    Option PdfBitmap :=
  (cache.entries.find? (·.cacheKey = (pageNumber, regionKey))).filter fun hit =>
    hit.scale = scale ∧ hit.ratio = ratio ∧ hit.variant = variant

/-- The entry of a key is deleted, and its bytes with it. -/
def remove (key : ℕ × Option Rect) : PdfBitmapCache :=
  match hfind : cache.entries.find? (·.cacheKey = key) with
  | none => cache
  | some existing =>
    { cache with
      entries := cache.entries.eraseP (·.cacheKey = key)
      bytes := cache.bytes - bitmapBytes existing.buffer
      bytes_eq := by rw [cache.bytes_eq, byteSize_eraseP hfind, Nat.add_sub_cancel] }

/-- A hit goes to the end of the map, which leaves the bytes as they are. -/
def refresh (hit : PdfBitmap) : PdfBitmapCache :=
  let removed := cache.remove hit.cacheKey
  { cache with
    entries := removed.entries ++ [hit]
    bytes := removed.bytes + bitmapBytes hit.buffer
    bytes_eq := by rw [byteSize_concat, ← removed.bytes_eq] }

/-- The oldest bitmaps are evicted until the rest is within the budget, or one is left. -/
def trim (maxBytes maxEntries : ℕ) : List PdfBitmap → ℕ → List PdfBitmap × ℕ
  | oldest :: next :: rest, bytes =>
    if bytes ≤ maxBytes ∧ rest.length + 2 ≤ maxEntries then (oldest :: next :: rest, bytes)
    else trim maxBytes maxEntries (next :: rest) (bytes - bitmapBytes oldest.buffer)
  | entries, bytes => (entries, bytes)

lemma trim_bytes (maxBytes maxEntries : ℕ) (entries : List PdfBitmap) :
    (trim maxBytes maxEntries entries (byteSize entries)).2 =
      byteSize (trim maxBytes maxEntries entries (byteSize entries)).1 := by
  induction entries with
  | nil => rfl
  | cons oldest rest ih =>
    cases rest with
    | nil => rfl
    | cons next rest =>
      unfold trim
      split_ifs
      · rfl
      · rw [byteSize_cons, Nat.add_sub_cancel_left]
        exact ih

lemma trim_sublist (maxBytes maxEntries : ℕ) (entries : List PdfBitmap) (bytes : ℕ) :
    (trim maxBytes maxEntries entries bytes).1.Sublist entries := by
  induction entries generalizing bytes with
  | nil => exact List.Sublist.refl _
  | cons oldest rest ih =>
    cases rest with
    | nil => exact List.Sublist.refl _
    | cons next rest =>
      unfold trim
      split_ifs
      · exact List.Sublist.refl _
      · exact (ih _).cons _

/-- A rendered bitmap takes the place of the one with its key. -/
def put (bitmap : PdfBitmap) : PdfBitmapCache :=
  let removed := cache.remove bitmap.cacheKey
  let entries := removed.entries ++ [bitmap]
  let bytes := removed.bytes + bitmapBytes bitmap.buffer
  { cache with
    entries := (trim cache.maxBytes cache.maxEntries entries bytes).1
    bytes := (trim cache.maxBytes cache.maxEntries entries bytes).2
    bytes_eq := by
      rw [show bytes = byteSize entries by
        rw [byteSize_concat, ← removed.bytes_eq]]
      exact trim_bytes _ _ _ }

def clear : PdfBitmapCache := { cache with entries := [], bytes := 0, bytes_eq := byteSize_nil }

/-! ## What is in the cache -/

variable {cache} {bitmap : PdfBitmap}

/-- **A hit was retained**, for exactly what was asked for. -/
theorem mem_of_get {pageNumber : ℕ} {scale ratio : ℚ} {variant : String} {regionKey : Option Rect}
    (h : cache.get pageNumber scale ratio variant regionKey = some bitmap) :
    bitmap ∈ cache.entries ∧ bitmap.cacheKey = (pageNumber, regionKey) ∧ bitmap.scale = scale ∧
      bitmap.ratio = ratio ∧ bitmap.variant = variant := by
  obtain ⟨hfind, hfields⟩ := Option.filter_eq_some_iff.mp h
  have hkey : bitmap.cacheKey = (pageNumber, regionKey) := by simpa using List.find?_some hfind
  have hfields : bitmap.scale = scale ∧ bitmap.ratio = ratio ∧ bitmap.variant = variant := by
    simpa using hfields
  exact ⟨List.mem_of_find?_eq_some hfind, hkey, hfields⟩

lemma mem_of_remove {key : ℕ × Option Rect} (h : bitmap ∈ (cache.remove key).entries) :
    bitmap ∈ cache.entries := by
  unfold remove at h
  split at h
  · exact h
  · exact List.mem_of_mem_eraseP h

lemma mem_of_refresh {hit : PdfBitmap} (h : bitmap ∈ (cache.refresh hit).entries) :
    bitmap ∈ cache.entries ∨ bitmap = hit := by
  rcases List.mem_append.mp h with hold | hnew
  · exact .inl (mem_of_remove hold)
  · exact .inr (List.mem_singleton.mp hnew)

/-- The bytes stay as they are. -/
lemma refresh_bytes {hit : PdfBitmap}
    (hfind : cache.entries.find? (·.cacheKey = hit.cacheKey) = some hit) :
    (cache.refresh hit).bytes = cache.bytes := by
  have hrefreshed : (cache.refresh hit).entries =
      (cache.remove hit.cacheKey).entries ++ [hit] := rfl
  have hremoved : (cache.remove hit.cacheKey).entries =
      cache.entries.eraseP (·.cacheKey = hit.cacheKey) := by
    unfold remove
    split
    case h_1 hnone => rw [hfind] at hnone; cases hnone
    case h_2 => rfl
  rw [(cache.refresh hit).bytes_eq, cache.bytes_eq, hrefreshed, hremoved, byteSize_concat,
    ← byteSize_eraseP hfind]

/-- **What is retained after a put** was there before, or was put. -/
theorem mem_of_put {new : PdfBitmap} (h : bitmap ∈ (cache.put new).entries) :
    bitmap ∈ cache.entries ∨ bitmap = new := by
  have hmem : bitmap ∈ (cache.remove new.cacheKey).entries ++ [new] :=
    (trim_sublist _ _ _ _).mem h
  rcases List.mem_append.mp hmem with hold | hnew
  · exact .inl (mem_of_remove hold)
  · exact .inr (List.mem_singleton.mp hnew)

end PdfBitmapCache

end PdfCanvas
end TuxBooks
