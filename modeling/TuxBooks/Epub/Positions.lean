import Mathlib.Algebra.Order.Floor.Semiring
import Mathlib.Data.Rat.Floor
import Mathlib.Tactic.Positivity
import TuxBooks.Epub.Href
import TuxBooks.Epub.Metadata

set_option relaxedAutoImplicit false
set_option autoImplicit false

/-!
# The positions list of a publication

`build_positions_json`: one position for about every `CHARS_PER_POSITION` characters of the text
of a spine item, numbered through the book. The reader that turns bytes into events is the
library's, and the outcomes of the deadline are given. Divisions are rational.

## Main definitions

* `TuxBooks.Epub.extractVisibleText` — the text that is counted.
* `TuxBooks.Epub.positionBoundaries`, `TuxBooks.Epub.buildPositions` — the list.
* `TuxBooks.Epub.PositionsWellFormed` — what a reader relies on.

## Main results

* `TuxBooks.Epub.buildPositions_wellFormed` — every list that is built is well formed.
-/

namespace TuxBooks

namespace Epub

/-! ## Visible text -/

def isSkippedElement (name : String) : Bool := ["head", "title", "style", "script"].contains name

/-- The text so far, and the depth of the skipped subtree that is open. -/
structure VisibleText where
  out : String := ""
  skipDepth : ℕ := 0

namespace VisibleText

def pushWord (out word : String) : String := if out = "" then word else out ++ " " ++ word

def step (text : VisibleText) : XmlEvent → VisibleText
  | .start name _ =>
    if text.skipDepth > 0 ∨ isSkippedElement (localName name) = true then
      { text with skipDepth := text.skipDepth + 1 }
    else text
  | .text (some decoded) =>
    if text.skipDepth = 0 then
      { text with out := (splitWhitespace decoded).foldl pushWord text.out }
    else text
  | .close _ => { text with skipDepth := text.skipDepth - 1 }
  | _ => text

end VisibleText

def XmlEvent.isError : XmlEvent → Bool
  | .error _ => true
  | _ => false

/-- Everything outside `head`, `title`, `style` and `script`, whitespace collapsed. A malformed
document counts up to its error. -/
def extractVisibleText (events : List XmlEvent) : String :=
  ((events.takeWhile fun event => !event.isError).foldl VisibleText.step {}).out

example : extractVisibleText [.start "html" [], .start "head" [], .text (some "skipped"),
    .close "head", .start "p" [], .text (some " two \n words"), .close "p",
    .text (some "end"), .error "eof", .text (some "never")] = "two words end" := by
  decide +kernel

/-! ## The list -/

def charsPerPosition : ℕ := 128

/-- The loop of `position_boundaries`. -/
def pushBoundaries (charCount next : ℕ) : List ℕ :=
  if next < charCount then next :: pushBoundaries charCount (next + charsPerPosition) else []
termination_by charCount - next
decreasing_by simp only [charsPerPosition]; omega

/-- Chunk start indexes for the text of one chapter. -/
def positionBoundaries (charCount : ℕ) : List ℕ :=
  if charCount = 0 then [0] else 0 :: pushBoundaries charCount charsPerPosition

def clamp01 (value : ℚ) : ℚ := max 0 (min value 1)

/-- A position of the list. -/
structure Position where
  href : String
  position : ℕ
  progression : ℚ
  totalProgression : ℚ
  deriving DecidableEq

/-- What is serialized. -/
structure PositionsList where
  positions : List Position
  total : ℕ
  deriving DecidableEq

section Read

variable (readXml : String → List XmlEvent) (zip : ZipArchive) (limits : ResourceLimits)

/-- The characters of one spine item, and the bytes read so far. -/
def countChars (bytesRead : ℕ) (entry : SpineEntry) : Except EpubError (ℕ × ℕ) :=
  if entry.mediaType = "application/xhtml+xml" ∨ entry.mediaType = "text/html" then do
    match ← readEntry zip entry.zipPath limits with
    | some bytes =>
      let bytesRead := bytesRead + bytes.length
      limited (limits.checkTotalUncompressed bytesRead)
      return (bytesRead, (extractVisibleText (readXml (fromUtf8Lossy bytes))).length)
    | none => return (bytesRead, 0)
  else .ok (bytesRead, 0)

/-- The first loop: the published href and the characters of each spine item. Before the item of
an index, the deadline is checked. -/
def itemTexts (deadline : ℕ → Except LimitExceeded Unit) : ℕ → ℕ → List SpineEntry →
    Except EpubError (List (String × ℕ))
  | _, _, [] => .ok []
  | index, bytesRead, entry :: spine => do
    limited (deadline index)
    let (bytesRead, chars) ← countChars readXml zip limits bytesRead entry
    let texts ← itemTexts deadline (index + 1) bytesRead spine
    return (entry.encoded, chars) :: texts

end Read

/-- The position of one chunk, after those of `positions`. -/
def positionAt (totalChars cumulativeChars : ℕ) (isLastItem : Bool) (href : String)
    (itemChars start : ℕ) (positions : List Position) : Position :=
  let progression : ℚ := if itemChars = 0 then 0 else start / itemChars
  let consumed := ⌊progression * itemChars⌋₊
  { href
    position := positions.length + 1
    progression := clamp01 progression
    totalProgression :=
      if isLastItem = true ∧ start + charsPerPosition ≥ itemChars then 1
      else clamp01 (((cumulativeChars + consumed : ℕ) : ℚ) / totalChars) }

/-- The chunks of one item. -/
def pushPositions (totalChars cumulativeChars : ℕ) (isLastItem : Bool) (item : String × ℕ)
    (positions : List Position) : List Position :=
  (positionBoundaries item.2).foldl (fun positions start =>
    positions ++ [positionAt totalChars cumulativeChars isLastItem item.1 item.2 start positions])
    positions

/-- The second loop. -/
def pushItems (totalChars : ℕ) : ℕ → List Position → List (String × ℕ) → List Position
  | _, positions, [] => positions
  | cumulativeChars, positions, item :: items =>
    pushItems totalChars (cumulativeChars + item.2)
      (pushPositions totalChars cumulativeChars items.isEmpty item positions) items

/-- The positions of some texts. -/
def positionsOf (texts : List (String × ℕ)) : List Position :=
  pushItems (max (texts.map Prod.snd).sum 1) 0 [] texts

def buildPositions (readXml : String → List XmlEvent) (zip : ZipArchive) (limits : ResourceLimits)
    (deadline : ℕ → Except LimitExceeded Unit) (spine : List SpineEntry) :
    Except EpubError PositionsList := do
  let texts ← itemTexts readXml zip limits deadline 0 0 spine
  let positions := positionsOf texts
  return { positions, total := positions.length }

/-! ## What a reader relies on -/

/-- The positions of one item: at least one, all of them in it, from its start on, each further
than the one before, a whole number of position lengths into it. -/
structure ItemPositions (item : String × ℕ) (group : List Position) : Prop where
  ne_nil : group ≠ []
  href : ∀ p ∈ group, p.href = item.1
  starts : (group.head ne_nil).progression = 0
  increasing : (group.map Position.progression).Pairwise (· < ·)
  within : ∀ p ∈ group, 0 ≤ p.progression ∧ p.progression < 1
  boundary : ∀ p ∈ group, ∃ k : ℕ, p.progression * item.2 = k * charsPerPosition

/-- A positions list is well formed for the items of a book. -/
structure PositionsWellFormed (items : List (String × ℕ)) (list : PositionsList) : Prop where
  numbered : list.positions.map Position.position = List.range' 1 list.total
  grouped : ∃ groups : List (List Position), list.positions = groups.flatten ∧
    List.Forall₂ ItemPositions items groups
  monotone : (list.positions.map Position.totalProgression).Pairwise (· ≤ ·)
  unit : ∀ p ∈ list.positions, 0 ≤ p.totalProgression ∧ p.totalProgression ≤ 1
  ends : ∀ p ∈ list.positions.getLast?, p.totalProgression = 1

/-! ## The chunks of one item -/

/-- The chunks are the multiples of the position length below the length of the text. -/
lemma mem_pushBoundaries {charCount next start : ℕ} (h : start ∈ pushBoundaries charCount next) :
    next ≤ start ∧ start < charCount ∧ ∃ k, start = next + k * charsPerPosition := by
  fun_induction pushBoundaries charCount next with
  | case1 next hlt ih =>
    obtain rfl | h := List.mem_cons.1 h
    · exact ⟨le_rfl, hlt, 0, by omega⟩
    · obtain ⟨hle, hlt, k, rfl⟩ := ih h
      exact ⟨by omega, hlt, k + 1, by rw [Nat.succ_mul]; omega⟩
  | case2 => simp at h

lemma pairwise_pushBoundaries (charCount next : ℕ) :
    (pushBoundaries charCount next).Pairwise (· < ·) := by
  fun_induction pushBoundaries charCount next with
  | case1 next hlt ih =>
    refine List.pairwise_cons.2 ⟨fun start hstart => ?_, ih⟩
    have hle := (mem_pushBoundaries hstart).1
    simp only [charsPerPosition] at hle
    omega
  | case2 => exact .nil

/-- A chunk of a chapter: inside its text, or at the start of an empty one. -/
lemma mem_positionBoundaries {charCount start : ℕ} (h : start ∈ positionBoundaries charCount) :
    (start = 0 ∨ start < charCount) ∧ ∃ k, start = k * charsPerPosition := by
  rw [positionBoundaries] at h
  split_ifs at h with hzero
  · obtain rfl := List.mem_singleton.1 h
    exact ⟨.inl rfl, 0, rfl⟩
  · obtain rfl | h := List.mem_cons.1 h
    · exact ⟨.inl rfl, 0, rfl⟩
    · obtain ⟨-, hlt, k, rfl⟩ := mem_pushBoundaries h
      exact ⟨.inr hlt, k + 1, by rw [Nat.succ_mul]; omega⟩

lemma exists_positionBoundaries (charCount : ℕ) :
    ∃ starts, positionBoundaries charCount = 0 :: starts := by
  rw [positionBoundaries]
  split_ifs
  · exact ⟨[], rfl⟩
  · exact ⟨_, rfl⟩

lemma pairwise_positionBoundaries (charCount : ℕ) :
    (positionBoundaries charCount).Pairwise (· < ·) := by
  rw [positionBoundaries]
  split_ifs with hzero
  · exact List.pairwise_singleton _ _
  · refine List.pairwise_cons.2 ⟨fun start hstart => ?_, pairwise_pushBoundaries _ _⟩
    have hle := (mem_pushBoundaries hstart).1
    simp only [charsPerPosition] at hle
    omega

/-- The last chunk of a chapter reaches its end. -/
lemma reaches_pushBoundaries {charCount start next last : ℕ}
    (hnext : next = start + charsPerPosition)
    (h : last ∈ (start :: pushBoundaries charCount next).getLast?) :
    charCount ≤ last + charsPerPosition := by
  fun_induction pushBoundaries charCount next generalizing start with
  | case1 next hlt ih => exact ih rfl (by rwa [List.getLast?_cons_cons] at h)
  | case2 next hlt =>
    simp only [List.getLast?_singleton, Option.mem_some_iff] at h
    omega

lemma reaches_positionBoundaries {charCount last : ℕ}
    (h : last ∈ (positionBoundaries charCount).getLast?) :
    charCount ≤ last + charsPerPosition := by
  rw [positionBoundaries] at h
  split_ifs at h with hzero
  · omega
  · exact reaches_pushBoundaries (Nat.zero_add _).symm h

/-! ## The numbers of one chunk -/

section Chunk

variable {itemChars start : ℕ}

lemma clamp01_of_mem {value : ℚ} (hzero : 0 ≤ value) (hone : value ≤ 1) :
    clamp01 value = value := by
  rw [clamp01, min_eq_left hone, max_eq_right hzero]

lemma clamp01_mem (value : ℚ) : 0 ≤ clamp01 value ∧ clamp01 value ≤ 1 :=
  ⟨le_max_left _ _, max_le zero_le_one (min_le_right _ _)⟩

lemma clamp01_mono {value value' : ℚ} (h : value ≤ value') : clamp01 value ≤ clamp01 value' :=
  max_le_max le_rfl (min_le_min h le_rfl)

/-- The fraction of an item that lies before a chunk. -/
def progressionAt (itemChars start : ℕ) : ℚ := if itemChars = 0 then 0 else start / itemChars

lemma progressionAt_mul (h : start = 0 ∨ start < itemChars) :
    progressionAt itemChars start * itemChars = start := by
  rw [progressionAt]
  split_ifs with hzero
  · have hstart : start = 0 := by omega
    rw [hstart, Nat.cast_zero, zero_mul]
  · exact div_mul_cancel₀ _ (Nat.cast_ne_zero.2 hzero)

lemma progressionAt_mem (h : start = 0 ∨ start < itemChars) :
    0 ≤ progressionAt itemChars start ∧ progressionAt itemChars start < 1 := by
  rw [progressionAt]
  split_ifs with hzero
  · exact ⟨le_rfl, zero_lt_one⟩
  · have hpos : (0 : ℚ) < itemChars := Nat.cast_pos.2 (by omega)
    refine ⟨by positivity, (div_lt_one hpos).2 (Nat.cast_lt.2 ?_)⟩
    omega

lemma progressionAt_lt {start' : ℕ} (hlt : start < start') (h : start' < itemChars) :
    progressionAt itemChars start < progressionAt itemChars start' := by
  have hpos : (0 : ℚ) < itemChars := Nat.cast_pos.2 (by omega)
  rw [progressionAt, progressionAt, if_neg (by omega), if_neg (by omega)]
  exact (div_lt_div_iff_of_pos_right hpos).2 (Nat.cast_lt.2 hlt)

/-- The fraction of the book that lies before a chunk, the last one counted as a whole. -/
def totalAt (totalChars cumulativeChars : ℕ) (isLastItem : Bool) (itemChars start : ℕ) : ℚ :=
  if isLastItem = true ∧ start + charsPerPosition ≥ itemChars then 1
  else clamp01 (((cumulativeChars + start : ℕ) : ℚ) / totalChars)

/-- What is truncated to whole characters is a whole number of them. -/
lemma positionAt_eq (h : start = 0 ∨ start < itemChars) (totalChars cumulativeChars : ℕ)
    (isLastItem : Bool) (href : String) (positions : List Position) :
    positionAt totalChars cumulativeChars isLastItem href itemChars start positions =
      { href
        position := positions.length + 1
        progression := progressionAt itemChars start
        totalProgression := totalAt totalChars cumulativeChars isLastItem itemChars start } := by
  have hmem := progressionAt_mem h
  have hprog : (if itemChars = 0 then 0 else (start : ℚ) / itemChars) =
    progressionAt itemChars start := rfl
  have hclamp : clamp01 (progressionAt itemChars start) = progressionAt itemChars start :=
    clamp01_of_mem hmem.1 hmem.2.le
  have hconsumed : ⌊progressionAt itemChars start * itemChars⌋₊ = start := by
    rw [progressionAt_mul h, Nat.floor_natCast]
  rw [positionAt]
  simp only [hprog, hclamp, hconsumed, totalAt]

variable {totalChars cumulativeChars : ℕ} {isLastItem : Bool}

lemma totalAt_mono {start' : ℕ} (h : start ≤ start') :
    totalAt totalChars cumulativeChars isLastItem itemChars start ≤
      totalAt totalChars cumulativeChars isLastItem itemChars start' := by
  simp only [totalAt]
  split_ifs with hlast hlast' hlast'
  · exact le_rfl
  · exact absurd ⟨hlast.1, by omega⟩ hlast'
  · exact (clamp01_mem _).2
  · refine clamp01_mono (div_le_div_of_nonneg_right ?_ (Nat.cast_nonneg _))
    exact Nat.cast_le.2 (by omega)

lemma totalAt_mem :
    0 ≤ totalAt totalChars cumulativeChars isLastItem itemChars start ∧
      totalAt totalChars cumulativeChars isLastItem itemChars start ≤ 1 := by
  rw [totalAt]
  split_ifs
  · exact ⟨zero_le_one, le_rfl⟩
  · exact clamp01_mem _

/-- No chunk lies before what the items before it hold. -/
lemma le_totalAt (hcum : cumulativeChars ≤ totalChars) :
    (cumulativeChars : ℚ) / totalChars ≤
      totalAt totalChars cumulativeChars isLastItem itemChars start := by
  have hone : (cumulativeChars : ℚ) / totalChars ≤ 1 :=
    div_le_one_of_le₀ (Nat.cast_le.2 hcum) (Nat.cast_nonneg _)
  rw [totalAt]
  split_ifs
  · exact hone
  · rw [← clamp01_of_mem (by positivity) hone]
    refine clamp01_mono (div_le_div_of_nonneg_right ?_ (Nat.cast_nonneg _))
    exact Nat.cast_le.2 (by omega)

/-- A chunk of an item that is not the last lies before the end of the item. -/
lemma totalAt_le (h : start = 0 ∨ start < itemChars) :
    totalAt totalChars cumulativeChars false itemChars start ≤
      ((cumulativeChars + itemChars : ℕ) : ℚ) / totalChars := by
  rw [totalAt, if_neg (by simp), clamp01]
  refine max_le (by positivity) (le_trans (min_le_left _ _) ?_)
  exact div_le_div_of_nonneg_right (Nat.cast_le.2 (by omega)) (Nat.cast_nonneg _)

end Chunk

/-! ## One item -/

/-- The positions that one item adds after `count` others. -/
def itemGroup (totalChars cumulativeChars : ℕ) (isLastItem : Bool) (item : String × ℕ)
    (count : ℕ) : List Position :=
  (positionBoundaries item.2).mapIdx fun i start =>
    { href := item.1
      position := count + i + 1
      progression := progressionAt item.2 start
      totalProgression := totalAt totalChars cumulativeChars isLastItem item.2 start }

section Item

variable (totalChars cumulativeChars : ℕ) (isLastItem : Bool) (item : String × ℕ)

/-- What the loop over the chunks of an item adds. -/
lemma pushPositions_eq (positions : List Position) :
    pushPositions totalChars cumulativeChars isLastItem item positions =
      positions ++ itemGroup totalChars cumulativeChars isLastItem item positions.length := by
  have hvalid : ∀ start ∈ positionBoundaries item.2, start = 0 ∨ start < item.2 :=
    fun start hstart => (mem_positionBoundaries hstart).1
  rw [pushPositions, itemGroup]
  generalize positionBoundaries item.2 = starts at hvalid ⊢
  induction starts generalizing positions with
  | nil => simp
  | cons start starts ih =>
    have hstart := hvalid start List.mem_cons_self
    have hrest := ih (positions ++ [positionAt totalChars cumulativeChars isLastItem item.1 item.2
      start positions]) fun start' h => hvalid start' (List.mem_cons_of_mem _ h)
    rw [List.foldl_cons, hrest, positionAt_eq hstart, List.mapIdx_cons, List.append_assoc,
      List.singleton_append, List.length_append, List.length_singleton]
    simp only [Nat.add_zero, Nat.add_assoc, Nat.add_comm 1]

lemma length_itemGroup (count : ℕ) :
    (itemGroup totalChars cumulativeChars isLastItem item count).length =
      (positionBoundaries item.2).length := by
  simp [itemGroup]

lemma map_position_itemGroup (count : ℕ) :
    (itemGroup totalChars cumulativeChars isLastItem item count).map Position.position =
      List.range' (count + 1)
        (itemGroup totalChars cumulativeChars isLastItem item count).length := by
  refine List.ext_getElem (by simp) fun i hi hi' => ?_
  simp [itemGroup]
  omega

lemma map_progression_itemGroup (count : ℕ) :
    (itemGroup totalChars cumulativeChars isLastItem item count).map Position.progression =
      (positionBoundaries item.2).map (progressionAt item.2) := by
  refine List.ext_getElem (by simp [itemGroup]) fun i hi hi' => ?_
  simp [itemGroup]

lemma map_totalProgression_itemGroup (count : ℕ) :
    (itemGroup totalChars cumulativeChars isLastItem item count).map Position.totalProgression =
      (positionBoundaries item.2).map
        (totalAt totalChars cumulativeChars isLastItem item.2) := by
  refine List.ext_getElem (by simp [itemGroup]) fun i hi hi' => ?_
  simp [itemGroup]

lemma itemGroup_ne_nil (count : ℕ) :
    itemGroup totalChars cumulativeChars isLastItem item count ≠ [] := by
  obtain ⟨starts, hstarts⟩ := exists_positionBoundaries item.2
  simp [itemGroup, hstarts]

/-- What an item adds is as its reader expects it. -/
lemma itemPositions_itemGroup (count : ℕ) :
    ItemPositions item (itemGroup totalChars cumulativeChars isLastItem item count) := by
  set group := itemGroup totalChars cumulativeChars isLastItem item count with hgroup
  have hmap : group.map Position.progression =
      (positionBoundaries item.2).map (progressionAt item.2) :=
    map_progression_itemGroup totalChars cumulativeChars isLastItem item count
  -- the progression of each position is that of a chunk
  have hof : ∀ p ∈ group, ∃ start ∈ positionBoundaries item.2,
      p.progression = progressionAt item.2 start := by
    intro p hp
    have hmem := List.mem_map_of_mem (f := Position.progression) hp
    rw [hmap] at hmem
    obtain ⟨start, hstart, heq⟩ := List.mem_map.1 hmem
    exact ⟨start, hstart, heq.symm⟩
  refine ⟨itemGroup_ne_nil _ _ _ _ _, fun p hp => ?_, ?_, ?_, fun p hp => ?_, fun p hp => ?_⟩
  · simp only [hgroup, itemGroup, List.mem_mapIdx] at hp
    obtain ⟨i, hi, rfl⟩ := hp
    rfl
  · obtain ⟨starts, hstarts⟩ := exists_positionBoundaries item.2
    simp [hgroup, itemGroup, hstarts, progressionAt]
  · rw [hmap, List.pairwise_map]
    refine (pairwise_positionBoundaries item.2).imp_of_mem fun _ hmem hlt => ?_
    obtain hzero | hlt' := (mem_positionBoundaries hmem).1
    · omega
    · exact progressionAt_lt hlt hlt'
  · obtain ⟨start, hstart, heq⟩ := hof p hp
    rw [heq]
    exact progressionAt_mem (mem_positionBoundaries hstart).1
  · obtain ⟨start, hstart, heq⟩ := hof p hp
    obtain ⟨hvalid, k, hk⟩ := mem_positionBoundaries hstart
    refine ⟨k, ?_⟩
    rw [heq, progressionAt_mul hvalid, hk, Nat.cast_mul]

end Item

/-! ## The whole list -/

/-- The positions of the items so far, which hold `cumulativeChars` of the characters. -/
structure Counted (totalChars cumulativeChars : ℕ) (positions : List Position) : Prop where
  numbered : positions.map Position.position = List.range' 1 positions.length
  monotone : (positions.map Position.totalProgression).Pairwise (· ≤ ·)
  within : ∀ p ∈ positions, 0 ≤ p.totalProgression ∧
    p.totalProgression ≤ (cumulativeChars : ℚ) / totalChars

section Run

variable {totalChars cumulativeChars : ℕ} {positions : List Position}

/-- The position of each added chunk lies in the book as its chunk does. -/
lemma exists_of_mem_itemGroup {isLastItem : Bool} {item : String × ℕ} {count : ℕ} {p : Position}
    (h : p ∈ itemGroup totalChars cumulativeChars isLastItem item count) :
    ∃ start ∈ positionBoundaries item.2,
      p.totalProgression = totalAt totalChars cumulativeChars isLastItem item.2 start := by
  have hmem := List.mem_map_of_mem (f := Position.totalProgression) h
  rw [map_totalProgression_itemGroup] at hmem
  obtain ⟨start, hstart, heq⟩ := List.mem_map.1 hmem
  exact ⟨start, hstart, heq.symm⟩

/-- Any item continues the numbers and the order. -/
lemma Counted.append (h : Counted totalChars cumulativeChars positions)
    (hcum : cumulativeChars ≤ totalChars) (isLastItem : Bool) (item : String × ℕ) :
    let pushed := pushPositions totalChars cumulativeChars isLastItem item positions
    pushed.map Position.position = List.range' 1 pushed.length ∧
      (pushed.map Position.totalProgression).Pairwise (· ≤ ·) := by
  intro pushed
  have hpushed : pushed = positions ++ itemGroup totalChars cumulativeChars isLastItem item
      positions.length := pushPositions_eq _ _ _ _ _
  constructor
  · rw [hpushed, List.map_append, h.numbered, map_position_itemGroup, List.length_append,
      Nat.add_comm positions.length 1, List.range'_append_1]
  · rw [hpushed, List.map_append, List.pairwise_append]
    refine ⟨h.monotone, ?_, ?_⟩
    · rw [map_totalProgression_itemGroup, List.pairwise_map]
      exact (pairwise_positionBoundaries item.2).imp fun hlt => totalAt_mono hlt.le
    · intro earlier hearlier later hlater
      obtain ⟨p, hp, rfl⟩ := List.mem_map.1 hearlier
      obtain ⟨q, hq, rfl⟩ := List.mem_map.1 hlater
      obtain ⟨start, -, heq⟩ := exists_of_mem_itemGroup hq
      rw [heq]
      exact (h.within p hp).2.trans (le_totalAt hcum)

/-- An item before the last. -/
lemma Counted.push (h : Counted totalChars cumulativeChars positions) (item : String × ℕ)
    (hcum : cumulativeChars + item.2 ≤ totalChars) :
    Counted totalChars (cumulativeChars + item.2)
      (pushPositions totalChars cumulativeChars false item positions) := by
  obtain ⟨hnumbered, hmonotone⟩ := h.append (by omega) false item
  refine ⟨hnumbered, hmonotone, fun p hp => ?_⟩
  rw [pushPositions_eq, List.mem_append] at hp
  obtain hp | hp := hp
  · refine ⟨(h.within p hp).1, (h.within p hp).2.trans ?_⟩
    exact div_le_div_of_nonneg_right (Nat.cast_le.2 (by omega)) (Nat.cast_nonneg _)
  · obtain ⟨start, hstart, heq⟩ := exists_of_mem_itemGroup hp
    rw [heq]
    exact ⟨totalAt_mem.1, totalAt_le (mem_positionBoundaries hstart).1⟩

/-- The last item. -/
lemma Counted.pushLast (h : Counted totalChars cumulativeChars positions) (item : String × ℕ)
    (hcum : cumulativeChars ≤ totalChars) :
    let pushed := pushPositions totalChars cumulativeChars true item positions
    (∀ p ∈ pushed, 0 ≤ p.totalProgression ∧ p.totalProgression ≤ 1) ∧
      ∀ p ∈ pushed.getLast?, p.totalProgression = 1 := by
  intro pushed
  set group := itemGroup totalChars cumulativeChars true item positions.length with hgroup
  have hpushed : pushed = positions ++ group := pushPositions_eq _ _ _ _ _
  have hone : (cumulativeChars : ℚ) / totalChars ≤ 1 :=
    div_le_one_of_le₀ (Nat.cast_le.2 hcum) (Nat.cast_nonneg _)
  constructor
  · intro p hp
    obtain hp | hp := List.mem_append.1 (hpushed ▸ hp)
    · exact ⟨(h.within p hp).1, (h.within p hp).2.trans hone⟩
    · obtain ⟨start, -, heq⟩ := exists_of_mem_itemGroup hp
      rw [heq]
      exact totalAt_mem
  · intro p hp
    -- the last position is the last chunk of the item, which reaches its end
    rw [hpushed, List.getLast?_append_of_ne_nil _ (itemGroup_ne_nil _ _ _ _ _)] at hp
    have hlast : p.totalProgression ∈ (group.map Position.totalProgression).getLast? := by
      rw [List.getLast?_map, Option.mem_def.1 hp]
      rfl
    rw [map_totalProgression_itemGroup, List.getLast?_map] at hlast
    obtain ⟨start, hstart, heq⟩ := Option.map_eq_some_iff.1 hlast
    rw [← heq, totalAt, if_pos ⟨rfl, reaches_positionBoundaries hstart⟩]

/-- From the positions so far to all of them. -/
lemma Counted.run {items : List (String × ℕ)} (h : Counted totalChars cumulativeChars positions)
    (hne : items ≠ []) (hsum : cumulativeChars + (items.map Prod.snd).sum ≤ totalChars) :
    let pushed := pushItems totalChars cumulativeChars positions items
    pushed.map Position.position = List.range' 1 pushed.length ∧
      (pushed.map Position.totalProgression).Pairwise (· ≤ ·) ∧
      (∀ p ∈ pushed, 0 ≤ p.totalProgression ∧ p.totalProgression ≤ 1) ∧
      ∀ p ∈ pushed.getLast?, p.totalProgression = 1 := by
  induction items generalizing cumulativeChars positions with
  | nil => exact absurd rfl hne
  | cons item items ih =>
    rw [List.map_cons, List.sum_cons] at hsum
    cases items with
    | nil =>
      obtain ⟨hnumbered, hmonotone⟩ := h.append (by omega) true item
      obtain ⟨hunit, hends⟩ := h.pushLast item (by omega)
      exact ⟨hnumbered, hmonotone, hunit, hends⟩
    | cons next items => exact ih (h.push item (by omega)) (List.cons_ne_nil _ _) (by omega)

end Run

/-- Each item adds a group of positions of its own. -/
lemma exists_groups (totalChars cumulativeChars : ℕ) (positions : List Position)
    (items : List (String × ℕ)) :
    ∃ groups : List (List Position),
      pushItems totalChars cumulativeChars positions items = positions ++ groups.flatten ∧
        List.Forall₂ ItemPositions items groups := by
  induction items generalizing cumulativeChars positions with
  | nil => exact ⟨[], (List.append_nil _).symm, .nil⟩
  | cons item items ih =>
    obtain ⟨groups, hgroups, hforall⟩ := ih (cumulativeChars + item.2)
      (pushPositions totalChars cumulativeChars items.isEmpty item positions)
    refine ⟨_ :: groups, ?_, .cons (itemPositions_itemGroup totalChars cumulativeChars
      items.isEmpty item positions.length) hforall⟩
    rw [pushItems, hgroups, pushPositions_eq, List.flatten_cons, List.append_assoc]

/-- The positions of any texts are well formed. -/
lemma wellFormed_positionsOf (texts : List (String × ℕ)) :
    PositionsWellFormed texts ⟨positionsOf texts, (positionsOf texts).length⟩ := by
  have hgrouped : ∃ groups : List (List Position), positionsOf texts = groups.flatten ∧
      List.Forall₂ ItemPositions texts groups :=
    exists_groups (max (texts.map Prod.snd).sum 1) 0 [] texts
  by_cases hne : texts = []
  · subst hne
    exact ⟨rfl, hgrouped, .nil, nofun, nofun⟩
  · have hempty : Counted (max (texts.map Prod.snd).sum 1) 0 [] := ⟨rfl, .nil, nofun⟩
    obtain ⟨hnumbered, hmonotone, hunit, hends⟩ := hempty.run hne (by omega)
    exact ⟨hnumbered, hgrouped, hmonotone, hunit, hends⟩

/-- The items are those of the spine, in its order. -/
lemma itemTexts_hrefs {readXml : String → List XmlEvent} {zip : ZipArchive}
    {limits : ResourceLimits} {deadline : ℕ → Except LimitExceeded Unit} {index bytesRead : ℕ}
    {spine : List SpineEntry} {texts : List (String × ℕ)}
    (h : itemTexts readXml zip limits deadline index bytesRead spine = .ok texts) :
    texts.map Prod.fst = spine.map SpineEntry.encoded := by
  induction spine generalizing index bytesRead texts with
  | nil =>
    obtain rfl := Except.ok.inj h
    rfl
  | cons entry spine ih =>
    obtain ⟨-, -, h⟩ := Fallible.bind_eq_ok h
    obtain ⟨⟨bytes, chars⟩, -, h⟩ := Fallible.bind_eq_ok h
    obtain ⟨rest, hrest, h⟩ := Fallible.bind_eq_ok h
    obtain rfl := Except.ok.inj h
    rw [List.map_cons, List.map_cons, ih hrest]

/-- **The positions list is well formed**, for every spine and whatever its members hold: it is
built unless reading a member fails, from one text for each item of the spine. -/
theorem buildPositions_wellFormed (readXml : String → List XmlEvent) (zip : ZipArchive)
    (limits : ResourceLimits) (deadline : ℕ → Except LimitExceeded Unit)
    (spine : List SpineEntry) :
    match itemTexts readXml zip limits deadline 0 0 spine,
      buildPositions readXml zip limits deadline spine with
    | .ok texts, .ok list =>
      texts.map Prod.fst = spine.map SpineEntry.encoded ∧ PositionsWellFormed texts list
    | .error e, .error e' => e = e'
    | _, _ => False := by
  rw [buildPositions]
  cases htexts : itemTexts readXml zip limits deadline 0 0 spine with
  | error e => rfl
  | ok texts => exact ⟨itemTexts_hrefs htexts, wellFormed_positionsOf texts⟩

example : positionsOf [("a.xhtml", 300), ("cover.svg", 0), ("b.xhtml", 130)] =
    [⟨"a.xhtml", 1, 0, 0⟩, ⟨"a.xhtml", 2, 32 / 75, 64 / 215⟩, ⟨"a.xhtml", 3, 64 / 75, 128 / 215⟩,
      ⟨"cover.svg", 4, 0, 30 / 43⟩, ⟨"b.xhtml", 5, 0, 30 / 43⟩,
      ⟨"b.xhtml", 6, 64 / 65, 1⟩] := by
  simp [positionsOf, pushItems, pushPositions_eq, itemGroup, positionBoundaries, pushBoundaries,
    charsPerPosition, progressionAt, totalAt, clamp01]
  norm_num

end Epub

end TuxBooks
