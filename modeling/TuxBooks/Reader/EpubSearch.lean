import Mathlib.Data.List.Forall2
import TuxBooks.Reader.PdfSearch

set_option relaxedAutoImplicit false
set_option autoImplicit false

/-!
# The search in an EPUB

The walk over the sections of a book in `frontend/src/lib/epub/readiumEngine.ts`, which searches
every text node by itself and stops at its limit, and the search of a reader over both formats. The
walk goes over the sections that are documents; the label of a section is looked up by its index
among them, and the table of contents names sections by their index in the reading order.

A search that another one supersedes hands over nothing more; here a search runs to its end.

## Main definitions

* `TuxBooks.BookSearch.EpubBook` — what the search reads of a book.
* `TuxBooks.BookSearch.consumeSearch`, `TuxBooks.BookSearch.epubSearch` — the walk.
* `TuxBooks.BookSearch.EpubExact` — what a search in an EPUB hands over.

## Main results

* `TuxBooks.BookSearch.epubSearch_exact` — it hands this over for every book and query.
* `TuxBooks.BookSearch.search_exact` — both searches.
-/

namespace TuxBooks

namespace BookSearch

/-! ## Books -/

/-- An item of the reading order. -/
structure EpubLink where
  href : String
  type : String

/-- The table of contents: an entry with the entries under it, and the entries after it. -/
inductive EpubToc where
  | nil
  | item (label href : String) (subitems rest : EpubToc)

/-- What a search reads of a book: the reading order, the table of contents, the text nodes of the
document of an item, and whether a locator is made of a match. -/
structure EpubBook where
  readingOrder : List EpubLink
  toc : EpubToc
  readDocument : EpubLink → Option (List JsString)
  locatorFromBuilt : String → Excerpt → Bool

structure EpubMatch where
  href : String
  excerpt : Excerpt

def XHTML_TYPE : String := "application/xhtml+xml"

def HTML_TYPE : String := "text/html"

/-- Upper bound on the matches of a search. -/
def SEARCH_MAX_MATCHES : ℕ := 500

def excerptAround (text : JsString) (i length context : ℕ) : Excerpt where
  pre := (collapse (slice text (i - context) i)).dropWhile isWhiteSpace
  matched := slice text i (i + length)
  post := (collapse (slice text (i + length) (i + length + context))).rdropWhile isWhiteSpace

/-- The labels of the table of contents, with what they point to. -/
def collectTocLabels : EpubToc → List (String × String)
  | .nil => []
  | .item label href subitems rest =>
    (if label ≠ "" then [(label, href)] else []) ++ collectTocLabels subitems ++
      collectTocLabels rest

/-- An href without its fragment. -/
def pathOf (href : String) : String := String.ofList (href.toList.takeWhile (· ≠ '#'))

section Walk

variable (lower : JsString → JsString) (book : EpubBook)

def sectionIndexOf (href : String) : Option ℕ :=
  book.readingOrder.findIdx? fun item => item.href = pathOf href

/-- The matches in the text nodes of a document. -/
def matchInDocument (doc : List JsString) (query : JsString) : List Excerpt :=
  doc.flatMap fun text =>
    (Occurrences.scan (lower query) (lower text) 0).map fun i =>
      excerptAround text i (lower query).length 48

/-- The matches of a section that still fit, after some matches. -/
def collectMatches (href : String) : ℕ → List Excerpt → List EpubMatch
  | _, [] => []
  | matchCount, excerpt :: excerpts =>
    if SEARCH_MAX_MATCHES ≤ matchCount then []
    else if book.locatorFromBuilt href excerpt then
      ⟨href, excerpt⟩ :: collectMatches href (matchCount + 1) excerpts
    else collectMatches href matchCount excerpts

/-- The label of the section of an index, after some sections without one. -/
def sectionLabel (index unlabeledOrdinal : ℕ) : String × ℕ :=
  match (collectTocLabels book.toc).find? fun entry => sectionIndexOf book entry.2 = some index with
  | some entry => if entry.1 ≠ "" then (entry.1, unlabeledOrdinal)
      else (s!"Chapter {unlabeledOrdinal + 1}", unlabeledOrdinal + 1)
  | none => (s!"Chapter {unlabeledOrdinal + 1}", unlabeledOrdinal + 1)

/-- The groups of the items from an index on, and the matches in the end. -/
def consumeSearch (query : JsString) :
    ℕ → ℕ → ℕ → List EpubLink → List (SearchGroup EpubMatch) × ℕ
  | _, matchCount, _, [] => ([], matchCount)
  | index, matchCount, unlabeledOrdinal, item :: items =>
    if SEARCH_MAX_MATCHES ≤ matchCount then ([], matchCount)
    else
      match book.readDocument item with
      | none => consumeSearch query (index + 1) matchCount unlabeledOrdinal items
      | some doc =>
        let subitems := collectMatches book item.href matchCount (matchInDocument lower doc query)
        if subitems = [] then consumeSearch query (index + 1) matchCount unlabeledOrdinal items
        else
          let label := sectionLabel book index unlabeledOrdinal
          let rest :=
            consumeSearch query (index + 1) (matchCount + subitems.length) label.2 items
          ({ label := label.1, hits := subitems } :: rest.1, rest.2)

/-- The items of the reading order that are documents. -/
def searchItems : List EpubLink :=
  book.readingOrder.filter fun item => item.type = XHTML_TYPE || item.type = HTML_TYPE

def epubSearch (query : JsString) : SearchResults EpubMatch :=
  let query := jsTrim query
  if query = [] then { groups := [], truncated := false }
  else
    let consumed := consumeSearch lower book query 0 0 0 (searchItems book)
    { groups := consumed.1, truncated := SEARCH_MAX_MATCHES ≤ consumed.2 }

end Walk

/-! ## What a search hands over -/

section Exactness

variable (lower : JsString → JsString) (book : EpubBook) (query : JsString)

/-- All matches of a section, for a query without white space around it. -/
def sectionMatches (item : EpubLink) : List EpubMatch :=
  match book.readDocument item with
  | none => []
  | some doc => (matchInDocument lower doc query).map fun excerpt => ⟨item.href, excerpt⟩

variable {query} in
/-- An href names the section of an index: the first one of the reading order with its path. -/
def Names (href : String) (i : ℕ) : Prop :=
  ∃ item, book.readingOrder[i]? = some item ∧ item.href = pathOf href ∧
    ∀ j < i, ∀ item', book.readingOrder[j]? = some item' → item'.href ≠ pathOf href

variable {query} in
/-- The label of the section of an index: that of the first entry of the table of contents that
names it, or a chapter number when there is none. -/
def Labelled (i : ℕ) (label : String) : Prop :=
  (∃ before href after, collectTocLabels book.toc = before ++ (label, href) :: after ∧
    Names book href i ∧ ∀ entry ∈ before, ¬ Names book entry.2 i) ∨
  ((∀ entry ∈ collectTocLabels book.toc, ¬ Names book entry.2 i) ∧
    ∃ n, label = s!"Chapter {n + 1}")

/-- What a search in an EPUB hands over: the matches of the sections in the order of the book up
to the limit, those of each section under its label. -/
structure EpubExact (results : SearchResults EpubMatch) : Prop where
  reported : results.groups.flatMap SearchGroup.hits =
    ((searchItems book).flatMap (sectionMatches lower book query)).take SEARCH_MAX_MATCHES
  truncated : results.truncated = true ↔
    SEARCH_MAX_MATCHES ≤ ((searchItems book).flatMap (sectionMatches lower book query)).length
  attributed : ∀ group ∈ results.groups, ∃ i item, (searchItems book)[i]? = some item ∧
    group.hits ≠ [] ∧ group.hits <+: sectionMatches lower book query item ∧
    (book.readingOrder[i]? = some item → Labelled book i group.label)
  read : ∀ item doc, book.readDocument item = some doc →
    ∃ found, sectionMatches lower book query item =
        (found.flatten.map fun excerpt => ⟨item.href, excerpt⟩) ∧
      List.Forall₂ (fun text excerpts => Exact lower
        (fun near => (collapse near).dropWhile isWhiteSpace)
        (fun far => (collapse far).rdropWhile isWhiteSpace) 48 text (lower query) excerpts)
        doc found
  unread : ∀ item, book.readDocument item = none → sectionMatches lower book query item = []

end Exactness

/-! ## Labels -/

lemma label_ne_empty {toc : EpubToc} {entry : String × String}
    (h : entry ∈ collectTocLabels toc) : entry.1 ≠ "" := by
  induction toc with
  | nil => cases h
  | item label href subitems rest ihSubitems ihRest =>
    rw [collectTocLabels, List.mem_append, List.mem_append] at h
    rcases h with (hhere | hunder) | hafter
    · split_ifs at hhere with hlabel
      · rw [List.mem_singleton.mp hhere]
        exact hlabel
      · cases hhere
    · exact ihSubitems hunder
    · exact ihRest hafter

section Label

variable {book : EpubBook}

lemma sectionIndexOf_eq_some_iff {href : String} {i : ℕ} :
    sectionIndexOf book href = some i ↔ Names book href i := by
  rw [sectionIndexOf, List.findIdx?_eq_some_iff_getElem]
  constructor
  · rintro ⟨hlt, hitem, hbefore⟩
    refine ⟨book.readingOrder[i], List.getElem?_eq_getElem hlt, of_decide_eq_true hitem, ?_⟩
    intro j hj item' hitem' heq
    obtain ⟨hlt', rfl⟩ := List.getElem?_eq_some_iff.mp hitem'
    exact hbefore j hj (decide_eq_true heq)
  · rintro ⟨item, hitem, hhref, hbefore⟩
    obtain ⟨hlt, rfl⟩ := List.getElem?_eq_some_iff.mp hitem
    refine ⟨hlt, decide_eq_true hhref, ?_⟩
    intro j hj heq
    exact hbefore j hj _ (List.getElem?_eq_getElem (by omega)) (of_decide_eq_true heq)

/-- The label of a section is its own. -/
lemma labelled_sectionLabel (i unlabeledOrdinal : ℕ) :
    Labelled book i (sectionLabel book i unlabeledOrdinal).1 := by
  rw [sectionLabel]
  cases hfind : (collectTocLabels book.toc).find?
      fun entry => sectionIndexOf book entry.2 = some i with
  | none =>
    right
    refine ⟨fun entry hentry hnames => ?_, unlabeledOrdinal, rfl⟩
    have hnot := List.find?_eq_none.mp hfind entry hentry
    exact hnot (decide_eq_true (sectionIndexOf_eq_some_iff.mpr hnames))
  | some entry =>
    left
    obtain ⟨hentry, before, after, hsplit, hbefore⟩ := List.find?_eq_some_iff_append.mp hfind
    have hmem : entry ∈ collectTocLabels book.toc := List.mem_of_find?_eq_some hfind
    simp only [if_pos (label_ne_empty hmem)]
    refine ⟨before, entry.2, after, hsplit,
      sectionIndexOf_eq_some_iff.mp (of_decide_eq_true hentry), ?_⟩
    intro other hother hnames
    have hnot := hbefore other hother
    simp [sectionIndexOf_eq_some_iff.mpr hnames] at hnot

end Label

/-! ## The walk -/

section Walked

variable {lower : JsString → JsString} {book : EpubBook} {query : JsString}

/-- The matches that fit. -/
lemma collectMatches_eq {href : String}
    (haccepted : ∀ excerpt, book.locatorFromBuilt href excerpt = true) (matchCount : ℕ)
    (excerpts : List Excerpt) :
    collectMatches book href matchCount excerpts =
      (excerpts.map fun excerpt => ⟨href, excerpt⟩).take (SEARCH_MAX_MATCHES - matchCount) := by
  induction excerpts generalizing matchCount with
  | nil => simp [collectMatches]
  | cons excerpt excerpts ih =>
    rw [collectMatches]
    split_ifs with hfull haccept
    · rw [Nat.sub_eq_zero_of_le hfull, List.take_zero]
    · have hroom : SEARCH_MAX_MATCHES - matchCount =
          SEARCH_MAX_MATCHES - (matchCount + 1) + 1 := by omega
      rw [ih, hroom, List.map_cons, List.take_succ_cons]
    · exact absurd (haccepted excerpt) haccept

variable (lower book query) in
/-- What the walk over some items hands over, after some matches. -/
structure Walked (index matchCount : ℕ) (items : List EpubLink)
    (consumed : List (SearchGroup EpubMatch) × ℕ) : Prop where
  reported : consumed.1.flatMap SearchGroup.hits =
    (items.flatMap (sectionMatches lower book query)).take (SEARCH_MAX_MATCHES - matchCount)
  counted : consumed.2 = matchCount + (consumed.1.flatMap SearchGroup.hits).length
  attributed : ∀ group ∈ consumed.1, ∃ i item, items[i]? = some item ∧ group.hits ≠ [] ∧
    group.hits <+: sectionMatches lower book query item ∧ Labelled book (index + i) group.label

section Step

variable {index matchCount : ℕ} {item : EpubLink} {items : List EpubLink}
  {consumed : List (SearchGroup EpubMatch) × ℕ}

/-- A group of a later item. -/
lemma Walked.later (h : Walked lower book query (index + 1) matchCount items consumed)
    {group : SearchGroup EpubMatch} (hgroup : group ∈ consumed.1) :
    ∃ i item', (item :: items)[i]? = some item' ∧ group.hits ≠ [] ∧
      group.hits <+: sectionMatches lower book query item' ∧
      Labelled book (index + i) group.label := by
  obtain ⟨i, item', hitem, hne, hprefix, hlabel⟩ := h.attributed group hgroup
  refine ⟨i + 1, item', by simpa using hitem, hne, hprefix, ?_⟩
  rwa [Nat.add_assoc, Nat.add_comm 1 i] at hlabel

/-- A section without matches. -/
lemma Walked.skip (hnone : sectionMatches lower book query item = [])
    (h : Walked lower book query (index + 1) matchCount items consumed) :
    Walked lower book query index matchCount (item :: items) consumed where
  reported := by rw [List.flatMap_cons, hnone, List.nil_append, h.reported]
  counted := h.counted
  attributed := fun _ hgroup => h.later hgroup

/-- A section with matches. -/
lemma Walked.group {subitems : List EpubMatch} {label : String}
    (hsubitems : subitems = (sectionMatches lower book query item).take
      (SEARCH_MAX_MATCHES - matchCount)) (hne : subitems ≠ [])
    (hlabel : Labelled book index label)
    (h : Walked lower book query (index + 1) (matchCount + subitems.length) items consumed) :
    Walked lower book query index matchCount (item :: items)
      ({ label := label, hits := subitems } :: consumed.1, consumed.2) where
  reported := by
    have hroom : SEARCH_MAX_MATCHES - (matchCount + subitems.length) =
        SEARCH_MAX_MATCHES - matchCount - (sectionMatches lower book query item).length := by
      rw [hsubitems, List.length_take]
      omega
    rw [List.flatMap_cons, List.flatMap_cons, List.take_append, h.reported, hroom, hsubitems]
  counted := by
    rw [h.counted, List.flatMap_cons, List.length_append, Nat.add_assoc]
  attributed := by
    intro group hgroup
    rcases List.mem_cons.mp hgroup with rfl | hrest
    · refine ⟨0, item, rfl, hne, ?_, hlabel⟩
      rw [hsubitems]
      exact List.take_prefix _ _
    · exact h.later hrest

end Step

/-- The walk over some items. -/
lemma consumeSearch_walked {items : List EpubLink}
    (haccepted : ∀ item ∈ items, ∀ excerpt, book.locatorFromBuilt item.href excerpt = true)
    (index matchCount unlabeledOrdinal : ℕ) :
    Walked lower book query index matchCount items
      (consumeSearch lower book query index matchCount unlabeledOrdinal items) := by
  induction items generalizing index matchCount unlabeledOrdinal with
  | nil => exact ⟨by simp [consumeSearch], rfl, by simp [consumeSearch]⟩
  | cons item items ih =>
    have ih := ih fun item hitem => haccepted item (List.mem_cons_of_mem _ hitem)
    rw [consumeSearch]
    split_ifs with hfull
    · refine ⟨?_, rfl, by simp⟩
      rw [Nat.sub_eq_zero_of_le hfull, List.take_zero]
      rfl
    cases hdoc : book.readDocument item with
    | none => exact Walked.skip (by rw [sectionMatches, hdoc]) (ih _ _ _)
    | some doc =>
      have hsubitems := collectMatches_eq (haccepted item List.mem_cons_self) matchCount
        (matchInDocument lower doc query)
      have hsection : (matchInDocument lower doc query).map (fun excerpt =>
          (⟨item.href, excerpt⟩ : EpubMatch)) = sectionMatches lower book query item := by
        rw [sectionMatches, hdoc]
      rw [hsection] at hsubitems
      simp only
      split_ifs with hempty
      · rw [hempty] at hsubitems
        have hnone : sectionMatches lower book query item = [] := by
          rcases List.take_eq_nil_iff.mp hsubitems.symm with hzero | hnil
          · omega
          · exact hnil
        exact Walked.skip hnone (ih _ _ _)
      · exact Walked.group hsubitems hempty (labelled_sectionLabel _ _) (ih _ _ _)

/-- The matches of a section, text node by text node. -/
lemma sectionMatches_exact (hquery : lower query ≠ []) {item : EpubLink} {doc : List JsString}
    (hdoc : book.readDocument item = some doc) :
    ∃ found, sectionMatches lower book query item =
        (found.flatten.map fun excerpt => ⟨item.href, excerpt⟩) ∧
      List.Forall₂ (fun text excerpts => Exact lower
        (fun near => (collapse near).dropWhile isWhiteSpace)
        (fun far => (collapse far).rdropWhile isWhiteSpace) 48 text (lower query) excerpts)
        doc found := by
  refine ⟨doc.map fun text => (Occurrences.scan (lower query) (lower text) 0).map fun i =>
    excerptAround text i (lower query).length 48, ?_, ?_⟩
  · rw [sectionMatches, hdoc]
    simp only [matchInDocument, List.flatMap_def]
  · rw [List.forall₂_map_right_iff, List.forall₂_same]
    intro text _
    exact exact_scan hquery

/-- **What a search in an EPUB hands over.** -/
theorem epubSearch_exact (hlower : ∀ text, text ≠ [] → lower text ≠ [])
    (hquery : jsTrim query ≠ [])
    (haccepted : ∀ item ∈ searchItems book, ∀ excerpt,
      book.locatorFromBuilt item.href excerpt = true) :
    EpubExact lower book (jsTrim query) (epubSearch lower book query) := by
  have hwalked : Walked lower book (jsTrim query) 0 0 (searchItems book) _ :=
    consumeSearch_walked haccepted 0 0 0
  rw [epubSearch]
  simp only [hquery, if_false]
  refine ⟨hwalked.reported, ?_, ?_, ?_, ?_⟩
  · rw [decide_eq_true_eq, hwalked.counted, hwalked.reported, List.length_take]
    omega
  · intro group hgroup
    obtain ⟨i, item, hitem, hne, hprefix, hlabel⟩ := hwalked.attributed group hgroup
    rw [Nat.zero_add] at hlabel
    exact ⟨i, item, hitem, hne, hprefix, fun _ => hlabel⟩
  · intro item doc hdoc
    exact sectionMatches_exact (hlower _ hquery) hdoc
  · intro item hnone
    rw [sectionMatches, hnone]

end Walked

/-! ## Both searches -/

/-- Latin letters, and the capital I with a dot, which lowers to two units. -/
def lowerUnit (unit : UInt16) : JsString :=
  if unit = 0x130 then [0x69, 0x307]
  else if 0x41 ≤ unit ∧ unit ≤ 0x5a then [unit + 0x20]
  else [unit]

def lowerLatin (text : JsString) : JsString := text.flatMap lowerUnit

lemma lowerLatin_ne_nil {text : JsString} (h : text ≠ []) : lowerLatin text ≠ [] := by
  cases text with
  | nil => exact absurd rfl h
  | cons unit rest =>
    rw [lowerLatin, List.flatMap_cons, lowerUnit]
    split_ifs <;> simp

lemma lowerUnit_eq {unit : UInt16} (h : unit ≠ 0x130) :
    lowerUnit unit = [if 0x41 ≤ unit ∧ unit ≤ 0x5a then unit + 0x20 else unit] := by
  rw [lowerUnit, if_neg h]
  split_ifs <;> rfl

/-- A lowered letter is a letter. -/
lemma toNat_lowered {unit : UInt16} (h : 0x41 ≤ unit ∧ unit ≤ 0x5a) :
    unit.toNat ≤ 0x5a ∧ (unit + 0x20).toNat = unit.toNat + 0x20 := by
  have hle : unit.toNat ≤ 0x5a := UInt16.le_iff_toNat_le.mp h.2
  refine ⟨hle, ?_⟩
  rw [UInt16.toNat_add, Nat.mod_eq_of_lt]
  · rfl
  · show unit.toNat + 0x20 < 2 ^ 16
    omega

/-- Latin text without the dotted letter keeps its offsets. -/
lemma kept_lowerLatin {text : JsString} (h : 0x130 ∉ text) : Kept lowerLatin text := by
  apply @kept_of_map _ _ fun unit => if 0x41 ≤ unit ∧ unit ≤ 0x5a then unit + 0x20 else unit
  · intro part hpart
    have hunits : ∀ unit ∈ part, lowerUnit unit =
        [if 0x41 ≤ unit ∧ unit ≤ 0x5a then unit + 0x20 else unit] := by
      intro unit hunit
      apply lowerUnit_eq
      rintro rfl
      exact h (hpart hunit)
    rw [lowerLatin, List.flatMap_congr hunits, List.map_eq_flatMap]
  · intro unit _
    split_ifs with hletter
    · obtain ⟨hle, hsum⟩ := toNat_lowered hletter
      rw [Utf16.isHigh_eq_false (by omega), Utf16.isHigh_eq_false (by omega)]
    · rfl
  · intro unit _
    split_ifs with hletter
    · obtain ⟨hle, hsum⟩ := toNat_lowered hletter
      rw [Utf16.isLow_eq_false (by omega), Utf16.isLow_eq_false (by omega)]
    · rfl

/-- The letter a. -/
def letterA : JsString := [0x61]

/-- The page of the letter a. -/
def letterPage : ℕ → Option (List PdfTextItem) := fun _ => some [⟨letterA, false⟩]

/-- A book with one section, which its table of contents names. -/
def oneSection : EpubBook where
  readingOrder := [⟨"ch1.xhtml", XHTML_TYPE⟩]
  toc := .item "One" "ch1.xhtml#start" .nil .nil
  readDocument _ := some [letterA]
  locatorFromBuilt _ _ := true

/-- The page of a capital I with a dot and the letter a. -/
def dottedPage : ℕ → Option (List PdfTextItem) := fun _ => some [⟨[0x130, 0x61], false⟩]

lemma pageMatches_dottedPage (page : ℕ) :
    pageMatches lowerLatin dottedPage letterA page = [⟨page, ⟨[0x130, 0x61], [], []⟩⟩] := by
  have hscan : Occurrences.scan (lowerLatin letterA) (lowerLatin [0x130, 0x61]) 0 = [2] := by
    rw [Occurrences.scan_some (by decide) (i := 2) (by decide), Occurrences.scan_none (by decide)]
  have htext : assemblePageText [⟨[0x130, 0x61], false⟩] = [0x130, 0x61] := by decide
  rw [pageMatches, dottedPage]
  simp only [htext, findPageMatches, hscan]
  rfl

lemma length_pageMatches_letterPage (page : ℕ) :
    (pageMatches lowerLatin letterPage letterA page).length = 1 := by
  have hscan : Occurrences.scan (lowerLatin letterA) (lowerLatin letterA) 0 = [0] := by
    rw [Occurrences.scan_some (by decide) (i := 0) (by decide), Occurrences.scan_none (by decide)]
  have htext : assemblePageText [⟨letterA, false⟩] = letterA := by decide
  rw [pageMatches, letterPage]
  simp only [htext, findPageMatches, hscan]
  rfl

lemma countMatches_letterPage (pages : List ℕ) :
    countMatches lowerLatin letterPage letterA pages = pages.length := by
  simp [countMatches, length_pageMatches_letterPage]

end BookSearch

end TuxBooks
