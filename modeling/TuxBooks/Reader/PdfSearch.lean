import Mathlib.Algebra.GroupWithZero.Nat
import TuxBooks.Reader.SearchText

set_option relaxedAutoImplicit false
set_option autoImplicit false

/-!
# The search in a PDF

The text of a page, from the items of the engine, in `frontend/src/lib/pdf/pdfSearch.ts`, and the
walk over the pages in `frontend/src/components/reader/pdf/hooks/usePdfSearch.ts`. The walk stops
after the page on which it reaches its limit; a page that cannot be read has no matches.

## Main definitions

* `TuxBooks.BookSearch.assemblePageText`, `TuxBooks.BookSearch.findPageMatches` — the text of a
  page, and its matches.
* `TuxBooks.BookSearch.walkPages` — the walk.
* `TuxBooks.BookSearch.PdfExact` — what a search in a PDF hands over.

## Main results

* `TuxBooks.BookSearch.pdfSearch_exact` — it hands this over for every document and query.
-/

namespace TuxBooks

namespace BookSearch

/-! ## Pages -/

structure PdfTextItem where
  str : JsString
  hasEOL : Bool

def space : UInt16 := 0x20

def assemblePageText (items : List PdfTextItem) : JsString :=
  let text := items.foldl (fun text item =>
    let text := text ++ item.str
    if item.hasEOL || item.str.getLast? ≠ some space then text ++ [space] else text) []
  ((collapse text).dropWhile isWhiteSpace).rdropWhile isWhiteSpace

section Matches

variable (lower : JsString → JsString)

def findPageMatches (pageText query : JsString) (contextChars : ℕ) : List Excerpt :=
  (Occurrences.scan (lower query) (lower pageText) 0).map fun index =>
    { pre := slice pageText (index - contextChars) index
      matched := slice pageText index (index + (lower query).length)
      post := slice pageText (index + (lower query).length)
        (index + (lower query).length + contextChars) }

end Matches

/-! ## The walk -/

/-- Stop searching after this many matches. -/
def MAX_TOTAL_MATCHES : ℕ := 500

structure PdfMatch where
  page : ℕ
  excerpt : Excerpt

section Walk

variable (lower : JsString → JsString) (pageItems : ℕ → Option (List PdfTextItem))
  (query : JsString)

/-- The matches of a page; a page without text items that can be read has none. -/
def pageMatches (page : ℕ) : List PdfMatch :=
  match pageItems page with
  | none => []
  | some items =>
    (findPageMatches lower (assemblePageText items) query 40).map fun excerpt => ⟨page, excerpt⟩

def pageGroup (page : ℕ) : SearchGroup PdfMatch :=
  { label := s!"Page {page}", hits := pageMatches lower pageItems query page }

/-- The groups of the pages, and the matches up to the end of the walk. -/
def walkPages (totalMatches : ℕ) : List ℕ → List (SearchGroup PdfMatch) × ℕ
  | [] => ([], totalMatches)
  | page :: pages =>
    let excerpts := pageMatches lower pageItems query page
    let totalMatches := totalMatches + excerpts.length
    let group := if excerpts = [] then [] else [pageGroup lower pageItems query page]
    if MAX_TOTAL_MATCHES ≤ totalMatches then (group, totalMatches)
    else
      let rest := walkPages totalMatches pages
      (group ++ rest.1, rest.2)

/-- The search over the pages of a document; an empty query is not searched. -/
def pdfSearch (numPages : ℕ) : Option (SearchResults PdfMatch) :=
  if query = [] then none
  else
    let walked := walkPages lower pageItems query 0 (List.range' 1 numPages)
    some { groups := walked.1, truncated := MAX_TOTAL_MATCHES ≤ walked.2 }

/-- The matches of some pages. -/
def countMatches (pages : List ℕ) : ℕ :=
  (pages.map fun page => (pageMatches lower pageItems query page).length).sum

/-- What a search in a PDF hands over: the matches of each page that it reads, under the number of
the page; it reads the pages in order, and stops after the one on which it reaches its limit. -/
structure PdfExact (numPages : ℕ) (results : SearchResults PdfMatch) : Prop where
  walked : ∃ read rest, List.range' 1 numPages = read ++ rest ∧
    results.groups = (read.filter fun page => pageMatches lower pageItems query page ≠ []).map
      (pageGroup lower pageItems query) ∧
    (rest = [] ∨ MAX_TOTAL_MATCHES ≤ countMatches lower pageItems query read) ∧
    ∀ before last, read = before ++ [last] →
      countMatches lower pageItems query before < MAX_TOTAL_MATCHES
  truncated : results.truncated = true ↔
    MAX_TOTAL_MATCHES ≤ countMatches lower pageItems query (List.range' 1 numPages)
  read : ∀ page items, pageItems page = some items →
    Exact lower id id 40 (assemblePageText items) (lower query)
      ((pageMatches lower pageItems query page).map PdfMatch.excerpt)
  unread : ∀ page, pageItems page = none → pageMatches lower pageItems query page = []
  page : ∀ page, ∀ hit ∈ pageMatches lower pageItems query page, hit.page = page

variable {lower pageItems query}

lemma countMatches_append (pages pages' : List ℕ) :
    countMatches lower pageItems query (pages ++ pages') =
      countMatches lower pageItems query pages + countMatches lower pageItems query pages' := by
  simp [countMatches]

lemma countMatches_cons (page : ℕ) (pages : List ℕ) :
    countMatches lower pageItems query (page :: pages) =
      (pageMatches lower pageItems query page).length + countMatches lower pageItems query pages :=
  rfl

/-- The groups of some pages hold their matches. -/
lemma flatMap_hits (pages : List ℕ) :
    ((pages.filter fun page => pageMatches lower pageItems query page ≠ []).map
      (pageGroup lower pageItems query)).flatMap SearchGroup.hits =
        pages.flatMap (pageMatches lower pageItems query) := by
  induction pages with
  | nil => rfl
  | cons page pages ih =>
    rw [List.filter_cons, List.flatMap_cons, ← ih]
    by_cases hnone : pageMatches lower pageItems query page = []
    · simp [hnone]
    · simp [hnone, pageGroup]

/-- The walk over some pages: those it reads, and those it leaves. -/
lemma walkPages_spec (total : ℕ) (htotal : total < MAX_TOTAL_MATCHES) (pages : List ℕ) :
    ∃ read rest, pages = read ++ rest ∧
      (walkPages lower pageItems query total pages).1 =
        (read.filter fun page => pageMatches lower pageItems query page ≠ []).map
          (pageGroup lower pageItems query) ∧
      (walkPages lower pageItems query total pages).2 =
        total + countMatches lower pageItems query read ∧
      (rest = [] ∨ MAX_TOTAL_MATCHES ≤ total + countMatches lower pageItems query read) ∧
      ∀ before last, read = before ++ [last] →
        total + countMatches lower pageItems query before < MAX_TOTAL_MATCHES := by
  induction pages generalizing total with
  | nil => exact ⟨[], [], rfl, rfl, rfl, Or.inl rfl, by simp⟩
  | cons page pages ih =>
    rw [walkPages]
    by_cases hfull :
        MAX_TOTAL_MATCHES ≤ total + (pageMatches lower pageItems query page).length
    · refine ⟨[page], pages, rfl, ?_, ?_, Or.inr hfull, ?_⟩
      · simp only [hfull, if_true]
        by_cases hnone : pageMatches lower pageItems query page = []
        · simp [hnone]
        · simp [hnone]
      · simp only [hfull, if_true]
        rfl
      · intro before last hread
        obtain rfl : before = [] := by
          cases before with
          | nil => rfl
          | cons first before => simp at hread
        exact htotal
    · obtain ⟨read, rest, hpages, hgroups, hcount, hrest, hearly⟩ :=
        ih (total + (pageMatches lower pageItems query page).length) (by omega)
      refine ⟨page :: read, rest, by rw [hpages]; rfl, ?_, ?_, ?_, ?_⟩
      · simp only [hfull, if_false, hgroups]
        by_cases hnone : pageMatches lower pageItems query page = []
        · simp [hnone]
        · simp [hnone]
      · simp only [hfull, if_false, hcount, countMatches_cons]
        omega
      · rw [countMatches_cons, ← Nat.add_assoc]
        exact hrest
      · intro before last hread
        cases before with
        | nil => exact htotal
        | cons first before =>
          obtain ⟨rfl, htail⟩ := List.cons.inj hread
          have hlt := hearly before last htail
          rw [countMatches_cons]
          omega

/-- **What a search in a PDF hands over.** -/
theorem pdfSearch_exact (hlower : ∀ text, text ≠ [] → lower text ≠ []) (hquery : query ≠ [])
    (numPages : ℕ) : ∃ results, pdfSearch lower pageItems query numPages = some results ∧
      PdfExact lower pageItems query numPages results := by
  refine ⟨_, if_neg hquery, ?_⟩
  obtain ⟨read, rest, hpages, hgroups, hcount, hrest, hearly⟩ :=
    @walkPages_spec lower pageItems query 0 (by decide) (List.range' 1 numPages)
  rw [Nat.zero_add] at hcount hrest
  refine { walked := ?_, truncated := ?_, read := ?_, unread := ?_, page := ?_ }
  · exact ⟨read, rest, hpages, hgroups, hrest, fun before last h => by
      simpa using hearly before last h⟩
  · rw [decide_eq_true_eq, hcount, hpages, countMatches_append]
    rcases hrest with rfl | hfull
    · rfl
    · omega
  · intro page items hitems
    have hmatches : (pageMatches lower pageItems query page).map PdfMatch.excerpt =
        findPageMatches lower (assemblePageText items) query 40 := by
      simp [pageMatches, hitems, Function.comp_def]
    rw [hmatches]
    exact exact_scan (hlower query hquery)
  · intro page hnone
    rw [pageMatches, hnone]
  · intro page hit hhit
    rw [pageMatches] at hhit
    cases hitems : pageItems page with
    | none => simp [hitems] at hhit
    | some items =>
      simp only [hitems, List.mem_map] at hhit
      obtain ⟨excerpt, -, rfl⟩ := hhit
      rfl

end Walk

end BookSearch

end TuxBooks
