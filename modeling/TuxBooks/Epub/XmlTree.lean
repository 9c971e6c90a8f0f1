import TuxBooks.Epub.Metadata

set_option relaxedAutoImplicit false
set_option autoImplicit false

/-!
# XML documents as trees

A well-formed document is the tree of its elements, and the events that the reader reports for it
are that tree read in document order. The parsers of the library go through the events; what a
document says is read off the tree.

## Main definitions

* `TuxBooks.Epub.XmlNodes` — the nodes that stand beside each other, with what is in them.
* `TuxBooks.Epub.XmlNodes.events` — what the reader reports for them.
* `TuxBooks.Epub.XmlNodes.wholeText` — all their text.
* `TuxBooks.Epub.parseNodes` — a parser over their events.

## Main results

* `TuxBooks.Epub.parseNodes_element` — a parser goes into an element and out of it.
* `TuxBooks.Epub.trim_append_of_blank_left`, `TuxBooks.Epub.trim_append_of_blank_right` — blank text
  around a text is trimmed away.
-/

namespace TuxBooks

namespace Epub

/-- Nodes beside each other: the first one, and the rest. The names are qualified names. -/
inductive XmlNodes where
  | nil
  | element (name : String) (attrs : Attributes) (children rest : XmlNodes)
  /-- An element written as an empty-element tag. -/
  | selfClosing (name : String) (attrs : Attributes) (rest : XmlNodes)
  /-- Text or an entity reference, unless it does not decode. -/
  | text (content : Option String) (rest : XmlNodes)
  | cdata (content : String) (rest : XmlNodes)
  /-- Comments, declarations, instructions. -/
  | other (rest : XmlNodes)

namespace XmlNodes

/-- The events of the nodes, in document order. A CDATA section is an event of its own, which no
parser of the library reads. -/
def events : XmlNodes → List XmlEvent
  | nil => []
  | element name attrs children rest =>
    .start name attrs :: (children.events ++ .close name :: rest.events)
  | selfClosing name attrs rest => .empty name attrs :: rest.events
  | text content rest => .text content :: rest.events
  | cdata _ rest => .other :: rest.events
  | other rest => .other :: rest.events

/-- The whole text of the nodes. -/
def wholeText : XmlNodes → String
  | nil => ""
  | element _ _ children rest => children.wholeText ++ rest.wholeText
  | selfClosing _ _ rest => rest.wholeText
  | text content rest => content.getD "" ++ rest.wholeText
  | cdata content rest => content ++ rest.wholeText
  | other rest => rest.wholeText

/-- How deep the elements of some names are nested in each other. -/
def depth (counted : String → Bool) : XmlNodes → ℕ
  | nil => 0
  | element name _ children rest =>
    max ((if counted (localName name) = true then 1 else 0) + children.depth counted)
      (rest.depth counted)
  | selfClosing _ _ rest | text _ rest | cdata _ rest | other rest => rest.depth counted

end XmlNodes

/-! ## Parsers over the events -/

section Parser

variable {σ ε : Type} (step : σ → XmlEvent → Except ε σ)

/-- A parser over the events of some nodes. -/
def parseNodes (nodes : XmlNodes) (st : σ) : Except ε σ := nodes.events.foldlM step st

lemma parseNodes_nil (st : σ) : parseNodes step .nil st = .ok st := rfl

/-- A parser goes into an element, through its content and out of it. -/
lemma parseNodes_element (name : String) (attrs : Attributes) (children rest : XmlNodes) (st : σ) :
    parseNodes step (.element name attrs children rest) st =
      (step st (.start name attrs) >>= fun st => parseNodes step children st >>= fun st =>
        step st (.close name) >>= fun st => parseNodes step rest st) := by
  simp only [parseNodes, XmlNodes.events, List.foldlM_cons, List.foldlM_append]

/-- The first element, and what stands beside it. -/
lemma parseNodes_head (name : String) (attrs : Attributes) (children rest : XmlNodes) (st : σ) :
    parseNodes step (.element name attrs children rest) st =
      (parseNodes step (.element name attrs children .nil) st >>= fun st =>
        parseNodes step rest st) := by
  simp only [parseNodes, XmlNodes.events, List.foldlM_cons, List.foldlM_append, List.foldlM_nil,
    bind_assoc, bind_pure]

lemma parseNodes_selfClosing (name : String) (attrs : Attributes) (rest : XmlNodes) (st : σ) :
    parseNodes step (.selfClosing name attrs rest) st =
      (step st (.empty name attrs) >>= fun st => parseNodes step rest st) := rfl

lemma parseNodes_text (content : Option String) (rest : XmlNodes) (st : σ) :
    parseNodes step (.text content rest) st =
      (step st (.text content) >>= fun st => parseNodes step rest st) := rfl

lemma parseNodes_cdata (content : String) (rest : XmlNodes) (st : σ) :
    parseNodes step (.cdata content rest) st =
      (step st .other >>= fun st => parseNodes step rest st) := rfl

lemma parseNodes_other (rest : XmlNodes) (st : σ) :
    parseNodes step (.other rest) st =
      (step st .other >>= fun st => parseNodes step rest st) := rfl

end Parser

/-! ## Text that is trimmed -/

/-- Blank text in front is trimmed away. -/
lemma trim_append_of_blank_left {front : String} (h : isBlank front = true) (text : String) :
    trim (front ++ text) = trim text := by
  have hall : ∀ c ∈ front.toList, isWhite c = true := List.all_eq_true.mp h
  unfold trim
  rw [String.toList_append, List.dropWhile_append_of_pos hall]

/-- Blank text behind is trimmed away. -/
lemma trim_append_of_blank_right {back : String} (h : isBlank back = true) (text : String) :
    trim (text ++ back) = trim text := by
  have hall : ∀ c ∈ back.toList, isWhite c = true := List.all_eq_true.mp h
  unfold trim
  rw [String.toList_append, List.dropWhile_append]
  split_ifs with hempty
  · rw [List.isEmpty_iff.mp hempty, List.dropWhile_eq_nil_iff.mpr hall]
  · rw [List.reverse_append, List.dropWhile_append_of_pos]
    intro c hc
    exact hall c (List.mem_reverse.mp hc)

end Epub

end TuxBooks
