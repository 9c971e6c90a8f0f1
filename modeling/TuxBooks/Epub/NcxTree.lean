import TuxBooks.Epub.Contents
import TuxBooks.Epub.XmlTree

set_option relaxedAutoImplicit false
set_option autoImplicit false

/-!
# The tree of an NCX document

What an NCX document lists, read off its tree, and the stack machine of `parse_ncx_document` that
goes through its events. Every `navPoint` is an entry unless a target of its own is dangerous;
what stands below such a point belongs to the nearest entry around it.

## Main definitions

* `TuxBooks.Epub.Ncx.entries` — the entries of a document.
* `TuxBooks.Epub.Ncx.selfClosed`, `TuxBooks.Epub.Ncx.noneHidden`, `TuxBooks.Epub.Ncx.plainLabels` —
  what the parser asks of a document.
* `TuxBooks.Epub.Ncx.grow` — what a list of nodes does to the state of the parser.

## Main results

* `TuxBooks.Epub.Ncx.parseNodes_grow` — the nodes of such a document add their entries to the point
  that they are in.
* `TuxBooks.Epub.Ncx.parseNcxDocument_entries` — such a document is parsed to its entries.
* `TuxBooks.Epub.Ncx.of_parseNcxDocument` — in a document that is, every point is closed by a tag of
  its own and hides no entry.
-/

namespace TuxBooks

namespace Epub

namespace Ncx

open Fallible

variable {α : Type}

/-! ## What a document lists -/

/-- The target that an element gives. -/
def source (name : String) (attrs : Attributes) : List String :=
  if name = "content" then (attributeValue attrs "src").toList else []

/-- The targets of the point that the nodes are in. -/
def sources : XmlNodes → List String
  | .nil => []
  | .element name attrs children rest =>
    (if localName name = "navPoint" then []
      else source (localName name) attrs ++ sources children) ++ sources rest
  | .selfClosing name attrs rest => source (localName name) attrs ++ sources rest
  | .text _ rest | .cdata _ rest | .other rest => sources rest

/-- The labels of the point that the nodes are in. -/
def labels : XmlNodes → List String
  | .nil => []
  | .element name _ children rest =>
    (if localName name = "navPoint" then []
      else if localName name = "navLabel" then [trim children.wholeText]
      else labels children) ++ labels rest
  | .selfClosing name _ rest => (if localName name = "navLabel" then [""] else []) ++ labels rest
  | .text _ rest | .cdata _ rest | .other rest => labels rest

/-- A point with this content has a dangerous target. -/
def dangerous (children : XmlNodes) : Bool := (sources children).any isDangerousTocHref

/-- The target that a point is left with: the last one that is permitted. -/
def target (reader : LinkReader α) (unset : α) (sources : List String) : α :=
  (sources.filter fun src => !isDangerousTocHref src).getLast?.elim unset reader.resolve

/-- The entries of the nodes, each with the entries below it. -/
def entries (reader : LinkReader α) : XmlNodes → List (TocItem α)
  | .nil => []
  | .element name _ children rest =>
    (if localName name = "navPoint" ∧ dangerous children = false then
        [⟨(labels children).getLast?.getD "", target reader reader.unset (sources children),
          entries reader children⟩]
      else entries reader children) ++ entries reader rest
  | .selfClosing name _ rest =>
    (if localName name = "navPoint" then [⟨"", reader.unset, []⟩] else []) ++ entries reader rest
  | .text _ rest | .cdata _ rest | .other rest => entries reader rest

/-! ## What the parser asks of a document -/

/-- How many points are written as empty-element tags. -/
def selfClosed : XmlNodes → ℕ
  | .nil => 0
  | .element _ _ children rest => selfClosed children + selfClosed rest
  | .selfClosing name _ rest => (if localName name = "navPoint" then 1 else 0) + selfClosed rest
  | .text _ rest | .cdata _ rest | .other rest => selfClosed rest

/-- How many points have no dangerous target. -/
def permitted : XmlNodes → ℕ
  | .nil => 0
  | .element name _ children rest =>
    (if localName name = "navPoint" ∧ dangerous children = false then 1 else 0) +
      permitted children + permitted rest
  | .selfClosing name _ rest => (if localName name = "navPoint" then 1 else 0) + permitted rest
  | .text _ rest | .cdata _ rest | .other rest => permitted rest

/-- No entry stands below a point that is dropped. -/
def noneHidden : XmlNodes → Bool
  | .nil => true
  | .element name _ children rest =>
    (if localName name = "navPoint" ∧ dangerous children = true then permitted children == 0
      else noneHidden children) && noneHidden rest
  | .selfClosing _ _ rest | .text _ rest | .cdata _ rest | .other rest => noneHidden rest

/-- Content of a label that the parser gathers as it is. -/
def plainText : XmlNodes → Bool
  | .nil => true
  | .element name _ children rest =>
    localName name ≠ "navPoint" && localName name ≠ "navLabel" && plainText children &&
      plainText rest
  | .selfClosing name _ rest =>
    localName name ≠ "navPoint" && localName name ≠ "navLabel" && plainText rest
  | .cdata content rest => content = "" && plainText rest
  | .text _ rest | .other rest => plainText rest

/-- Every label has a closing tag, and in it are only text and markup. -/
def plainLabels : XmlNodes → Bool
  | .nil => true
  | .element name _ children rest =>
    (if localName name = "navLabel" then plainText children else plainLabels children) &&
      plainLabels rest
  | .selfClosing name _ rest => localName name ≠ "navLabel" && plainLabels rest
  | .text _ rest | .cdata _ rest | .other rest => plainLabels rest

/-- The points that the depth of the parser counts. -/
def isPoint (name : String) : Bool := name = "navPoint"

/-! ## What nodes add to the point that they are in -/

/-- The labels, the targets and the entries that some nodes add. -/
structure Addition (α : Type) where
  labels : List String
  sources : List String
  entries : List (TocItem α)

/-- What is added first and what is added then. -/
def Addition.append (first second : Addition α) : Addition α :=
  ⟨first.labels ++ second.labels, first.sources ++ second.sources, first.entries ++ second.entries⟩

/-- What the nodes add. The parser drops a dangerous point with all that is below it. -/
def kept (reader : LinkReader α) : XmlNodes → List (TocItem α)
  | .nil => []
  | .element name _ children rest =>
    (if localName name = "navPoint" then
        if dangerous children = true then []
        else [⟨(labels children).getLast?.getD "", target reader reader.unset (sources children),
          kept reader children⟩]
      else kept reader children) ++ kept reader rest
  | .selfClosing _ _ rest | .text _ rest | .cdata _ rest | .other rest => kept reader rest

/-- What the nodes of a document add. -/
def addition (reader : LinkReader α) (nodes : XmlNodes) : Addition α :=
  ⟨labels nodes, sources nodes, kept reader nodes⟩

/-- Add to the innermost point, or to the entries of the document. -/
def grow (reader : LinkReader α) (st : NcxState α) (added : Addition α) : NcxState α :=
  match st.openPoints, st.openSkips with
  | point :: points, skip :: skips =>
    { st with
      openPoints :=
        ⟨added.labels.getLast?.getD point.label, target reader point.href added.sources,
          point.children ++ added.entries⟩ :: points
      openSkips := (skip || added.sources.any isDangerousTocHref) :: skips }
  | _, _ => { st with roots := st.roots ++ added.entries }

section Grow

variable {reader : LinkReader α} {limits : XmlLimits} {st : NcxState α}

lemma target_append (unset : α) (sources sources' : List String) :
    target reader (target reader unset sources) sources' =
      target reader unset (sources ++ sources') := by
  unfold target
  rw [List.filter_append, List.getLast?_append]
  cases (sources'.filter fun src => !isDangerousTocHref src).getLast? <;> rfl

/-- The points and the marks of those that are dropped stand in parallel. -/
def Parallel (st : NcxState α) : Prop := st.openPoints.length = st.openSkips.length

/-- No label is open and none is gathered. -/
def Clean (st : NcxState α) : Prop := st.inNavLabel = false ∧ st.textBuf = ""

lemma grow_nil (hroots : st.openPoints = []) (added : Addition α) :
    grow reader st added = { st with roots := st.roots ++ added.entries } := by
  simp only [grow, hroots]

lemma grow_cons {point : TocItem α} {points : List (TocItem α)} {skip : Bool} {skips : List Bool}
    (hpoints : st.openPoints = point :: points) (hskips : st.openSkips = skip :: skips)
    (added : Addition α) :
    grow reader st added =
      { st with
        openPoints :=
          ⟨added.labels.getLast?.getD point.label, target reader point.href added.sources,
            point.children ++ added.entries⟩ :: points
        openSkips := (skip || added.sources.any isDangerousTocHref) :: skips } := by
  simp only [grow, hpoints, hskips]

/-- The marks of points that stand in parallel with them. -/
lemma Parallel.cases (h : Parallel st) :
    st.openPoints = [] ∧ st.openSkips = [] ∨ ∃ point points skip skips,
      st.openPoints = point :: points ∧ st.openSkips = skip :: skips := by
  unfold Parallel at h
  cases hpoints : st.openPoints with
  | nil =>
    rw [hpoints, List.length_nil] at h
    exact .inl ⟨rfl, List.length_eq_zero_iff.mp h.symm⟩
  | cons point points =>
    cases hskips : st.openSkips with
    | nil => simp [hpoints, hskips] at h
    | cons skip skips => exact .inr ⟨point, points, skip, skips, rfl, rfl⟩

lemma Parallel.grow (h : Parallel st) (added : Addition α) : Parallel (grow reader st added) := by
  obtain ⟨hpoints, hskips⟩ | ⟨point, points, skip, skips, hpoints, hskips⟩ := h.cases
  · rw [grow_nil hpoints]
    exact h
  · rw [grow_cons hpoints hskips]
    simpa [Parallel, hpoints, hskips] using h

lemma length_grow (added : Addition α) :
    (Ncx.grow reader st added).openPoints.length = st.openPoints.length := by
  unfold Ncx.grow
  split
  · simp_all
  · rfl

@[simp] lemma inNavLabel_grow (added : Addition α) :
    (Ncx.grow reader st added).inNavLabel = st.inNavLabel := by
  unfold Ncx.grow
  split <;> rfl

@[simp] lemma textBuf_grow (added : Addition α) :
    (Ncx.grow reader st added).textBuf = st.textBuf := by
  unfold Ncx.grow
  split <;> rfl

/-- Gather some text. -/
def gather (st : NcxState α) (text : String) : NcxState α :=
  { st with textBuf := st.textBuf ++ text }

@[simp] lemma inNavLabel_gather (text : String) : (gather st text).inNavLabel = st.inNavLabel := rfl

lemma Parallel.gather (h : Parallel st) (text : String) : Parallel (gather st text) := h

/-- Nothing is added by what adds no label, no target and no entry. -/
lemma grow_empty : grow reader st ⟨[], [], []⟩ = st := by
  obtain ⟨roots, _ | ⟨⟨label, href, children⟩, points⟩, _ | ⟨skip, skips⟩, textBuf, inNavLabel⟩ :=
    st <;> simp [grow, target]

/-- What is added in two parts. -/
lemma grow_grow (first second : Addition α) :
    grow reader (grow reader st first) second = grow reader st (first.append second) := by
  obtain ⟨roots, _ | ⟨⟨label, href, children⟩, points⟩, _ | ⟨skip, skips⟩, textBuf, inNavLabel⟩ :=
    st
  · simp [grow, Addition.append]
  · simp [grow, Addition.append]
  · simp [grow, Addition.append]
  · simp only [grow, Addition.append, target_append, List.getLast?_append, List.any_append,
      List.append_assoc, Bool.or_assoc]
    cases second.labels.getLast? <;> rfl

lemma gather_grow (added : Addition α) (text : String) :
    gather (grow reader st added) text = grow reader (gather st text) added := by
  obtain ⟨roots, _ | ⟨point, points⟩, _ | ⟨skip, skips⟩, textBuf, inNavLabel⟩ := st <;> rfl

lemma gather_gather (text text' : String) :
    gather (gather st text) text' = gather st (text ++ text') := by
  simp [gather, String.append_assoc]

end Grow

/-! ## The parser goes through the nodes -/

section Run

variable {reader : LinkReader α} {limits : XmlLimits} {st : NcxState α}

lemma step_start (name : String) (attrs : Attributes) :
    NcxState.step limits reader st (.start name attrs) =
      st.start limits reader (localName name) attrs := rfl

lemma step_empty (name : String) (attrs : Attributes) :
    NcxState.step limits reader st (.empty name attrs) =
      st.start limits reader (localName name) attrs := rfl

lemma step_close (name : String) :
    NcxState.step limits reader st (.close name) = .ok (st.close (localName name)) := rfl

/-- An element that is neither a point nor a label may give a target. -/
lemma start_plain (h : Parallel st) {name : String} (hpoint : name ≠ "navPoint")
    (hlabel : name ≠ "navLabel") (attrs : Attributes) :
    st.start limits reader name attrs = .ok (grow reader st ⟨[], source name attrs, []⟩) := by
  unfold NcxState.start source
  rw [if_neg hpoint, if_neg hlabel]
  split_ifs
  · unfold NcxState.content
    obtain ⟨roots, _ | ⟨⟨label, href, children⟩, points⟩, _ | ⟨skip, skips⟩, textBuf,
      inNavLabel⟩ := st
    · simp [grow]
    · simp [grow]
    · simp [Parallel] at h
    · cases hsrc : attributeValue attrs "src" with
      | none => simp [grow, target]
      | some src =>
        by_cases hdangerous : isDangerousTocHref src = true
        · simp [grow, target, NcxState.skipPoint, hdangerous]
        · simp [grow, target, hdangerous]
  · rw [grow_empty]

lemma close_plain {name : String} (hpoint : name ≠ "navPoint") (hlabel : name ≠ "navLabel") :
    st.close name = st := by
  unfold NcxState.close
  rw [if_neg hlabel, if_neg hpoint]

/-- A label holds no point. -/
lemma kept_of_plainText (reader : LinkReader α) (nodes : XmlNodes)
    (hplain : plainText nodes = true) : kept reader nodes = [] := by
  induction nodes with
  | nil => rfl
  | element name attrs children rest ihchildren ihrest =>
    simp only [plainText, Bool.and_eq_true, decide_eq_true_eq] at hplain
    obtain ⟨⟨⟨hpoint, -⟩, hchildren⟩, hrest⟩ := hplain
    rw [kept, if_neg hpoint, ihchildren hchildren, ihrest hrest, List.append_nil]
  | selfClosing name attrs rest ih =>
    simp only [plainText, Bool.and_eq_true] at hplain
    exact ih hplain.2
  | text content rest ih => exact ih hplain
  | cdata content rest ih =>
    simp only [plainText, Bool.and_eq_true] at hplain
    exact ih hplain.2
  | other rest ih => exact ih hplain

/-- The text of a label is gathered, and a target in it is read as any other. -/
lemma parseNodes_plainText (nodes : XmlNodes) (hplain : plainText nodes = true) (h : Parallel st)
    (hlabel : st.inNavLabel = true) :
    parseNodes (NcxState.step limits reader) nodes st =
      .ok (grow reader (gather st nodes.wholeText) ⟨[], sources nodes, []⟩) := by
  induction nodes generalizing st with
  | nil => simp [parseNodes_nil, sources, XmlNodes.wholeText, grow_empty, gather]
  | element name attrs children rest ihchildren ihrest =>
    simp only [plainText, Bool.and_eq_true, decide_eq_true_eq] at hplain
    obtain ⟨⟨⟨hpoint, hnested⟩, hchildren⟩, hrest⟩ := hplain
    rw [parseNodes_element, step_start, start_plain h hpoint hnested]
    change (parseNodes _ children _ >>= _) = _
    rw [ihchildren hchildren (h.grow _) (by simp [hlabel])]
    change parseNodes _ rest (NcxState.close _ _) = _
    rw [close_plain hpoint hnested, ihrest hrest ((h.grow _).gather _ |>.grow _)
      (by simp [hlabel])]
    simp [gather_grow, gather_gather, grow_grow, sources, hpoint, Addition.append,
      XmlNodes.wholeText]
  | selfClosing name attrs rest ih =>
    simp only [plainText, Bool.and_eq_true, decide_eq_true_eq] at hplain
    obtain ⟨⟨hpoint, hnested⟩, hrest⟩ := hplain
    rw [parseNodes_selfClosing, step_empty, start_plain h hpoint hnested]
    change parseNodes _ rest _ = _
    rw [ih hrest (h.grow _) (by simp [hlabel])]
    simp [gather_grow, grow_grow, sources, Addition.append, XmlNodes.wholeText]
  | text content rest ih =>
    have htext : st.text content = gather st (content.getD "") := by
      simp [NcxState.text, hlabel, gather]
    rw [parseNodes_text]
    change parseNodes _ rest (st.text content) = _
    rw [htext, ih hplain (h.gather _) hlabel, gather_gather]
    rfl
  | cdata content rest ih =>
    simp only [plainText, Bool.and_eq_true, decide_eq_true_eq] at hplain
    obtain ⟨rfl, hrest⟩ := hplain
    rw [parseNodes_cdata]
    change parseNodes _ rest st = _
    simp [ih hrest h hlabel, sources, XmlNodes.wholeText]
  | other rest ih => exact ih hplain h hlabel

/-- A label is the whole text of its element. -/
lemma closeLabel_grow (hclean : Clean st) (h : Parallel st) (text : String)
    (sources : List String) :
    (grow reader (gather { st with inNavLabel := true } text) ⟨[], sources, []⟩).closeLabel =
      grow reader st ⟨[trim text], sources, []⟩ := by
  obtain ⟨roots, _ | ⟨point, points⟩, _ | ⟨skip, skips⟩, textBuf, inNavLabel⟩ := st
  all_goals obtain ⟨rfl, rfl⟩ : inNavLabel = false ∧ textBuf = "" := hclean
  · simp [grow, gather, NcxState.closeLabel]
  · simp [grow, gather, NcxState.closeLabel]
  · simp [Parallel] at h
  · simp [grow, gather, NcxState.closeLabel]

/-- The state in which the content of a point is read. -/
def opened (reader : LinkReader α) (st : NcxState α) : NcxState α :=
  { st with
    openPoints := ⟨"", reader.unset, []⟩ :: st.openPoints
    openSkips := false :: st.openSkips }

/-- A point whose content is complete goes where it stands. -/
lemma closePoint_grow (h : Parallel st) (added : Addition α) :
    (grow reader (opened reader st) added).closePoint =
      grow reader st ⟨[], [],
        if added.sources.any isDangerousTocHref = true then []
        else [⟨added.labels.getLast?.getD "", target reader reader.unset added.sources,
          added.entries⟩]⟩ := by
  obtain ⟨roots, _ | ⟨⟨label, href, children⟩, points⟩, _ | ⟨skip, skips⟩, textBuf, inNavLabel⟩ :=
    st
  · by_cases hdangerous : added.sources.any isDangerousTocHref = true <;>
      simp [opened, grow, NcxState.closePoint, hdangerous]
  · simp [Parallel] at h
  · simp [Parallel] at h
  · by_cases hdangerous : added.sources.any isDangerousTocHref = true <;>
      simp [opened, grow, NcxState.closePoint, target, hdangerous]

lemma Clean.grow (h : Clean st) (added : Addition α) : Clean (grow reader st added) :=
  ⟨(inNavLabel_grow added).trans h.1, (textBuf_grow added).trans h.2⟩

lemma text_of_clean (h : Clean st) (content : Option String) : st.text content = st := by
  simp [NcxState.text, h.1]

lemma Parallel.opened (h : Parallel st) (reader : LinkReader α) : Parallel (opened reader st) := by
  simpa [Parallel, Ncx.opened] using h

lemma length_opened : (opened reader st).openPoints.length = st.openPoints.length + 1 := rfl

lemma close_navPoint : st.close "navPoint" = st.closePoint := by simp [NcxState.close]

lemma close_navLabel : st.close "navLabel" = st.closeLabel := by simp [NcxState.close]

lemma start_navPoint (hdepth : st.openPoints.length + 1 ≤ limits.maxXmlDepth)
    (attrs : Attributes) :
    st.start limits reader "navPoint" attrs = .ok (opened reader st) := by
  simp [NcxState.start, NcxState.openPoint, XmlLimits.checkXmlDepth, hdepth, bounded, opened]

/-- **The nodes add their entries.** The points are closed by tags of their own, and the labels
hold text and markup only. -/
theorem parseNodes_grow (nodes : XmlNodes) (hclosed : selfClosed nodes = 0)
    (hlabels : plainLabels nodes = true) (h : Parallel st) (hclean : Clean st)
    (hdepth : st.openPoints.length + nodes.depth isPoint ≤ limits.maxXmlDepth) :
    parseNodes (NcxState.step limits reader) nodes st =
      .ok (grow reader st (addition reader nodes)) := by
  induction nodes generalizing st with
  | nil => simp [parseNodes_nil, addition, sources, labels, kept, grow_empty]
  | element name attrs children rest ihchildren ihrest =>
    simp only [selfClosed, Nat.add_eq_zero_iff] at hclosed
    simp only [plainLabels, Bool.and_eq_true] at hlabels
    rw [XmlNodes.depth] at hdepth
    rw [parseNodes_element, step_start]
    by_cases hpoint : localName name = "navPoint"
    · have hplain : plainLabels children = true := by simpa [hpoint] using hlabels.1
      have hcount : isPoint (localName name) = true := by simp [isPoint, hpoint]
      rw [if_pos hcount] at hdepth
      rw [hpoint, start_navPoint (by omega)]
      change (parseNodes _ children (opened reader st) >>= _) = _
      rw [ihchildren hclosed.1 hplain (h.opened reader) hclean
        (by rw [length_opened]; omega)]
      change parseNodes _ rest (NcxState.close _ (localName name)) = _
      rw [hpoint, close_navPoint, closePoint_grow h, ihrest hclosed.2 hlabels.2 (h.grow _)
        (hclean.grow _) (by rw [length_grow]; omega), grow_grow]
      simp [addition, Addition.append, sources, labels, kept, hpoint, dangerous]
    by_cases hlabel : localName name = "navLabel"
    · have hplain : plainText children = true := by simpa [hlabel] using hlabels.1
      have hstart : st.start limits reader (localName name) attrs =
          .ok { st with inNavLabel := true } := by
        simp [NcxState.start, hlabel]
      have hlabelled : Parallel { st with inNavLabel := true } := h
      rw [hstart]
      change (parseNodes _ children { st with inNavLabel := true } >>= _) = _
      rw [parseNodes_plainText children hplain hlabelled rfl]
      change parseNodes _ rest (NcxState.close _ (localName name)) = _
      rw [hlabel, close_navLabel, closeLabel_grow hclean h, ihrest hclosed.2 hlabels.2 (h.grow _)
        (hclean.grow _) (by rw [length_grow]; omega), grow_grow]
      simp [addition, Addition.append, sources, labels, kept, hlabel, source,
        kept_of_plainText reader children hplain]
    · have hplain : plainLabels children = true := by simpa [hlabel] using hlabels.1
      rw [start_plain h hpoint hlabel]
      change (parseNodes _ children _ >>= _) = _
      rw [ihchildren hclosed.1 hplain (h.grow _) (hclean.grow _) (by rw [length_grow]; omega)]
      change parseNodes _ rest (NcxState.close _ (localName name)) = _
      rw [close_plain hpoint hlabel, ihrest hclosed.2 hlabels.2 ((h.grow _).grow _)
        ((hclean.grow _).grow _) (by rw [length_grow, length_grow]; omega), grow_grow, grow_grow]
      simp [addition, Addition.append, sources, labels, kept, hpoint, hlabel]
  | selfClosing name attrs rest ih =>
    simp only [selfClosed, Nat.add_eq_zero_iff] at hclosed
    simp only [plainLabels, Bool.and_eq_true, decide_eq_true_eq] at hlabels
    have hpoint : localName name ≠ "navPoint" := by
      intro hpoint
      simp [hpoint] at hclosed
    rw [parseNodes_selfClosing, step_empty, start_plain h hpoint hlabels.1]
    change parseNodes _ rest _ = _
    rw [ih hclosed.2 hlabels.2 (h.grow _) (hclean.grow _) (by rw [length_grow]; exact hdepth),
      grow_grow]
    simp [addition, Addition.append, sources, labels, kept, hlabels.1]
  | text content rest ih =>
    rw [parseNodes_text]
    change parseNodes _ rest (st.text content) = _
    rw [text_of_clean hclean]
    exact ih hclosed hlabels h hclean hdepth
  | cdata content rest ih => exact ih hclosed hlabels h hclean hdepth
  | other rest ih => exact ih hclosed hlabels h hclean hdepth

end Run

/-! ## The entries of a document -/

lemma length_hrefsOf_append (items items' : List (TocItem α)) :
    (hrefsOf (items ++ items')).length = (hrefsOf items).length + (hrefsOf items').length := by
  induction items with
  | nil => simp [hrefsOf]
  | cons item items ih => simp [hrefsOf, ih, Nat.add_assoc]

section Entries

variable (reader : LinkReader α)

/-- There are as many entries as permitted points. -/
lemma length_hrefsOf_entries (nodes : XmlNodes) :
    (hrefsOf (entries reader nodes)).length = permitted nodes := by
  induction nodes with
  | nil => rfl
  | element name attrs children rest ihchildren ihrest =>
    rw [entries, permitted, length_hrefsOf_append, ihrest]
    split_ifs with hpoint
    · simp [hrefsOf, TocItem.hrefs, ihchildren]
      omega
    · omega
  | selfClosing name attrs rest ih =>
    rw [entries, permitted, length_hrefsOf_append, ih]
    split_ifs <;> simp [hrefsOf, TocItem.hrefs]
  | text content rest ih => exact ih
  | cdata content rest ih => exact ih
  | other rest ih => exact ih

lemma entries_of_permitted {nodes : XmlNodes} (h : permitted nodes = 0) :
    entries reader nodes = [] := by
  rw [← length_hrefsOf_entries reader nodes] at h
  cases hentries : entries reader nodes with
  | nil => rfl
  | cons item items =>
    obtain ⟨label, href, children⟩ := item
    simp [hentries, hrefsOf, TocItem.hrefs] at h

/-- Nothing is dropped but the dangerous points themselves. -/
lemma kept_eq_entries (nodes : XmlNodes) (hclosed : selfClosed nodes = 0)
    (hhidden : noneHidden nodes = true) : kept reader nodes = entries reader nodes := by
  induction nodes with
  | nil => rfl
  | element name attrs children rest ihchildren ihrest =>
    simp only [selfClosed, Nat.add_eq_zero_iff] at hclosed
    simp only [noneHidden, Bool.and_eq_true] at hhidden
    rw [kept, entries, ihrest hclosed.2 hhidden.2]
    congr 1
    by_cases hpoint : localName name = "navPoint"
    · by_cases hdangerous : dangerous children = true
      · have hnone : permitted children = 0 := by simpa [hpoint, hdangerous] using hhidden.1
        simp [hpoint, hdangerous, entries_of_permitted reader hnone]
      · have hchildren : noneHidden children = true := by
          simpa [hpoint, hdangerous] using hhidden.1
        simp [hpoint, hdangerous, ihchildren hclosed.1 hchildren]
    · have hchildren : noneHidden children = true := by simpa [hpoint] using hhidden.1
      simp [hpoint, ihchildren hclosed.1 hchildren]
  | selfClosing name attrs rest ih =>
    simp only [selfClosed, Nat.add_eq_zero_iff] at hclosed
    have hpoint : localName name ≠ "navPoint" := by
      intro hpoint
      simp [hpoint] at hclosed
    rw [kept, entries, if_neg hpoint, ih hclosed.2 hhidden, List.nil_append]
  | text content rest ih => exact ih hclosed hhidden
  | cdata content rest ih => exact ih hclosed hhidden
  | other rest ih => exact ih hclosed hhidden

/-- **A document that the parser reads is parsed to its entries.** -/
theorem parseNcxDocument_entries (limits : XmlLimits) {len : ℕ} {doc : XmlNodes}
    (hlen : len ≤ limits.maxXmlBytes) (hdepth : doc.depth isPoint ≤ limits.maxXmlDepth)
    (hclosed : selfClosed doc = 0) (hhidden : noneHidden doc = true)
    (hlabels : plainLabels doc = true) :
    parseNcxDocument limits reader len doc.events = .ok (entries reader doc) := by
  have hrun := @parseNodes_grow α reader limits {} doc hclosed hlabels rfl ⟨rfl, rfl⟩
    (by simpa using hdepth)
  rw [grow_nil rfl] at hrun
  unfold parseNcxDocument
  rw [XmlLimits.checkXmlBytes, if_pos hlen]
  change (parseNodes (NcxState.step limits reader) doc {} >>= fun st => .ok st.roots) = _
  rw [hrun]
  change Except.ok ([] ++ kept reader doc) = _
  rw [List.nil_append, kept_eq_entries reader doc hclosed hhidden]

end Entries

/-! ## How many entries the parser is left with -/

/-- How many entries the parser keeps of nodes whose points all have closing tags. -/
def keptCount : XmlNodes → ℕ
  | .nil => 0
  | .element name _ children rest =>
    (if localName name = "navPoint" then
        if dangerous children = true then 0 else keptCount children + 1
      else keptCount children) + keptCount rest
  | .selfClosing _ _ rest | .text _ rest | .cdata _ rest | .other rest => keptCount rest

lemma selfClosed_le_permitted (nodes : XmlNodes) : selfClosed nodes ≤ permitted nodes := by
  induction nodes with
  | nil => exact le_rfl
  | element name attrs children rest ihchildren ihrest =>
    rw [selfClosed, permitted]
    omega
  | selfClosing name attrs rest ih =>
    rw [selfClosed, permitted]
    omega
  | text content rest ih => exact ih
  | cdata content rest ih => exact ih
  | other rest ih => exact ih

lemma keptCount_le_permitted (nodes : XmlNodes) : keptCount nodes ≤ permitted nodes := by
  induction nodes with
  | nil => exact le_rfl
  | element name attrs children rest ihchildren ihrest =>
    rw [keptCount, permitted]
    cases hdangerous : dangerous children <;> split_ifs <;> simp_all <;> omega
  | selfClosing name attrs rest ih =>
    rw [keptCount, permitted]
    omega
  | text content rest ih => exact ih
  | cdata content rest ih => exact ih
  | other rest ih => exact ih

/-- The parser that keeps as many entries as are permitted hides none. -/
lemma noneHidden_of_keptCount (nodes : XmlNodes) (h : keptCount nodes = permitted nodes) :
    noneHidden nodes = true := by
  induction nodes with
  | nil => rfl
  | element name attrs children rest ihchildren ihrest =>
    have hchildren := keptCount_le_permitted children
    have hrest := keptCount_le_permitted rest
    rw [keptCount, permitted] at h
    rw [noneHidden, Bool.and_eq_true]
    by_cases hpoint : localName name = "navPoint"
    · cases hdangerous : dangerous children with
      | true =>
        simp only [hpoint, hdangerous, if_true, true_and, Bool.true_eq_false, if_false] at h ⊢
        exact ⟨by rw [beq_iff_eq]; omega, ihrest (by omega)⟩
      | false =>
        simp only [hpoint, hdangerous, if_true, true_and, Bool.false_eq_true, if_false] at h ⊢
        exact ⟨ihchildren (by omega), ihrest (by omega)⟩
    · simp only [hpoint, if_false, false_and] at h ⊢
      exact ⟨ihchildren (by omega), ihrest (by omega)⟩
  | selfClosing name attrs rest ih =>
    have hrest := keptCount_le_permitted rest
    rw [keptCount, permitted] at h
    exact ih (by omega)
  | text content rest ih => exact ih h
  | cdata content rest ih => exact ih h
  | other rest ih => exact ih h

/-- The open points, each with the number of entries below it and whether it is dropped, and the
number of entries of the document. -/
structure Tally where
  stack : List (ℕ × Bool)
  total : ℕ

namespace Tally

/-- A target of the innermost point is read. -/
def mark (t : Tally) (danger : Bool) : Tally :=
  match t.stack with
  | (count, skip) :: stack => { t with stack := (count, skip || danger) :: stack }
  | [] => t

/-- The innermost point is complete. -/
def pop (t : Tally) : Tally :=
  match t.stack with
  | (count, skip) :: (count', skip') :: stack =>
    { t with stack := (if skip = true then count' else count' + (count + 1), skip') :: stack }
  | [(count, skip)] => ⟨[], if skip = true then t.total else t.total + (count + 1)⟩
  | [] => t

def step (t : Tally) : XmlEvent → Tally
  | .start name attrs | .empty name attrs =>
    if localName name = "navPoint" then { t with stack := (0, false) :: t.stack }
    else t.mark ((source (localName name) attrs).any isDangerousTocHref)
  | .close name => if localName name = "navPoint" then t.pop else t
  | _ => t

def run (nodes : XmlNodes) (t : Tally) : Tally := nodes.events.foldl step t

lemma step_close (t : Tally) (name : String) :
    t.step (.close name) = if localName name = "navPoint" then t.pop else t := rfl

lemma run_element (name : String) (attrs : Attributes) (children rest : XmlNodes) (t : Tally) :
    run (.element name attrs children rest) t =
      run rest ((run children (t.step (.start name attrs))).step (.close name)) := by
  simp only [run, XmlNodes.events, List.foldl_cons, List.foldl_append]

lemma run_selfClosing (name : String) (attrs : Attributes) (rest : XmlNodes) (t : Tally) :
    run (.selfClosing name attrs rest) t = run rest (t.step (.empty name attrs)) := rfl

/-- What an element other than a point counts. -/
lemma run_element_plain {name : String} (hpoint : localName name ≠ "navPoint") (attrs : Attributes)
    (children rest : XmlNodes) (t : Tally) :
    run (.element name attrs children rest) t =
      run rest (run children
        (t.mark ((source (localName name) attrs).any isDangerousTocHref))) := by
  rw [run_element, step_close, if_neg hpoint, step, if_neg hpoint]

/-- What a point counts. -/
lemma run_element_point {name : String} (hpoint : localName name = "navPoint") (attrs : Attributes)
    (children rest : XmlNodes) (t : Tally) :
    run (.element name attrs children rest) t =
      run rest (run children { t with stack := (0, false) :: t.stack }).pop := by
  rw [run_element, step_close, if_pos hpoint, step, if_pos hpoint]

lemma mark_false (t : Tally) : t.mark false = t := by
  obtain ⟨_ | ⟨⟨count, skip⟩, stack⟩, total⟩ := t
  · rfl
  · simp [mark]

lemma length_mark (t : Tally) (danger : Bool) : (t.mark danger).stack.length = t.stack.length := by
  obtain ⟨_ | ⟨⟨count, skip⟩, stack⟩, total⟩ := t <;> rfl

lemma total_mark (t : Tally) (danger : Bool) : (t.mark danger).total = t.total := by
  obtain ⟨_ | ⟨⟨count, skip⟩, stack⟩, total⟩ := t <;> rfl

lemma length_pop (t : Tally) : t.pop.stack.length = t.stack.length - 1 := by
  obtain ⟨_ | ⟨⟨count, skip⟩, _ | ⟨⟨count', skip'⟩, stack⟩⟩, total⟩ := t <;> rfl

lemma total_pop {t : Tally} (h : 1 < t.stack.length) : t.pop.total = t.total := by
  obtain ⟨_ | ⟨⟨count, skip⟩, _ | ⟨⟨count', skip'⟩, stack⟩⟩, total⟩ := t
  · rfl
  · simp at h
  · rfl

/-- Inside a point nothing is added to the document, and a point without a closing tag of its own
stays open. -/
lemma run_inside (nodes : XmlNodes) (t : Tally) (h : 0 < t.stack.length) :
    (run nodes t).total = t.total ∧
      (run nodes t).stack.length = t.stack.length + selfClosed nodes := by
  induction nodes generalizing t with
  | nil => exact ⟨rfl, rfl⟩
  | element name attrs children rest ihchildren ihrest =>
    by_cases hpoint : localName name = "navPoint"
    · rw [run_element_point hpoint, selfClosed]
      obtain ⟨htotal, hlength⟩ := ihchildren { t with stack := (0, false) :: t.stack }
        (Nat.succ_pos _)
      rw [List.length_cons] at hlength
      obtain ⟨htotal', hlength'⟩ := ihrest
        (run children { t with stack := (0, false) :: t.stack }).pop (by rw [length_pop]; omega)
      rw [total_pop (by omega)] at htotal'
      rw [length_pop] at hlength'
      exact ⟨htotal'.trans htotal, by omega⟩
    · rw [run_element_plain hpoint, selfClosed]
      obtain ⟨htotal, hlength⟩ := ihchildren
        (t.mark ((source (localName name) attrs).any isDangerousTocHref))
        (by rw [length_mark]; exact h)
      obtain ⟨htotal', hlength'⟩ := ihrest _ (by rw [hlength, length_mark]; omega)
      rw [length_mark] at hlength
      exact ⟨htotal'.trans (htotal.trans (total_mark _ _)), by omega⟩
  | selfClosing name attrs rest ih =>
    rw [run_selfClosing, selfClosed, step]
    split_ifs with hpoint
    · obtain ⟨htotal, hlength⟩ := ih { t with stack := (0, false) :: t.stack } (Nat.succ_pos _)
      rw [List.length_cons] at hlength
      exact ⟨htotal, by omega⟩
    · obtain ⟨htotal, hlength⟩ := ih
        (t.mark ((source (localName name) attrs).any isDangerousTocHref))
        (by rw [length_mark]; exact h)
      rw [length_mark] at hlength
      exact ⟨htotal.trans (total_mark _ _), by omega⟩
  | text content rest ih => exact ih t h
  | cdata content rest ih => exact ih t h
  | other rest ih => exact ih t h

/-- Add some entries to the innermost point, which a dangerous target drops, or to the document. -/
def add (t : Tally) (entries : ℕ) (danger : Bool) : Tally :=
  match t.stack with
  | (count, skip) :: stack => { t with stack := (count + entries, skip || danger) :: stack }
  | [] => { t with total := t.total + entries }

lemma add_zero (t : Tally) (danger : Bool) : t.add 0 danger = t.mark danger := by
  obtain ⟨_ | ⟨⟨count, skip⟩, stack⟩, total⟩ := t <;> rfl

lemma add_add (t : Tally) (entries entries' : ℕ) (danger danger' : Bool) :
    (t.add entries danger).add entries' danger' =
      t.add (entries + entries') (danger || danger') := by
  obtain ⟨_ | ⟨⟨count, skip⟩, stack⟩, total⟩ := t <;> simp [add, Nat.add_assoc, Bool.or_assoc]

lemma pop_add (t : Tally) (entries : ℕ) (danger : Bool) :
    (({ t with stack := (0, false) :: t.stack } : Tally).add entries danger).pop =
      t.add (if danger = true then 0 else entries + 1) false := by
  obtain ⟨_ | ⟨⟨count, skip⟩, stack⟩, total⟩ := t <;> cases danger <;> simp [add, pop]

/-- The nodes add the entries that the parser keeps. -/
lemma run_eq_add (nodes : XmlNodes) (hclosed : selfClosed nodes = 0) (t : Tally) :
    run nodes t = t.add (keptCount nodes) (dangerous nodes) := by
  induction nodes generalizing t with
  | nil => exact (t.mark_false.symm.trans (t.add_zero false).symm)
  | element name attrs children rest ihchildren ihrest =>
    simp only [selfClosed, Nat.add_eq_zero_iff] at hclosed
    by_cases hpoint : localName name = "navPoint"
    · rw [run_element_point hpoint, ihchildren hclosed.1, pop_add, ihrest hclosed.2, add_add]
      simp [keptCount, dangerous, sources, hpoint]
    · rw [run_element_plain hpoint, ihchildren hclosed.1, ihrest hclosed.2, ← add_zero, add_add,
        add_add]
      simp [keptCount, dangerous, sources, hpoint]
  | selfClosing name attrs rest ih =>
    simp only [selfClosed, Nat.add_eq_zero_iff] at hclosed
    have hpoint : localName name ≠ "navPoint" := by
      intro hpoint
      simp [hpoint] at hclosed
    rw [run_selfClosing, step, if_neg hpoint, ih hclosed.2, ← add_zero, add_add]
    simp [keptCount, dangerous, sources]
  | text content rest ih => exact ih hclosed t
  | cdata content rest ih => exact ih hclosed t
  | other rest ih => exact ih hclosed t

/-- After a point without a closing tag of its own the document gets no entry any more. -/
lemma run_selfClosed (nodes : XmlNodes) (hclosed : 0 < selfClosed nodes) (t : Tally)
    (hempty : t.stack = []) :
    0 < (run nodes t).stack.length ∧ (run nodes t).total < t.total + permitted nodes := by
  induction nodes generalizing t with
  | nil => simp [selfClosed] at hclosed
  | element name attrs children rest ihchildren ihrest =>
    have hkept := keptCount_le_permitted children
    have hrest : ∀ t' : Tally, 0 < t'.stack.length → t'.total < t.total + permitted children →
        0 < (run rest t').stack.length ∧ (run rest t').total < t.total + permitted
          (.element name attrs children rest) := by
      intro t' hopen htotal
      obtain ⟨htotal', hlength⟩ := run_inside rest t' hopen
      rw [permitted]
      omega
    rw [selfClosed] at hclosed
    by_cases hpoint : localName name = "navPoint"
    · rw [run_element_point hpoint]
      obtain ⟨htotal, hlength⟩ := run_inside children { t with stack := (0, false) :: t.stack }
        (Nat.succ_pos _)
      have hnone : t.stack.length = 0 := by rw [hempty, List.length_nil]
      rw [List.length_cons, hnone] at hlength
      by_cases hchildren : selfClosed children = 0
      · rw [run_eq_add children hchildren, pop_add]
        obtain ⟨hopen, hlt⟩ := ihrest (by omega)
          (t.add (if dangerous children = true then 0 else keptCount children + 1) false)
          (by simp [add, hempty])
        refine ⟨hopen, hlt.trans_le ?_⟩
        rw [permitted]
        cases hdangerous : dangerous children with
        | true => simp [add, hempty, hpoint]
        | false =>
          simp [add, hempty, hpoint]
          omega
      · have hpermitted := selfClosed_le_permitted children
        apply hrest
        · rw [length_pop]
          omega
        · rw [total_pop (by omega), htotal]
          simp only
          omega
    · rw [run_element_plain hpoint]
      have hmark : t.mark ((source (localName name) attrs).any isDangerousTocHref) = t := by
        simp [mark, hempty]
      rw [hmark]
      by_cases hchildren : selfClosed children = 0
      · rw [run_eq_add children hchildren]
        obtain ⟨hopen, hlt⟩ := ihrest (by omega) (t.add (keptCount children) (dangerous children))
          (by simp [add, hempty])
        refine ⟨hopen, hlt.trans_le ?_⟩
        rw [permitted]
        simp [add, hempty, hpoint]
        omega
      · obtain ⟨hopen, hlt⟩ := ihchildren (by omega) t hempty
        exact hrest _ hopen hlt
  | selfClosing name attrs rest ih =>
    rw [selfClosed] at hclosed
    rw [run_selfClosing, step, permitted]
    by_cases hpoint : localName name = "navPoint"
    · rw [if_pos hpoint, if_pos hpoint]
      obtain ⟨htotal, hlength⟩ := run_inside rest { t with stack := (0, false) :: t.stack }
        (Nat.succ_pos _)
      rw [List.length_cons] at hlength
      simp only at htotal
      omega
    · rw [if_neg hpoint] at hclosed ⊢
      have hmark : t.mark ((source (localName name) attrs).any isDangerousTocHref) = t := by
        simp [mark, hempty]
      rw [hmark, if_neg hpoint]
      obtain ⟨hopen, hlt⟩ := ih (by omega) t hempty
      omega
  | text content rest ih => exact ih hclosed t hempty
  | cdata content rest ih => exact ih hclosed t hempty
  | other rest ih => exact ih hclosed t hempty

end Tally

/-- What the parser has counted. -/
def tally (st : NcxState α) : Tally where
  stack := List.zip (st.openPoints.map fun point => (hrefsOf point.children).length) st.openSkips
  total := (hrefsOf st.roots).length

section Tally

variable {reader : LinkReader α} {limits : XmlLimits} {st st' : NcxState α}

lemma tally_openPoint (h : Parallel st) (hstep : st.openPoint limits reader = .ok st') :
    Parallel st' ∧ tally st' = { tally st with stack := (0, false) :: (tally st).stack } := by
  obtain ⟨_, _, hstep⟩ := bind_eq_ok hstep
  obtain rfl := Except.ok.inj hstep
  exact ⟨h.opened reader, rfl⟩

lemma tally_grow (h : Parallel st) (sources : List String) :
    tally (grow reader st ⟨[], sources, []⟩) =
      (tally st).mark (sources.any isDangerousTocHref) := by
  obtain ⟨roots, _ | ⟨point, points⟩, _ | ⟨skip, skips⟩, textBuf, inNavLabel⟩ := st
  · simp [grow, tally, Tally.mark]
  · simp [Parallel] at h
  · simp [Parallel] at h
  · simp [grow, tally, Tally.mark]

lemma tally_closeLabel : Parallel st.closeLabel = Parallel st ∧ tally st.closeLabel = tally st := by
  obtain ⟨roots, _ | ⟨point, points⟩, skips, textBuf, inNavLabel⟩ := st <;> exact ⟨rfl, rfl⟩

lemma tally_closePoint (h : Parallel st) :
    Parallel st.closePoint ∧ tally st.closePoint = (tally st).pop := by
  obtain ⟨roots, _ | ⟨⟨label, href, children⟩, _ | ⟨parent, points⟩⟩,
    _ | ⟨_ | _, _ | ⟨skip, skips⟩⟩, textBuf, inNavLabel⟩ := st
  all_goals first
    | (simp [Parallel] at h; done)
    | simp_all [Parallel, NcxState.closePoint, tally, Tally.pop, length_hrefsOf_append, hrefsOf,
        TocItem.hrefs]

/-- One event of the parser. -/
lemma tally_step (h : Parallel st) {event : XmlEvent}
    (hstep : NcxState.step limits reader st event = .ok st') :
    Parallel st' ∧ tally st' = (tally st).step event := by
  have hstart : ∀ name attrs, st.start limits reader (localName name) attrs = .ok st' →
      Parallel st' ∧ tally st' = (tally st).step (.start name attrs) := by
    intro name attrs hstart
    by_cases hpoint : localName name = "navPoint"
    · rw [hpoint, NcxState.start, if_pos rfl] at hstart
      rw [Tally.step, if_pos hpoint]
      exact tally_openPoint h hstart
    rw [Tally.step, if_neg hpoint]
    by_cases hlabel : localName name = "navLabel"
    · obtain rfl : { st with inNavLabel := true } = st' := by
        simpa [NcxState.start, hlabel] using hstart
      refine ⟨h, ?_⟩
      rw [hlabel, source, if_neg (by decide), List.any_nil, Tally.mark_false]
      rfl
    · rw [start_plain h hpoint hlabel] at hstart
      obtain rfl := Except.ok.inj hstart
      exact ⟨h.grow _, tally_grow h _⟩
  cases event with
  | start name attrs => exact hstart name attrs hstep
  | empty name attrs => exact hstart name attrs hstep
  | text content =>
    obtain rfl := Except.ok.inj hstep
    unfold NcxState.text
    split_ifs <;> exact ⟨h, rfl⟩
  | close name =>
    obtain rfl := Except.ok.inj hstep
    rw [Tally.step_close, NcxState.close]
    by_cases hlabel : localName name = "navLabel"
    · simpa [hlabel, tally_closeLabel] using h
    · rw [if_neg hlabel]
      split_ifs
      · exact tally_closePoint h
      · exact ⟨h, rfl⟩
  | other =>
    obtain rfl := Except.ok.inj hstep
    exact ⟨h, rfl⟩
  | error message => cases hstep

/-- The events of a document. -/
lemma tally_foldlM {events : List XmlEvent} (h : Parallel st)
    (hrun : events.foldlM (NcxState.step limits reader) st = .ok st') :
    tally st' = events.foldl Tally.step (tally st) := by
  induction events generalizing st with
  | nil =>
    obtain rfl := Except.ok.inj hrun
    rfl
  | cons event events ih =>
    obtain ⟨next, hstep, hrun⟩ := bind_eq_ok hrun
    obtain ⟨hparallel, htally⟩ := tally_step h hstep
    rw [List.foldl_cons, ← htally]
    exact ih hparallel hrun

/-- **A document that is parsed to its entries** closes every point by a tag of its own and hides
no entry below a point that is dropped. -/
theorem of_parseNcxDocument {len : ℕ} {doc : XmlNodes}
    (h : parseNcxDocument limits reader len doc.events = .ok (entries reader doc)) :
    selfClosed doc = 0 ∧ noneHidden doc = true := by
  obtain ⟨_, _, h⟩ := bind_eq_ok h
  obtain ⟨st, hrun, h⟩ := bind_eq_ok h
  have hroots : st.roots = entries reader doc := Except.ok.inj h
  have htotal : (Tally.run doc ⟨[], 0⟩).total = permitted doc := by
    have htally := congrArg Tally.total (@tally_foldlM α reader limits {} st doc.events rfl hrun)
    rw [← length_hrefsOf_entries reader doc, ← hroots]
    exact htally.symm
  have hclosed : selfClosed doc = 0 := by
    by_contra hclosed
    have hlt := (Tally.run_selfClosed doc (by omega) ⟨[], 0⟩ rfl).2
    simp only at hlt
    omega
  refine ⟨hclosed, noneHidden_of_keptCount doc ?_⟩
  rw [← htotal, Tally.run_eq_add doc hclosed]
  simp [Tally.add]

end Tally

end Ncx

end Epub

end TuxBooks
