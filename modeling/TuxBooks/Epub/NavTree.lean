import TuxBooks.Epub.Contents
import TuxBooks.Epub.XmlTree

set_option relaxedAutoImplicit false
set_option autoImplicit false

/-!
# The tree of a navigation document

What a navigation document lists, read off its tree, and the stack machine of `parse_nav_document`
that goes through its events. Every `li` of a `nav` is an entry unless its own link is dangerous;
what stands below such an item belongs to the nearest entry around it. The label and the link of an
entry are those of the first `a` or `span` in it.

## Main definitions

* `TuxBooks.Epub.Nav.entries`, `TuxBooks.Epub.Nav.contents` — the entries of some nodes, and those
  of a document.
* `TuxBooks.Epub.Nav.regular` — what the parser asks of the nodes of a `nav`.
* `TuxBooks.Epub.Nav.Reached` — what a list of nodes does to the innermost open element.

## Main results

* `TuxBooks.Epub.Nav.parseNodes_reached` — regular nodes add their entries to the element that they
  are in.
* `TuxBooks.Epub.Nav.parseNavDocument_contents` — a regular document is parsed to its entries.
-/

namespace TuxBooks

namespace Epub

namespace Nav

variable {α : Type}

/-! ## What a document lists -/

/-- What holds the label of an entry. -/
def isHeading (name : String) : Bool := name = "a" || name = "span"

/-- What the parser keeps open. -/
def isScope (name : String) : Bool := name = "nav" || name = "ol" || name = "li"

/-- The label element of the entry that the nodes are in. -/
def labelElement : XmlNodes → Option (String × Attributes × XmlNodes)
  | .nil => none
  | .element name attrs children rest =>
    (if isHeading (localName name) = true then some (localName name, attrs, children)
      else if isScope (localName name) = true then none
      else labelElement children).or (labelElement rest)
  | .selfClosing name attrs rest =>
    (if isHeading (localName name) = true then some (localName name, attrs, .nil) else none).or
      (labelElement rest)
  | .text _ rest | .cdata _ rest | .other rest => labelElement rest

/-- The link of a label element. -/
def link (label : String × Attributes × XmlNodes) : Option String :=
  if label.1 = "a" then attributeValue label.2.1 "href" else none

/-- An entry with this content links to a dangerous scheme. -/
def dangerous (children : XmlNodes) : Bool :=
  ((labelElement children).bind link).any isDangerousTocHref

/-- The item with the label and the link that its content gives it. -/
def labelled (reader : LinkReader α) (children : XmlNodes) (item : TocItem α) : TocItem α :=
  match labelElement children with
  | none => item
  | some label =>
    ⟨trim label.2.2.wholeText, (link label).elim item.href reader.resolve, item.children⟩

/-- The entries of the nodes, each with the entries below it. A `nav` lists entries of its own. -/
def entries (reader : LinkReader α) : XmlNodes → List (TocItem α)
  | .nil => []
  | .element name _ children rest =>
    (if localName name = "nav" then []
      else if localName name = "li" ∧ dangerous children = false then
        [labelled reader children ⟨"", reader.unset, entries reader children⟩]
      else entries reader children) ++ entries reader rest
  | .selfClosing name _ rest =>
    (if localName name = "li" then [⟨"", reader.unset, []⟩] else []) ++ entries reader rest
  | .text _ rest | .cdata _ rest | .other rest => entries reader rest

/-- The `nav` elements, each with what it lists and whether it is the table of contents. -/
def navs (reader : LinkReader α) : XmlNodes → List (Bool × List (TocItem α))
  | .nil => []
  | .element name attrs children rest =>
    (if localName name = "nav" then [(isTocNav attrs, entries reader children)] else []) ++
      (navs reader children ++ navs reader rest)
  | .selfClosing _ _ rest | .text _ rest | .cdata _ rest | .other rest => navs reader rest

/-- The typed `nav` that lists anything, or else the first one that does. -/
def contents (reader : LinkReader α) (doc : XmlNodes) : List (TocItem α) :=
  (((navs reader doc).find? fun nav => nav.1 && !nav.2.isEmpty).or
    ((navs reader doc).find? fun nav => !nav.2.isEmpty)).elim [] Prod.snd

/-! ## What the parser asks of a document -/

/-- How many items have no dangerous link. -/
def permitted : XmlNodes → ℕ
  | .nil => 0
  | .element name _ children rest =>
    (if localName name = "nav" then 0
      else if localName name = "li" ∧ dangerous children = false then permitted children + 1
      else permitted children) + permitted rest
  | .selfClosing name _ rest => (if localName name = "li" then 1 else 0) + permitted rest
  | .text _ rest | .cdata _ rest | .other rest => permitted rest

/-- A heading is among the nodes or in them. -/
def hasHeading : XmlNodes → Bool
  | .nil => false
  | .element name _ children rest =>
    isHeading (localName name) || hasHeading children || hasHeading rest
  | .selfClosing _ _ rest | .text _ rest | .cdata _ rest | .other rest => hasHeading rest

/-- Content of a label without lists, items and links, and without CDATA sections. -/
def plainContent : XmlNodes → Bool
  | .nil => true
  | .element name _ children rest =>
    !isScope (localName name) && localName name ≠ "a" && plainContent children && plainContent rest
  | .selfClosing name _ rest => localName name ≠ "li" && plainContent rest
  | .cdata content rest => content = "" && plainContent rest
  | .text _ rest | .other rest => plainContent rest

/-- Only blank text stands beside a heading in a label. -/
def uncut : XmlNodes → Bool
  | .nil => true
  | .element name _ children rest =>
    if (isHeading (localName name) || hasHeading children) = true then
      uncut children && isBlank rest.wholeText
    else (!hasHeading rest || isBlank children.wholeText) && uncut rest
  | .text content rest => (!hasHeading rest || isBlank (content.getD "")) && uncut rest
  | .selfClosing _ _ rest | .cdata _ rest | .other rest => uncut rest

/-- The innermost open element: a `nav`, a list, or an entry that may have a label and may have
entries below it. -/
inductive Within where
  | nav
  | list
  | entry (labelled listed : Bool)
  deriving DecidableEq

namespace Within

/-- The element takes the entries of a list in it. -/
def takes : Within → Bool
  | nav => true
  | list => false
  | entry _ listed => !listed

/-- The element is an entry without a label. -/
def unlabelled : Within → Bool
  | entry false _ => true
  | _ => false

/-- The element after some of its content. -/
def after (nodes : XmlNodes) : Within → Within
  | entry labelled listed =>
    entry (labelled || (labelElement nodes).isSome) (listed || permitted nodes != 0)
  | within => within

end Within

/-- The content of a `nav`, a list or an entry that the parser follows: items stand in lists, each
list that lists anything in the `nav` or in an entry of its own, no label is cut, and nothing is
listed below a dangerous link. -/
def regular : Within → XmlNodes → Bool
  | _, .nil => true
  | within, .element name attrs children rest =>
    (if localName name = "nav" then false
      else if localName name = "ol" then
        regular .list children && (within.takes || permitted children == 0)
      else if localName name = "li" then
        within == .list && regular (.entry false false) children &&
          (!dangerous children || permitted children == 0)
      else if (isHeading (localName name) && within.unlabelled) = true then
        plainContent children && uncut children
      else regular within children) &&
      regular (within.after (.element name attrs children .nil)) rest
  | within, .selfClosing name _ rest =>
    localName name ≠ "li" && !(isHeading (localName name) && within.unlabelled) &&
      regular within rest
  | within, .text _ rest | within, .cdata _ rest | within, .other rest => regular within rest

/-- Every `nav` of the document has such content. -/
def regularNavs : XmlNodes → Bool
  | .nil => true
  | .element name _ children rest =>
    (if localName name = "nav" then regular .nav children else regularNavs children) &&
      regularNavs rest
  | .selfClosing _ _ rest | .text _ rest | .cdata _ rest | .other rest => regularNavs rest

/-! ## Labels -/

section Label

variable {reader : LinkReader α} {limits : XmlLimits} {st : NavState α} {stack : List (Scope α)}
  {item : TocItem α} {skip : Bool}

lemma step_start (name : String) (attrs : Attributes) :
    NavState.step limits reader st (.start name attrs) =
      st.start limits reader (localName name) attrs := rfl

lemma step_close (name : String) :
    NavState.step limits reader st (.close name) = .ok (st.close (localName name)) := rfl

lemma step_empty (name : String) (attrs : Attributes) :
    NavState.step limits reader st (.empty name attrs) = .ok st := rfl

/-- Elements that the parser keeps open and headings apart, nothing happens. -/
lemma start_other {name : String} (hscope : isScope name = false) (hheading : isHeading name = false)
    (attrs : Attributes) : st.start limits reader name attrs = .ok st := by
  simp only [isScope, isHeading, Bool.or_eq_false_iff, decide_eq_false_iff_not] at hscope hheading
  simp [NavState.start, hscope, hheading]

lemma close_other {name : String} (hscope : isScope name = false)
    (hheading : isHeading name = false) : st.close name = st := by
  simp only [isScope, isHeading, Bool.or_eq_false_iff, decide_eq_false_iff_not] at hscope hheading
  simp [NavState.close, hscope, hheading]

lemma start_heading {name : String} (hheading : isHeading name = true) (attrs : Attributes) :
    st.start limits reader name attrs = .ok (st.startLabel reader name attrs) := by
  simp only [isHeading, Bool.or_eq_true, decide_eq_true_eq] at hheading
  obtain rfl | rfl := hheading <;> simp [NavState.start]

lemma close_heading {name : String} (hheading : isHeading name = true) :
    st.close name = st.closeLabel := by
  simp only [isHeading, Bool.or_eq_true, decide_eq_true_eq] at hheading
  obtain rfl | rfl := hheading <;> simp [NavState.close]

/-- After its label a heading changes nothing in an entry. -/
lemma startLabel_labelled (hst : st.stack = .li item true skip :: stack) (name : String)
    (attrs : Attributes) : st.startLabel reader name attrs = { st with textBuf := "" } := by
  unfold NavState.startLabel NavState.openLink
  rw [hst]
  split_ifs
  · cases attributeValue attrs "href" <;> rfl
  · rfl

/-- A heading that has no link opens. -/
lemma startLabel_of_ne {name : String} (hlink : name ≠ "a")
    (hst : st.stack = .li item false skip :: stack) (attrs : Attributes) :
    st.startLabel reader name attrs = { st with textBuf := "" } := by
  unfold NavState.startLabel
  rw [hst]
  simp only [if_neg hlink, ← hst]

lemma closeLabel_labelled (hst : st.stack = .li item true skip :: stack) :
    st.closeLabel = { st with textBuf := "" } := by
  unfold NavState.closeLabel
  rw [hst]
  rfl

/-- After its label an entry only forgets the text that was gathered. -/
lemma parseNodes_labelled (nodes : XmlNodes) (hplain : plainContent nodes = true)
    (hst : st.stack = .li item true skip :: stack) :
    ∃ textBuf, parseNodes (NavState.step limits reader) nodes st =
      .ok { st with textBuf := textBuf } := by
  induction nodes generalizing st with
  | nil => exact ⟨st.textBuf, rfl⟩
  | element name attrs children rest ihchildren ihrest =>
    simp only [plainContent, Bool.and_eq_true, Bool.not_eq_true'] at hplain
    obtain ⟨⟨⟨hscope, -⟩, hchildren⟩, hrest⟩ := hplain
    rw [parseNodes_element, step_start]
    by_cases hheading : isHeading (localName name) = true
    · rw [start_heading hheading, startLabel_labelled hst]
      obtain ⟨textBuf, hrun⟩ := @ihchildren { st with textBuf := "" } hchildren hst
      have hlabelled : ({ st with textBuf := textBuf } : NavState α).stack =
          .li item true skip :: stack := hst
      change ∃ textBuf, (parseNodes _ children { st with textBuf := "" } >>= _) = _
      rw [hrun]
      change ∃ textBuf', parseNodes _ rest
        (NavState.close { st with textBuf := textBuf } (localName name)) = _
      rw [close_heading hheading, closeLabel_labelled hlabelled]
      exact @ihrest { st with textBuf := "" } hrest hst
    · rw [Bool.not_eq_true] at hheading
      rw [start_other hscope hheading]
      obtain ⟨textBuf, hrun⟩ := ihchildren hchildren hst
      change ∃ textBuf, (parseNodes _ children st >>= _) = _
      rw [hrun]
      change ∃ textBuf', parseNodes _ rest
        (NavState.close { st with textBuf := textBuf } (localName name)) = _
      rw [close_other hscope hheading]
      exact @ihrest { st with textBuf := textBuf } hrest hst
  | selfClosing name attrs rest ih =>
    simp only [plainContent, Bool.and_eq_true] at hplain
    exact ih hplain.2 hst
  | text content rest ih =>
    have htext : st.text content = st := by simp [NavState.text, hst]
    rw [parseNodes_text]
    change ∃ textBuf, parseNodes _ rest (st.text content) = _
    rw [htext]
    exact ih hplain hst
  | cdata content rest ih =>
    simp only [plainContent, Bool.and_eq_true] at hplain
    exact ih hplain.2 hst
  | other rest ih => exact ih hplain hst

/-- The heading that a label is in closes. -/
lemma closeLabel_unlabelled (hst : st.stack = .li item false skip :: stack) :
    st.closeLabel = { st with
      stack := .li { item with label := trim st.textBuf } true skip :: stack
      textBuf := "" } := by
  unfold NavState.closeLabel
  rw [hst]
  rfl

lemma uncut_of_hasHeading {nodes : XmlNodes} (h : hasHeading nodes = false) :
    uncut nodes = true := by
  induction nodes with
  | nil => rfl
  | element name attrs children rest _ ihrest =>
    simp only [hasHeading, Bool.or_eq_false_iff] at h
    simp [uncut, h, ihrest h.2]
  | selfClosing name attrs rest ih => exact ih h
  | text content rest ih =>
    have hrest : hasHeading rest = false := h
    simp [uncut, hrest, ih hrest]
  | cdata content rest ih => exact ih h
  | other rest ih => exact ih h

/-- The label of an entry is the text of its element, when no heading in it cuts the text. -/
lemma parseNodes_label (nodes : XmlNodes) (hplain : plainContent nodes = true)
    (huncut : uncut nodes = true) (hst : st.stack = .li item false skip :: stack) :
    (hasHeading nodes = false →
      parseNodes (NavState.step limits reader) nodes st =
        .ok { st with textBuf := st.textBuf ++ nodes.wholeText }) ∧
    (hasHeading nodes = true → ∃ textBuf,
      parseNodes (NavState.step limits reader) nodes st =
        .ok { st with
          stack := .li { item with label := trim nodes.wholeText } true skip :: stack
          textBuf := textBuf }) := by
  induction nodes generalizing st with
  | nil =>
    refine ⟨fun _ => ?_, fun h => by simp [hasHeading] at h⟩
    rw [parseNodes_nil, XmlNodes.wholeText, String.append_empty]
  | element name attrs children rest ihchildren ihrest =>
    simp only [plainContent, Bool.and_eq_true, Bool.not_eq_true', decide_eq_true_eq] at hplain
    obtain ⟨⟨⟨hscope, hlink⟩, hchildren⟩, hrest⟩ := hplain
    -- once the label is complete, only blank text follows
    have hafter : uncut children = true → isBlank rest.wholeText = true → ∀ textBuf, ∃ textBuf',
        parseNodes (NavState.step limits reader) rest
            { st with
              stack := .li { item with label := trim children.wholeText } true skip :: stack
              textBuf := textBuf } =
          .ok { st with
            stack := .li { item with label := trim (children.wholeText ++ rest.wholeText) } true
              skip :: stack
            textBuf := textBuf' } := by
      intro _ hblank textBuf
      rw [trim_append_of_blank_right hblank]
      exact @parseNodes_labelled α reader limits { st with
        stack := .li { item with label := trim children.wholeText } true skip :: stack
        textBuf := textBuf } stack _ skip rest hrest rfl
    rw [parseNodes_element, step_start]
    rw [uncut] at huncut
    by_cases hheading : isHeading (localName name) = true
    · simp only [hheading, Bool.true_or, if_true, Bool.and_eq_true] at huncut
      refine ⟨fun h => by simp [hasHeading, hheading] at h, fun _ => ?_⟩
      rw [start_heading hheading, startLabel_of_ne hlink hst]
      obtain ⟨hwithout, hwith⟩ := @ihchildren { st with textBuf := "" } hchildren huncut.1 hst
      change ∃ textBuf, (parseNodes _ children { st with textBuf := "" } >>= _) = _
      cases hnested : hasHeading children with
      | true =>
        obtain ⟨textBuf, hrun⟩ := hwith hnested
        rw [hrun]
        change ∃ textBuf', parseNodes _ rest (NavState.close _ (localName name)) = _
        rw [close_heading hheading, closeLabel_labelled rfl]
        exact hafter huncut.1 huncut.2 ""
      | false =>
        rw [hwithout hnested]
        have hopen : ({ st with textBuf := "" ++ children.wholeText } : NavState α).stack =
            .li item false skip :: stack := hst
        change ∃ textBuf', parseNodes _ rest
          (NavState.close { st with textBuf := "" ++ children.wholeText } (localName name)) = _
        rw [close_heading hheading, closeLabel_unlabelled hopen]
        simp only [String.empty_append]
        exact hafter huncut.1 huncut.2 ""
    · rw [Bool.not_eq_true] at hheading
      rw [start_other hscope hheading]
      change (_ → (parseNodes _ children st >>= _) = _) ∧
        (_ → ∃ textBuf, (parseNodes _ children st >>= _) = _)
      simp only [hheading, Bool.false_or] at huncut
      cases hnested : hasHeading children with
      | true =>
        rw [hnested, if_pos rfl, Bool.and_eq_true] at huncut
        refine ⟨fun h => by simp [hasHeading, hnested] at h, fun _ => ?_⟩
        obtain ⟨textBuf, hrun⟩ := (ihchildren hchildren huncut.1 hst).2 hnested
        rw [hrun]
        change ∃ textBuf', parseNodes _ rest (NavState.close _ (localName name)) = _
        rw [close_other hscope hheading]
        exact hafter huncut.1 huncut.2 textBuf
      | false =>
        simp only [hnested, Bool.false_eq_true, if_false, Bool.and_eq_true, Bool.or_eq_true,
          Bool.not_eq_true'] at huncut
        rw [(ihchildren hchildren (uncut_of_hasHeading hnested) hst).1 hnested]
        change (_ → parseNodes _ rest (NavState.close _ (localName name)) = _) ∧
          (_ → ∃ textBuf, parseNodes _ rest (NavState.close _ (localName name)) = _)
        rw [close_other hscope hheading]
        obtain ⟨hwithout, hwith⟩ :=
          @ihrest { st with textBuf := st.textBuf ++ children.wholeText } hrest huncut.2 hst
        have hlater : hasHeading (.element name attrs children rest) = hasHeading rest := by
          simp [hasHeading, hheading, hnested]
        rw [hlater]
        refine ⟨fun hlast => ?_, fun hmore => ?_⟩
        · rw [hwithout hlast, XmlNodes.wholeText, String.append_assoc]
        · obtain ⟨textBuf, hrun⟩ := hwith hmore
          have hblank : isBlank children.wholeText = true := by simpa [hmore] using huncut.1
          exact ⟨textBuf, by rw [hrun, XmlNodes.wholeText, trim_append_of_blank_left hblank]⟩
  | selfClosing name attrs rest ih =>
    simp only [plainContent, Bool.and_eq_true] at hplain
    exact ih hplain.2 huncut hst
  | text content rest ih =>
    simp only [uncut, Bool.and_eq_true, Bool.or_eq_true, Bool.not_eq_true'] at huncut
    have htext : st.text content = { st with textBuf := st.textBuf ++ content.getD "" } := by
      simp [NavState.text, hst]
    rw [parseNodes_text]
    change (_ → parseNodes _ rest (st.text content) = _) ∧
      (_ → ∃ textBuf, parseNodes _ rest (st.text content) = _)
    rw [htext]
    obtain ⟨hwithout, hwith⟩ := @ih { st with textBuf := st.textBuf ++ content.getD "" }
      hplain huncut.2 hst
    refine ⟨fun hheading => ?_, fun hheading => ?_⟩
    · rw [hwithout hheading, XmlNodes.wholeText, String.append_assoc]
    · obtain ⟨textBuf, hrun⟩ := hwith hheading
      have hblank : isBlank (content.getD "") = true := by
        have hrest : hasHeading rest = true := hheading
        simpa [hrest] using huncut.1
      exact ⟨textBuf, by rw [hrun, XmlNodes.wholeText, trim_append_of_blank_left hblank]⟩
  | cdata content rest ih =>
    simp only [plainContent, Bool.and_eq_true, decide_eq_true_eq] at hplain
    obtain ⟨rfl, hrest⟩ := hplain
    have htext : (XmlNodes.cdata "" rest).wholeText = rest.wholeText := by
      simp [XmlNodes.wholeText]
    rw [htext]
    exact ih hrest huncut hst
  | other rest ih => exact ih hplain huncut hst

/-- The element of a label closes: the label is the whole text of the element. -/
lemma closeLabel_label (nodes : XmlNodes) (hplain : plainContent nodes = true)
    (huncut : uncut nodes = true) (hst : st.stack = .li item false skip :: stack)
    (hbuf : st.textBuf = "") :
    ∃ st', parseNodes (NavState.step limits reader) nodes st = .ok st' ∧
      st'.closeLabel.stack = .li { item with label := trim nodes.wholeText } true skip :: stack ∧
      st'.closeLabel.finished = st.finished := by
  obtain ⟨hwithout, hwith⟩ := @parseNodes_label α reader limits st stack item skip nodes hplain
    huncut hst
  cases hnested : hasHeading nodes with
  | true =>
    obtain ⟨textBuf, hrun⟩ := hwith hnested
    refine ⟨_, hrun, ?_, ?_⟩ <;> rw [closeLabel_labelled rfl]
  | false =>
    have hopen : ({ st with textBuf := st.textBuf ++ nodes.wholeText } : NavState α).stack =
        .li item false skip :: stack := hst
    refine ⟨_, hwithout hnested, ?_, ?_⟩ <;> rw [closeLabel_unlabelled hopen]
    simp [hbuf]

end Label

/-! ## The parser goes through the nodes -/

/-- The innermost open element of the parser. An entry that is dropped may hold anything. -/
def Fits : Within → Scope α → Prop
  | .nav, .nav _ _ => True
  | .list, .ol _ => True
  | .entry done listed, .li item labelDone skip =>
    labelDone = done ∧ (skip = false → listed = false → item.children = [])
  | _, _ => False

section Reached

variable (reader : LinkReader α)

/-- An entry after some of its content. -/
def grown (nodes : XmlNodes) (labelDone : Bool) (item : TocItem α) : TocItem α :=
  let named := if labelDone = true then item else labelled reader nodes item
  { named with children := named.children ++ entries reader nodes }

/-- What the nodes make of the open element that they are in. -/
def Reached (nodes : XmlNodes) : Scope α → Scope α → Prop
  | .nav isToc items, scope => scope = .nav isToc (items ++ entries reader nodes)
  | .ol items, scope => scope = .ol (items ++ entries reader nodes)
  | .li item labelDone skip, scope => ∃ item',
    scope = .li item' (labelDone || (labelElement nodes).isSome)
      (skip || (!labelDone && dangerous nodes)) ∧
    ((skip || (!labelDone && dangerous nodes)) = false → item' = grown reader nodes labelDone item)

variable {reader}

/-- Nodes that list nothing and hold no label change nothing. -/
lemma Reached.refl {nodes : XmlNodes} (hentries : entries reader nodes = [])
    (hlabel : labelElement nodes = none) (scope : Scope α) : Reached reader nodes scope scope := by
  cases scope with
  | nav isToc items => simp [Reached, hentries]
  | ol items => simp [Reached, hentries]
  | li item labelDone skip =>
    obtain ⟨label, href, children⟩ := item
    refine ⟨_, ?_, fun _ => rfl⟩
    simp [dangerous, grown, labelled, hentries, hlabel]

/-- Nodes after each other. -/
lemma Reached.trans {first rest whole : XmlNodes} {scope scope' scope'' : Scope α}
    (hentries : entries reader whole = entries reader first ++ entries reader rest)
    (hlabel : labelElement whole = (labelElement first).or (labelElement rest))
    (hfirst : Reached reader first scope scope') (hrest : Reached reader rest scope' scope'') :
    Reached reader whole scope scope'' := by
  cases scope with
  | nav isToc items =>
    obtain rfl : scope' = _ := hfirst
    obtain rfl : scope'' = _ := hrest
    simp [Reached, hentries]
  | ol items =>
    obtain rfl : scope' = _ := hfirst
    obtain rfl : scope'' = _ := hrest
    simp [Reached, hentries]
  | li item labelDone skip =>
    obtain ⟨item', rfl, hitem'⟩ := hfirst
    obtain ⟨item'', rfl, hitem''⟩ := hrest
    cases hlabel₁ : labelElement first with
    | none =>
      refine ⟨item'', ?_, fun hskip => ?_⟩
      · simp [dangerous, hlabel, hlabel₁]
      · simp [dangerous, hlabel, hlabel₁] at hitem' hitem'' hskip
        rw [hitem'' hskip.1 hskip.2, hitem' hskip.1]
        cases hlabel₂ : labelElement rest <;> cases labelDone <;>
          simp [grown, labelled, hentries, hlabel, hlabel₁, hlabel₂]
    | some label =>
      refine ⟨item'', ?_, fun hskip => ?_⟩
      · simp [dangerous, hlabel, hlabel₁]
      · simp [dangerous, hlabel, hlabel₁] at hitem' hitem'' hskip
        rw [hitem'' hskip.1 hskip.2, hitem' hskip.1 hskip.2]
        cases labelDone <;> simp [grown, labelled, hentries, hlabel, hlabel₁]

/-- The parser goes through the nodes in an open element, and they make of it what they should. -/
def Follows (limits : XmlLimits) (reader : LinkReader α) (within : Within) (nodes : XmlNodes) :
    Prop :=
  ∀ (st : NavState α) (scope : Scope α) (stack : List (Scope α)), st.stack = scope :: stack →
    Fits within scope → stack.length + 1 + nodes.depth isScope ≤ limits.maxXmlDepth →
    ∃ st' scope', parseNodes (NavState.step limits reader) nodes st = .ok st' ∧
      st'.stack = scope' :: stack ∧ st'.finished = st.finished ∧ Reached reader nodes scope scope'

section Elements

variable {limits : XmlLimits} {within : Within} {name : String} {attrs : Attributes}
  {children rest : XmlNodes}

lemma labelElement_head (name : String) (attrs : Attributes) (children rest : XmlNodes) :
    labelElement (.element name attrs children rest) =
      (labelElement (.element name attrs children .nil)).or (labelElement rest) := by
  simp [labelElement]

lemma entries_head (reader : LinkReader α) (name : String) (attrs : Attributes)
    (children rest : XmlNodes) :
    entries reader (.element name attrs children rest) =
      entries reader (.element name attrs children .nil) ++ entries reader rest := by
  simp [entries]

lemma permitted_head (name : String) (attrs : Attributes) (children rest : XmlNodes) :
    permitted (.element name attrs children rest) =
      permitted (.element name attrs children .nil) + permitted rest := by
  simp [permitted]

/-- Nothing is listed where no item is permitted. -/
lemma entries_eq_nil_iff (reader : LinkReader α) (nodes : XmlNodes) :
    entries reader nodes = [] ↔ permitted nodes = 0 := by
  induction nodes with
  | nil => simp [entries, permitted]
  | element name attrs children rest ihchildren ihrest =>
    rw [entries, permitted, List.append_eq_nil_iff, Nat.add_eq_zero_iff, ihrest]
    split_ifs <;> simp [ihchildren]
  | selfClosing name attrs rest ih =>
    rw [entries, permitted, List.append_eq_nil_iff, Nat.add_eq_zero_iff, ih]
    split_ifs <;> simp
  | text content rest ih => exact ih
  | cdata content rest ih => exact ih
  | other rest ih => exact ih

lemma children_grown (nodes : XmlNodes) (labelDone : Bool) (item : TocItem α) :
    (grown reader nodes labelDone item).children = item.children ++ entries reader nodes := by
  unfold grown labelled
  cases labelDone <;> cases labelElement nodes <;> rfl

lemma grown_new (reader : LinkReader α) (nodes : XmlNodes) :
    grown reader nodes false ⟨"", reader.unset, []⟩ =
      labelled reader nodes ⟨"", reader.unset, entries reader nodes⟩ := by
  unfold grown labelled
  cases labelElement nodes <;> rfl

/-- A label holds no entry. -/
lemma entries_of_plainContent (reader : LinkReader α) {nodes : XmlNodes}
    (hplain : plainContent nodes = true) : entries reader nodes = [] := by
  induction nodes with
  | nil => rfl
  | element name attrs children rest ihchildren ihrest =>
    simp only [plainContent, Bool.and_eq_true, Bool.not_eq_true', isScope,
      Bool.or_eq_false_iff, decide_eq_false_iff_not] at hplain
    obtain ⟨⟨⟨⟨_, hitem⟩, -⟩, hchildren⟩, hrest⟩ := hplain
    simp [entries, hitem, ihchildren hchildren, ihrest hrest]
  | selfClosing name attrs rest ih =>
    simp only [plainContent, Bool.and_eq_true, decide_eq_true_eq] at hplain
    rw [entries, if_neg hplain.1, ih hplain.2, List.append_nil]
  | text content rest ih => exact ih hplain
  | cdata content rest ih =>
    simp only [plainContent, Bool.and_eq_true] at hplain
    exact ih hplain.2
  | other rest ih => exact ih hplain

/-- What an element is after some of its content fits what the parser has reached. -/
lemma Fits.after {nodes : XmlNodes} {scope scope' : Scope α} (hfits : Fits within scope)
    (hreached : Reached reader nodes scope scope') : Fits (within.after nodes) scope' := by
  cases within with
  | nav =>
    cases scope with
    | nav isToc items =>
      obtain rfl : scope' = _ := hreached
      trivial
    | ol items => exact hfits.elim
    | li item labelDone skip => exact hfits.elim
  | list =>
    cases scope with
    | ol items =>
      obtain rfl : scope' = _ := hreached
      trivial
    | nav isToc items => exact hfits.elim
    | li item labelDone skip => exact hfits.elim
  | entry done listed =>
    cases scope with
    | nav isToc items => exact hfits.elim
    | ol items => exact hfits.elim
    | li item labelDone skip =>
      obtain ⟨rfl, hchildren⟩ := hfits
      obtain ⟨item', rfl, hitem'⟩ := hreached
      refine ⟨rfl, fun hskip hlisted => ?_⟩
      rw [Bool.or_eq_false_iff, bne_eq_false_iff_eq] at hlisted
      rw [hitem' hskip, children_grown, (entries_eq_nil_iff reader nodes).mpr hlisted.2,
        List.append_nil]
      rw [Bool.or_eq_false_iff] at hskip
      exact hchildren hskip.1 hlisted.1

lemma depth_scope (hname : isScope (localName name) = true) :
    (XmlNodes.element name attrs children .nil).depth isScope = 1 + children.depth isScope := by
  simp [XmlNodes.depth, hname]

lemma push_ok {st : NavState α} (h : st.stack.length + 1 ≤ limits.maxXmlDepth) (scope : Scope α) :
    st.push limits scope = .ok { st with stack := scope :: st.stack } := by
  simp [NavState.push, XmlLimits.checkXmlDepth, h, bounded]

/-- An element is opened, its content is gone through, and it is closed. -/
lemma parseNodes_single {st st₁ st₂ : NavState α}
    (hstart : st.start limits reader (localName name) attrs = .ok st₁)
    (hrun : parseNodes (NavState.step limits reader) children st₁ = .ok st₂) :
    parseNodes (NavState.step limits reader) (.element name attrs children .nil) st =
      .ok (st₂.close (localName name)) := by
  rw [parseNodes_element, step_start, hstart]
  change (parseNodes _ children st₁ >>= _) = _
  rw [hrun]
  rfl

/-- A list in an element that takes its entries, or that lists nothing. -/
lemma follows_ol (hname : localName name = "ol") (hchildren : Follows limits reader .list children)
    (htakes : within.takes = true ∨ permitted children = 0) :
    Follows limits reader within (.element name attrs children .nil) := by
  intro st scope stack hst hfits hdepth
  rw [depth_scope (by simp [isScope, hname])] at hdepth
  have hlength : st.stack.length = stack.length + 1 := by rw [hst, List.length_cons]
  have hstart : st.start limits reader "ol" attrs =
      .ok { st with stack := .ol [] :: scope :: stack } := by
    rw [← hst, ← @push_ok α limits st (by omega) (.ol [])]
    simp [NavState.start, hst]
  obtain ⟨st', scope', hrun, hst', hfinished, hreached⟩ := hchildren
    { st with stack := .ol [] :: scope :: stack } (.ol []) (scope :: stack) rfl trivial
    (by rw [List.length_cons]; omega)
  obtain rfl : scope' = .ol (entries reader children) := hreached
  have hentries : entries reader (.element name attrs children .nil) = entries reader children := by
    simp [entries, hname]
  have hlabel : labelElement (.element name attrs children .nil) = none := by
    simp [labelElement, isHeading, isScope, hname]
  rw [← hname] at hstart
  rw [parseNodes_single hstart hrun, hname, NavState.close, if_neg (by decide), if_neg (by decide),
    if_pos rfl]
  refine ⟨st'.closeOl, ?_⟩
  unfold NavState.closeOl
  cases hlist : entries reader children with
  | nil =>
    rw [hlist] at hst' hentries
    refine ⟨scope, rfl, ?_, ?_, Reached.refl hentries hlabel scope⟩
    · rw [hst']
      rfl
    · rw [hst']
      exact hfinished
  | cons first items =>
    rw [hlist] at hst' hentries
    have hlisted : permitted children ≠ 0 := by
      rw [ne_eq, ← entries_eq_nil_iff reader children, hlist]
      exact List.cons_ne_nil first items
    have htakes : within.takes = true := htakes.resolve_right hlisted
    rw [hst']
    cases scope with
    | nav isToc navItems =>
      exact ⟨_, rfl, rfl, hfinished, by rw [Reached, hentries]⟩
    | ol items =>
      cases within with
      | nav => exact hfits.elim
      | list => cases htakes
      | entry done listed => exact hfits.elim
    | li item labelDone skip =>
      cases within with
      | nav => exact hfits.elim
      | list => exact hfits.elim
      | entry done listed =>
        obtain ⟨rfl, hnone⟩ := hfits
        have hlisted : listed = false := by simpa [Within.takes] using htakes
        cases skip with
        | true =>
          refine ⟨.li item labelDone true, rfl, rfl, hfinished, item, ?_, ?_⟩
          · simp [dangerous, hlabel]
          · simp
        | false =>
          refine ⟨.li { item with children := first :: items } labelDone false, rfl, rfl, hfinished,
            { item with children := first :: items }, ?_, fun _ => ?_⟩
          · simp [dangerous, hlabel]
          · cases labelDone <;>
              simp [grown, labelled, hlabel, hentries, hnone rfl hlisted]

/-- An item in a list. -/
lemma follows_li (hname : localName name = "li")
    (hchildren : Follows limits reader (.entry false false) children)
    (hhidden : dangerous children = false ∨ permitted children = 0) :
    Follows limits reader .list (.element name attrs children .nil) := by
  intro st scope stack hst hfits hdepth
  rw [depth_scope (by simp [isScope, hname])] at hdepth
  have hlength : st.stack.length = stack.length + 1 := by rw [hst, List.length_cons]
  cases scope with
  | nav isToc items => exact hfits.elim
  | li item labelDone skip => exact hfits.elim
  | ol items =>
    have hstart : st.start limits reader (localName name) attrs = .ok { st with
        stack := .li ⟨"", reader.unset, []⟩ false false :: .ol items :: stack } := by
      rw [← hst, ← @push_ok α limits st (by omega) (.li ⟨"", reader.unset, []⟩ false false)]
      simp [NavState.start, hst, hname]
    obtain ⟨st', scope', hrun, hst', hfinished, item', rfl, hitem'⟩ := hchildren
      { st with stack := .li ⟨"", reader.unset, []⟩ false false :: .ol items :: stack }
      (.li ⟨"", reader.unset, []⟩ false false) (.ol items :: stack) rfl ⟨rfl, fun _ _ => rfl⟩
      (by rw [List.length_cons]; omega)
    simp only [Bool.false_or, Bool.not_false, Bool.true_and] at hst' hitem'
    rw [parseNodes_single hstart hrun, hname, NavState.close, if_neg (by decide), if_pos rfl]
    refine ⟨st'.closeLi, .ol (items ++ entries reader (.element name attrs children .nil)), rfl, ?_,
      ?_, rfl⟩
    · unfold NavState.closeLi
      rw [hst']
      cases hdangerous : dangerous children with
      | true =>
        have hnone : entries reader children = [] :=
          (entries_eq_nil_iff reader children).mpr (hhidden.resolve_left (by simp [hdangerous]))
        simp [entries, hname, hdangerous, hnone]
      | false =>
        rw [hitem' hdangerous, grown_new]
        simp [entries, hname, hdangerous]
    · unfold NavState.closeLi
      rw [hst']
      cases dangerous children <;> exact hfinished

/-- The link of a label is read when its element opens. -/
lemma startLabel_unlabelled {st : NavState α} {stack : List (Scope α)} {item : TocItem α}
    {skip : Bool} (hst : st.stack = .li item false skip :: stack) (name : String)
    (attrs : Attributes) (children : XmlNodes) :
    ∃ href, st.startLabel reader name attrs = { st with
        stack := .li { item with href } false
          (skip || (link (name, attrs, children)).any isDangerousTocHref) :: stack
        textBuf := "" } ∧
      ((link (name, attrs, children)).any isDangerousTocHref = false →
        href = (link (name, attrs, children)).elim item.href reader.resolve) := by
  obtain ⟨label, target, below⟩ := item
  unfold NavState.startLabel NavState.openLink link
  rw [hst]
  by_cases hname : name = "a"
  · simp only [hname, if_true]
    cases attributeValue attrs "href" with
    | none => exact ⟨target, by simp, fun _ => rfl⟩
    | some href =>
      by_cases hdangerous : isDangerousTocHref href = true
      · exact ⟨target, by simp [hdangerous], by simp [hdangerous]⟩
      · exact ⟨reader.resolve href, by simp [hdangerous], by simp⟩
  · exact ⟨target, by simp [hname], by simp [hname]⟩

/-- The label of an entry. -/
lemma follows_label (hname : isHeading (localName name) = true)
    (hwithin : within.unlabelled = true) (hplain : plainContent children = true)
    (huncut : uncut children = true) :
    Follows limits reader within (.element name attrs children .nil) := by
  intro st scope stack hst hfits _
  obtain ⟨item, skip, rfl⟩ : ∃ item skip, scope = .li item false skip := by
    cases within with
    | nav => cases hwithin
    | list => cases hwithin
    | entry done listed =>
      cases scope with
      | nav isToc items => exact hfits.elim
      | ol items => exact hfits.elim
      | li item labelDone skip =>
        cases done with
        | true => cases hwithin
        | false => exact ⟨item, skip, by rw [hfits.1]⟩
  obtain ⟨href, hstart, hhref⟩ :=
    @startLabel_unlabelled α reader st stack item skip hst (localName name) attrs children
  obtain ⟨st', hrun, hst', hfinished⟩ := @closeLabel_label α reader limits
    { st with
      stack := .li { item with href } false
        (skip || (link (localName name, attrs, children)).any isDangerousTocHref) :: stack
      textBuf := "" } stack _ _ children hplain huncut rfl rfl
  have hopen := (@start_heading α reader limits st (localName name) hname attrs).trans
    (congrArg Except.ok hstart)
  have hlabel : labelElement (.element name attrs children .nil) =
      some (localName name, attrs, children) := by
    simp [labelElement, hname]
  have hentries : entries reader (.element name attrs children .nil) = [] := by
    have hnav : localName name ≠ "nav" := by
      intro hnav
      simp [isHeading, hnav] at hname
    have hitem : localName name ≠ "li" := by
      intro hitem
      simp [isHeading, hitem] at hname
    simp [entries, hnav, hitem, entries_of_plainContent reader hplain]
  rw [parseNodes_single hopen hrun, close_heading hname]
  refine ⟨_, _, rfl, hst', hfinished, ⟨trim children.wholeText, href, item.children⟩, ?_,
    fun hskip => ?_⟩
  · simp [hlabel, dangerous]
  · simp only [dangerous, hlabel, Option.bind_some, Bool.not_false, Bool.true_and,
      Bool.or_eq_false_iff] at hskip
    simp [grown, labelled, hlabel, hentries, hhref hskip.2]

/-- What is open but an entry without a label. -/
lemma Fits.labelled {scope : Scope α} (hfits : Fits within scope)
    (hwithin : within.unlabelled = false) :
    (∃ isToc items, scope = .nav isToc items) ∨ (∃ items, scope = .ol items) ∨
      ∃ item skip, scope = .li item true skip := by
  cases scope with
  | nav isToc items => exact .inl ⟨isToc, items, rfl⟩
  | ol items => exact .inr (.inl ⟨items, rfl⟩)
  | li item labelDone skip =>
    cases within with
    | nav => exact hfits.elim
    | list => exact hfits.elim
    | entry done listed =>
      cases done with
      | false => cases hwithin
      | true => exact .inr (.inr ⟨item, skip, by rw [hfits.1]⟩)

/-- A heading that is no label opens and closes. -/
lemma heading_labelled {st : NavState α} {scope : Scope α} {stack : List (Scope α)}
    (hst : st.stack = scope :: stack) (hfits : Fits within scope)
    (hwithin : within.unlabelled = false) (name : String) (attrs : Attributes) :
    ((st.startLabel reader name attrs).stack = scope :: stack ∧
      (st.startLabel reader name attrs).finished = st.finished) ∧
    st.closeLabel.stack = scope :: stack ∧ st.closeLabel.finished = st.finished := by
  obtain ⟨isToc, items, rfl⟩ | ⟨items, rfl⟩ | ⟨item, skip, rfl⟩ := hfits.labelled hwithin
  · simp [NavState.startLabel, NavState.closeLabel, hst]
  · simp [NavState.startLabel, NavState.closeLabel, hst]
  · rw [startLabel_labelled hst, closeLabel_labelled hst]
    exact ⟨⟨hst, rfl⟩, hst, rfl⟩

/-- Nodes that list the same make the same of the element around them, when their labels are the
same or the element needs none. -/
lemma Reached.congr {nodes nodes' : XmlNodes} {scope scope' : Scope α} (hfits : Fits within scope)
    (hentries : entries reader nodes' = entries reader nodes)
    (hlabel : labelElement nodes' = labelElement nodes ∨ within.unlabelled = false)
    (hreached : Reached reader nodes scope scope') : Reached reader nodes' scope scope' := by
  obtain hlabel | hlabelled := hlabel
  · have hnil : Reached reader .nil scope' scope' := Reached.refl rfl rfl scope'
    refine Reached.trans ?_ ?_ hreached hnil
    · rw [hentries, entries, List.append_nil]
    · rw [hlabel, labelElement, Option.or_none]
  · obtain ⟨isToc, items, rfl⟩ | ⟨items, rfl⟩ | ⟨item, skip, rfl⟩ := hfits.labelled hlabelled
    · simpa [Reached, hentries] using hreached
    · simpa [Reached, hentries] using hreached
    · simpa [Reached, grown, hentries] using hreached

/-- An element that is not kept open makes of the element around it what its content does. -/
lemma reached_other {scope scope' : Scope α} (hname : isScope (localName name) = false)
    (hwithin : isHeading (localName name) = false ∨ within.unlabelled = false)
    (hfits : Fits within scope) (hreached : Reached reader children scope scope') :
    Reached reader (.element name attrs children .nil) scope scope' := by
  refine hreached.congr hfits ?_ (hwithin.imp_left fun hheading => ?_)
  · simp only [isScope, Bool.or_eq_false_iff, decide_eq_false_iff_not] at hname
    simp [entries, hname]
  · simp [labelElement, hheading, hname]

/-- Any other element. -/
lemma follows_other (hname : isScope (localName name) = false)
    (hwithin : isHeading (localName name) = false ∨ within.unlabelled = false)
    (hchildren : Follows limits reader within children) :
    Follows limits reader within (.element name attrs children .nil) := by
  intro st scope stack hst hfits hdepth
  have hdepth : stack.length + 1 + children.depth isScope ≤ limits.maxXmlDepth := by
    simpa [XmlNodes.depth, hname] using hdepth
  cases hheading : isHeading (localName name) with
  | false =>
    obtain ⟨st', scope', hrun, hst', hfinished, hreached⟩ :=
      hchildren st scope stack hst hfits hdepth
    rw [parseNodes_single (start_other hname hheading attrs) hrun, close_other hname hheading]
    exact ⟨st', scope', rfl, hst', hfinished, reached_other hname hwithin hfits hreached⟩
  | true =>
    have hlabelled := hwithin.resolve_left (by simp [hheading])
    obtain ⟨⟨hopen, hkept⟩, -⟩ := @heading_labelled α reader within st scope stack hst hfits
      hlabelled (localName name) attrs
    obtain ⟨st', scope', hrun, hst', hfinished, hreached⟩ :=
      hchildren (st.startLabel reader (localName name) attrs) scope stack hopen hfits hdepth
    have hlater : (within.after children).unlabelled = false := by
      cases within with
      | nav => rfl
      | list => rfl
      | entry done listed =>
        cases done with
        | false => cases hlabelled
        | true => rfl
    obtain ⟨-, hclosed, hclosed'⟩ := @heading_labelled α reader _ st' scope' stack hst'
      (hfits.after hreached) hlater (localName name) attrs
    rw [parseNodes_single (start_heading hheading attrs) hrun, close_heading hheading]
    exact ⟨_, scope', rfl, hclosed, (hclosed'.trans hfinished).trans hkept,
      reached_other hname hwithin hfits hreached⟩

end Elements

/-- **Regular nodes make of the open element that they are in what they should.** -/
theorem follows_of_regular (limits : XmlLimits) (within : Within) (nodes : XmlNodes)
    (hregular : regular within nodes = true) : Follows limits reader within nodes := by
  induction nodes generalizing within with
  | nil =>
    intro st scope stack hst _ _
    exact ⟨st, scope, rfl, hst, rfl, Reached.refl rfl rfl scope⟩
  | element name attrs children rest ihchildren ihrest =>
    rw [regular, Bool.and_eq_true] at hregular
    obtain ⟨hhead, hrest⟩ := hregular
    have hfollows : Follows limits reader within (.element name attrs children .nil) := by
      by_cases hnav : localName name = "nav"
      · simp [hnav] at hhead
      rw [if_neg hnav] at hhead
      by_cases hlist : localName name = "ol"
      · simp only [hlist, if_true, Bool.and_eq_true, Bool.or_eq_true, beq_iff_eq] at hhead
        exact follows_ol hlist (ihchildren .list hhead.1) hhead.2
      rw [if_neg hlist] at hhead
      by_cases hitem : localName name = "li"
      · simp only [hitem, if_true, Bool.and_eq_true, Bool.or_eq_true, beq_iff_eq,
          Bool.not_eq_true'] at hhead
        obtain ⟨⟨rfl, hchildren⟩, hhidden⟩ := hhead
        exact follows_li hitem (ihchildren (.entry false false) hchildren) hhidden
      rw [if_neg hitem] at hhead
      split_ifs at hhead with hlabel
      · rw [Bool.and_eq_true] at hlabel hhead
        exact follows_label hlabel.1 hlabel.2 hhead.1 hhead.2
      · rw [Bool.and_eq_true, not_and_or, Bool.not_eq_true, Bool.not_eq_true] at hlabel
        exact follows_other (by simp [isScope, hnav, hlist, hitem]) hlabel
          (ihchildren within hhead)
    intro st scope stack hst hfits hdepth
    rw [XmlNodes.depth] at hdepth
    obtain ⟨st₁, scope₁, hrun₁, hst₁, hfinished₁, hreached₁⟩ := hfollows st scope stack hst hfits
      (by simp only [XmlNodes.depth]; omega)
    obtain ⟨st₂, scope₂, hrun₂, hst₂, hfinished₂, hreached₂⟩ :=
      ihrest _ hrest st₁ scope₁ stack hst₁ (hfits.after hreached₁) (by omega)
    refine ⟨st₂, scope₂, ?_, hst₂, hfinished₂.trans hfinished₁,
      Reached.trans (entries_head reader name attrs children rest)
        (labelElement_head name attrs children rest) hreached₁ hreached₂⟩
    rw [parseNodes_head, hrun₁]
    exact hrun₂
  | selfClosing name attrs rest ih =>
    simp only [regular, Bool.and_eq_true, Bool.not_eq_true', decide_eq_true_eq] at hregular
    obtain ⟨⟨hitem, hheading⟩, hrest⟩ := hregular
    intro st scope stack hst hfits hdepth
    obtain ⟨st', scope', hrun, hst', hfinished, hreached⟩ :=
      ih within hrest st scope stack hst hfits hdepth
    rw [Bool.and_eq_false_iff] at hheading
    refine ⟨st', scope', hrun, hst', hfinished,
      hreached.congr hfits ?_ (hheading.imp_left fun hheading => ?_)⟩
    · rw [entries, if_neg hitem, List.nil_append]
    · simp [labelElement, hheading]
  | text content rest ih =>
    intro st scope stack hst hfits hdepth
    obtain ⟨hopen, hkept⟩ : (st.text content).stack = scope :: stack ∧
        (st.text content).finished = st.finished := by
      unfold NavState.text
      split <;> exact ⟨hst, rfl⟩
    obtain ⟨st', scope', hrun, hst', hfinished, hreached⟩ :=
      ih within hregular (st.text content) scope stack hopen hfits hdepth
    exact ⟨st', scope', hrun, hst', hfinished.trans hkept, hreached⟩
  | cdata content rest ih => exact ih within hregular
  | other rest ih => exact ih within hregular

end Reached

/-! ## The entries of a document -/

section Document

variable {reader : LinkReader α} {limits : XmlLimits}

/-- No `nav` stands in a label. -/
lemma navs_of_plainContent {nodes : XmlNodes} (hplain : plainContent nodes = true) :
    navs reader nodes = [] := by
  induction nodes with
  | nil => rfl
  | element name attrs children rest ihchildren ihrest =>
    simp only [plainContent, Bool.and_eq_true, Bool.not_eq_true', isScope,
      Bool.or_eq_false_iff, decide_eq_false_iff_not] at hplain
    obtain ⟨⟨⟨⟨⟨hnav, -⟩, -⟩, -⟩, hchildren⟩, hrest⟩ := hplain
    rw [navs, if_neg hnav, ihchildren hchildren, ihrest hrest]
    rfl
  | selfClosing name attrs rest ih =>
    simp only [plainContent, Bool.and_eq_true] at hplain
    exact ih hplain.2
  | text content rest ih => exact ih hplain
  | cdata content rest ih =>
    simp only [plainContent, Bool.and_eq_true] at hplain
    exact ih hplain.2
  | other rest ih => exact ih hplain

/-- No `nav` stands in content that the parser follows. -/
lemma navs_of_regular {nodes : XmlNodes} {within : Within}
    (hregular : regular within nodes = true) : navs reader nodes = [] := by
  induction nodes generalizing within with
  | nil => rfl
  | element name attrs children rest ihchildren ihrest =>
    rw [regular, Bool.and_eq_true] at hregular
    obtain ⟨hhead, hrest⟩ := hregular
    by_cases hnav : localName name = "nav"
    · simp [hnav] at hhead
    have hchildren : navs reader children = [] := by
      rw [if_neg hnav] at hhead
      split_ifs at hhead
      · rw [Bool.and_eq_true] at hhead
        exact ihchildren hhead.1
      · simp only [Bool.and_eq_true] at hhead
        exact ihchildren hhead.1.2
      · rw [Bool.and_eq_true] at hhead
        exact navs_of_plainContent hhead.1
      · exact ihchildren hhead
    rw [navs, if_neg hnav, hchildren, ihrest hrest]
    rfl
  | selfClosing name attrs rest ih =>
    simp only [regular, Bool.and_eq_true] at hregular
    exact ih hregular.2
  | text content rest ih => exact ih hregular
  | cdata content rest ih => exact ih hregular
  | other rest ih => exact ih hregular

/-- Outside of a `nav` an element opens and closes nothing. -/
lemma start_outside {st : NavState α} (hst : st.stack = []) {name : String} (hnav : name ≠ "nav")
    (attrs : Attributes) : st.start limits reader name attrs = .ok st := by
  simp [NavState.start, NavState.startLabel, hnav, hst]

lemma close_outside {st : NavState α} (hst : st.stack = []) {name : String} (hnav : name ≠ "nav") :
    (st.close name).stack = [] ∧ (st.close name).finished = st.finished := by
  unfold NavState.close
  rw [if_neg hnav]
  split_ifs
  · simp [NavState.closeLabel, hst]
  · simp [NavState.closeLi, hst]
  · simp [NavState.closeOl, hst]
  · exact ⟨hst, rfl⟩

/-- Outside of the `nav` elements nothing is kept open. -/
lemma parseNodes_navs (nodes : XmlNodes) (hregular : regularNavs nodes = true) {st : NavState α}
    (hst : st.stack = []) (hdepth : nodes.depth isScope ≤ limits.maxXmlDepth) :
    ∃ st', parseNodes (NavState.step limits reader) nodes st = .ok st' ∧ st'.stack = [] ∧
      st'.finished = st.finished ++ navs reader nodes := by
  induction nodes generalizing st with
  | nil => exact ⟨st, rfl, hst, by simp [navs]⟩
  | element name attrs children rest ihchildren ihrest =>
    rw [regularNavs, Bool.and_eq_true] at hregular
    rw [XmlNodes.depth] at hdepth
    rw [parseNodes_head, navs]
    by_cases hnav : localName name = "nav"
    · rw [if_pos hnav] at hregular
      rw [if_pos (by simp [isScope, hnav])] at hdepth
      have hstart : st.start limits reader (localName name) attrs =
          .ok { st with stack := [.nav (isTocNav attrs) []] } := by
        simp [NavState.start, hnav, hst]
      obtain ⟨st₁, scope, hrun, hst₁, hfinished, hreached⟩ := follows_of_regular limits .nav
        children hregular.1 { st with stack := [.nav (isTocNav attrs) []] }
        (.nav (isTocNav attrs) []) [] rfl trivial (by rw [List.length_nil]; omega)
      obtain rfl : scope = .nav (isTocNav attrs) (entries reader children) := hreached
      have hclose : st₁.close (localName name) = { st₁ with
          stack := []
          finished := st.finished ++ [(isTocNav attrs, entries reader children)] } := by
        rw [hnav]
        simp [NavState.close, NavState.closeNav, hst₁, hfinished]
      rw [parseNodes_single hstart hrun, hclose, if_pos hnav, navs_of_regular hregular.1]
      obtain ⟨st', hrun', hst', hfinished'⟩ := @ihrest hregular.2 { st₁ with
        stack := []
        finished := st.finished ++ [(isTocNav attrs, entries reader children)] } rfl (by omega)
      exact ⟨st', hrun', hst', by simpa using hfinished'⟩
    · rw [if_neg hnav] at hregular
      obtain ⟨st₁, hrun, hst₁, hfinished⟩ := ihchildren hregular.1 hst (by omega)
      obtain ⟨hclosed, hkept⟩ := close_outside hst₁ hnav
      rw [parseNodes_single (start_outside hst hnav attrs) hrun, if_neg hnav]
      obtain ⟨st', hrun', hst', hfinished'⟩ := ihrest hregular.2 hclosed (by omega)
      exact ⟨st', hrun', hst', by rw [hfinished', hkept, hfinished]; simp⟩
  | selfClosing name attrs rest ih => exact ih hregular hst hdepth
  | text content rest ih =>
    have htext : st.text content = st := by simp [NavState.text, hst]
    rw [parseNodes_text]
    change ∃ st', parseNodes _ rest (st.text content) = _ ∧ _
    rw [htext]
    exact ih hregular hst hdepth
  | cdata content rest ih => exact ih hregular hst hdepth
  | other rest ih => exact ih hregular hst hdepth

/-- **A regular document is parsed to its entries.** -/
theorem parseNavDocument_contents (limits : XmlLimits) (reader : LinkReader α) {len : ℕ}
    {doc : XmlNodes} (hlen : len ≤ limits.maxXmlBytes)
    (hdepth : doc.depth isScope ≤ limits.maxXmlDepth) (hregular : regularNavs doc = true) :
    parseNavDocument limits reader len doc.events = .ok (contents reader doc) := by
  obtain ⟨st, hrun, -, hfinished⟩ := @parseNodes_navs α reader limits doc hregular {} rfl hdepth
  unfold parseNavDocument
  rw [XmlLimits.checkXmlBytes, if_pos hlen]
  change (parseNodes (NavState.step limits reader) doc {} >>= fun st => .ok st.selected) = _
  rw [hrun]
  change Except.ok st.selected = _
  rw [NavState.selected, hfinished]
  rfl

end Document

end Nav

end Epub

end TuxBooks
