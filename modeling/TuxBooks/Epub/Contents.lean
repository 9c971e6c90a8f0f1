import TuxBooks.Epub.Href
import TuxBooks.Epub.Metadata

set_option relaxedAutoImplicit false
set_option autoImplicit false

/-!
# The table of contents

`parse_toc`: the tree of the navigation document, or of the NCX, over the events that the XML
reader reports, and the links that `toc_json` publishes for it. The parsers are written for any
way of keeping a link, so that the links as the document gives them can be read off the same tree.

## Main definitions

* `TuxBooks.Epub.TocItem` — an entry of the tree.
* `TuxBooks.Epub.NavState.step`, `TuxBooks.Epub.NcxState.step` — one event of either document.
* `TuxBooks.Epub.resolveNavHref`, `TuxBooks.Epub.publishHref` — from a link to what is published.
* `TuxBooks.Epub.publishedToc`, `TuxBooks.Epub.sourceToc` — the published links, and those of the
  document.

## Main results

* `TuxBooks.Epub.publishedToc_eq` — the published tree is that of the document, link by link.
-/

namespace TuxBooks

namespace Epub

/-! ## Links -/

/-- Split `path#fragment`, at the first separator. -/
def splitFragment (href : String) : String × Option String :=
  match href.toList.dropWhile (· ≠ '#') with
  | [] => (href, none)
  | _ :: fragment =>
    (String.ofList (href.toList.takeWhile (· ≠ '#')), some (String.ofList fragment))

/-- Resolve a link, relative to a document, to a decoded zip path with its fragment. -/
def resolveNavHref (baseDir : List Char) (href : String) : String :=
  let (path, fragment) := splitFragment href
  let decoded := percentDecode path
  let zipPath :=
    if decoded.toList.head? == some '/' then normalizePath decoded
    else normalizePath (String.ofList (baseDir ++ decoded.toList))
  match fragment with
  | some fragment => zipPath ++ "#" ++ fragment
  | none => zipPath

def dangerousTocSchemes : List String :=
  ["javascript:", "vbscript:", "data:", "file:", "blob:", "filesystem:"]

/-- True when a raw link uses a scheme that is never navigated. -/
def isDangerousTocHref (href : String) : Bool :=
  dangerousTocSchemes.any fun scheme =>
    scheme.toList.isPrefixOf ((trim href).toList.map Char.toLower)

/-- What is published of a link: its `href` and its only fragment. -/
structure PublishedHref where
  href : String
  fragment : Option String
  deriving DecidableEq

/-- One link of `toc_json`. -/
def publishHref (href : String) : PublishedHref :=
  let (path, fragment) := splitFragment href
  { href := encodedHref path, fragment }

/-! ## Trees -/

/-- An entry: its label, its target and the entries under it. -/
structure TocItem (α : Type) where
  label : String
  href : α
  children : List (TocItem α)

mutual

/-- The entry with another target in place of each one. -/
def TocItem.map {α β : Type} (f : α → β) : TocItem α → TocItem β
  | ⟨label, href, children⟩ => ⟨label, f href, mapItems f children⟩

def mapItems {α β : Type} (f : α → β) : List (TocItem α) → List (TocItem β)
  | [] => []
  | item :: items => item.map f :: mapItems f items

end

mutual

/-- The targets of an entry and of those under it, in the order of the document. -/
def TocItem.hrefs {α : Type} : TocItem α → List α
  | ⟨_, href, children⟩ => href :: hrefsOf children

def hrefsOf {α : Type} : List (TocItem α) → List α
  | [] => []
  | item :: items => item.hrefs ++ hrefsOf items

end

/-- `toc_json`: the links of a tree. -/
def tocJson (items : List (TocItem String)) : List (TocItem PublishedHref) :=
  mapItems publishHref items

/-- How the targets of a document are kept: what an entry has before its link is read, and what
it keeps of the link. -/
structure LinkReader (α : Type) where
  unset : α
  resolve : String → α

def LinkReader.map {α β : Type} (f : α → β) (reader : LinkReader α) : LinkReader β where
  unset := f reader.unset
  resolve href := f (reader.resolve href)

/-- The targets as decoded zip paths with their fragments. -/
def resolving (docPath : String) : LinkReader String where
  unset := ""
  resolve := resolveNavHref (directoryOf docPath)

/-! ## The navigation document -/

/-- An open element. -/
inductive Scope (α : Type) where
  | nav (isToc : Bool) (items : List (TocItem α))
  | ol (items : List (TocItem α))
  | li (item : TocItem α) (labelDone skip : Bool)

/-- The open elements, innermost first, and the `nav` elements that are complete. -/
structure NavState (α : Type) where
  stack : List (Scope α) := []
  finished : List (Bool × List (TocItem α)) := []
  textBuf : String := ""

/-- `epub:type` names the table of contents. -/
def isTocNav (attrs : Attributes) : Bool :=
  attrs.any fun attr => localName attr.1 == "type" &&
    attr.2.any fun value => (splitWhitespace value).any (eqIgnoreAsciiCase · "toc")

namespace NavState

variable {α : Type}

/-- The link of an entry is read: a dangerous one drops the entry. -/
def openLink (reader : LinkReader α) (attrs : Attributes) (item : TocItem α)
    (labelDone skip : Bool) : Scope α :=
  match attributeValue attrs "href" with
  | none => .li item labelDone skip
  | some href =>
    if labelDone = true then .li item labelDone skip
    else if isDangerousTocHref href = true then .li item labelDone true
    else .li { item with href := reader.resolve href } labelDone skip

/-- A list or an entry opens, within the depth. -/
def push (limits : XmlLimits) (st : NavState α) (scope : Scope α) :
    Except OpfError (NavState α) := do
  bounded (limits.checkXmlDepth (st.stack.length + 1))
  return { st with stack := scope :: st.stack }

/-- A link or a heading opens in an entry. -/
def startLabel (reader : LinkReader α) (st : NavState α) (name : String) (attrs : Attributes) :
    NavState α :=
  match st.stack with
  | .li item labelDone skip :: stack =>
    { st with
      stack :=
        (if name = "a" then openLink reader attrs item labelDone skip
        else .li item labelDone skip) :: stack
      textBuf := "" }
  | _ => st

def start (limits : XmlLimits) (reader : LinkReader α) (st : NavState α) (name : String)
    (attrs : Attributes) : Except OpfError (NavState α) :=
  if name = "nav" then .ok { st with stack := .nav (isTocNav attrs) [] :: st.stack }
  else if name = "ol" then
    match st.stack with
    | _ :: _ => st.push limits (.ol [])
    | [] => .ok st
  else if name = "li" then
    match st.stack with
    | .ol _ :: _ => st.push limits (.li ⟨"", reader.unset, []⟩ false false)
    | _ => .ok st
  else if name = "a" ∨ name = "span" then .ok (st.startLabel reader name attrs)
  else .ok st

/-- Text counts while an entry has no label. -/
def text (st : NavState α) (content : Option String) : NavState α :=
  match st.stack with
  | .li _ false _ :: _ => { st with textBuf := st.textBuf ++ content.getD "" }
  | _ => st

def closeLabel (st : NavState α) : NavState α :=
  match st.stack with
  | .li item labelDone skip :: stack =>
    { st with
      stack := .li (if labelDone = true then item else { item with label := trim st.textBuf })
        true skip :: stack
      textBuf := "" }
  | _ => { st with textBuf := "" }

def closeLi (st : NavState α) : NavState α :=
  match st.stack with
  | .li item _ false :: .ol items :: stack => { st with stack := .ol (items ++ [item]) :: stack }
  | _ => { st with stack := st.stack.tail }

/-- The entries of a list go to the entry that it is nested in, or to the `nav`. -/
def closeOl (st : NavState α) : NavState α :=
  match st.stack with
  | .ol (first :: items) :: .li item labelDone false :: stack =>
    { st with stack := .li { item with children := first :: items } labelDone false :: stack }
  | .ol (first :: items) :: .nav isToc navItems :: stack =>
    { st with stack := .nav isToc (navItems ++ first :: items) :: stack }
  | _ => { st with stack := st.stack.tail }

def closeNav (st : NavState α) : NavState α :=
  match st.stack with
  | .nav isToc items :: stack =>
    { st with
      stack
      finished := st.finished ++ [(isToc, items)] }
  | _ => { st with stack := st.stack.tail }

def close (st : NavState α) (name : String) : NavState α :=
  if name = "a" ∨ name = "span" then st.closeLabel
  else if name = "li" then st.closeLi
  else if name = "ol" then st.closeOl
  else if name = "nav" then st.closeNav
  else st

/-- One event. An element without content opens nothing. -/
def step (limits : XmlLimits) (reader : LinkReader α) (st : NavState α) :
    XmlEvent → Except OpfError (NavState α)
  | .start name attrs => st.start limits reader (localName name) attrs
  | .text content => .ok (st.text content)
  | .close name => .ok (st.close (localName name))
  | .error message => .error (.opfXml message)
  | _ => .ok st

/-- The typed `nav` is preferred; otherwise the first one of the page that lists anything. -/
def selected (st : NavState α) : List (TocItem α) :=
  ((st.finished.find? fun nav => nav.1 && !nav.2.isEmpty).or
    (st.finished.find? fun nav => !nav.2.isEmpty)).elim [] Prod.snd

end NavState

def parseNavDocument {α : Type} (limits : XmlLimits) (reader : LinkReader α) (len : ℕ)
    (events : List XmlEvent) : Except OpfError (List (TocItem α)) := do
  bounded (limits.checkXmlBytes len)
  let st ← events.foldlM (NavState.step limits reader) {}
  return st.selected

/-! ## The NCX -/

/-- The open points, innermost first, and in parallel whether each is dropped. -/
structure NcxState (α : Type) where
  roots : List (TocItem α) := []
  openPoints : List (TocItem α) := []
  openSkips : List Bool := []
  textBuf : String := ""
  inNavLabel : Bool := false

namespace NcxState

variable {α : Type}

/-- The innermost point is dropped. -/
def skipPoint (st : NcxState α) : NcxState α :=
  match st.openSkips with
  | _ :: skips => { st with openSkips := true :: skips }
  | [] => st

/-- The target of the innermost point is read. -/
def content (reader : LinkReader α) (st : NcxState α) (attrs : Attributes) : NcxState α :=
  match st.openPoints, attributeValue attrs "src" with
  | point :: points, some src =>
    if isDangerousTocHref src = true then st.skipPoint
    else { st with openPoints := { point with href := reader.resolve src } :: points }
  | _, _ => st

def openPoint (limits : XmlLimits) (reader : LinkReader α) (st : NcxState α) :
    Except OpfError (NcxState α) := do
  bounded (limits.checkXmlDepth (st.openPoints.length + 1))
  return { st with
    openPoints := ⟨"", reader.unset, []⟩ :: st.openPoints
    openSkips := false :: st.openSkips }

def start (limits : XmlLimits) (reader : LinkReader α) (st : NcxState α) (name : String)
    (attrs : Attributes) : Except OpfError (NcxState α) :=
  if name = "navPoint" then st.openPoint limits reader
  else if name = "navLabel" then .ok { st with inNavLabel := true }
  else if name = "content" then .ok (st.content reader attrs)
  else .ok st

def text (st : NcxState α) (content : Option String) : NcxState α :=
  if st.inNavLabel = true then { st with textBuf := st.textBuf ++ content.getD "" } else st

/-- The label of the innermost point is complete. -/
def closeLabel (st : NcxState α) : NcxState α :=
  { st with
    inNavLabel := false
    openPoints :=
      match st.openPoints with
      | point :: points => { point with label := trim st.textBuf } :: points
      | [] => []
    textBuf := "" }

/-- The innermost point is complete: it goes under the one that it is nested in. -/
def closePoint (st : NcxState α) : NcxState α :=
  let popped := { st with
    openPoints := st.openPoints.tail
    openSkips := st.openSkips.tail }
  match st.openPoints with
  | [] => popped
  | point :: points =>
    if st.openSkips.headD false = true then popped
    else
      match points with
      | parent :: points =>
        { popped with
          openPoints := { parent with children := parent.children ++ [point] } :: points }
      | [] => { popped with roots := st.roots ++ [point] }

def close (st : NcxState α) (name : String) : NcxState α :=
  if name = "navLabel" then st.closeLabel
  else if name = "navPoint" then st.closePoint
  else st

/-- One event. An element without content opens as any other. -/
def step (limits : XmlLimits) (reader : LinkReader α) (st : NcxState α) :
    XmlEvent → Except OpfError (NcxState α)
  | .start name attrs | .empty name attrs => st.start limits reader (localName name) attrs
  | .text content => .ok (st.text content)
  | .close name => .ok (st.close (localName name))
  | .error message => .error (.opfXml message)
  | .other => .ok st

end NcxState

def parseNcxDocument {α : Type} (limits : XmlLimits) (reader : LinkReader α) (len : ℕ)
    (events : List XmlEvent) : Except OpfError (List (TocItem α)) := do
  bounded (limits.checkXmlBytes len)
  let st ← events.foldlM (NcxState.step limits reader) {}
  return st.roots

/-! ## From the package to the published links -/

/-- What opening a publication can fail with: reading the archive, or one of its documents. -/
inductive SessionError where
  | archive (error : EpubError)
  | document (error : OpfError)
  deriving DecidableEq

section Toc

variable (readXml : String → List XmlEvent) (zip : ZipArchive) (limits : ResourceLimits)
  (xmlLimits : XmlLimits)

/-- Read a document of the archive with one of the two parsers. -/
def readDocument {α : Type}
    (parse : XmlLimits → LinkReader α → ℕ → List XmlEvent → Except OpfError (List (TocItem α)))
    (reader : String → LinkReader α) (docPath : String) :
    Except SessionError (Option (List (TocItem α))) :=
  match readEntry zip docPath limits with
  | .error error => .error (.archive error)
  | .ok none => .ok none
  | .ok (some bytes) =>
    let xml := fromUtf8Lossy bytes
    match parse xmlLimits (reader docPath) xml.utf8ByteSize (readXml xml) with
    | .error error => .error (.document error)
    | .ok items => .ok (some items)

/-- `has_property("nav")`, of the first resource that has it. -/
def navItem (package : Opf.OpfPackage) : Option Opf.ManifestItem :=
  (package.manifest.entries.map Sigma.snd).find? fun item => item.properties.contains "nav"

/-- The resource that the spine names as its NCX, or the first one of that type. -/
def ncxItem (package : Opf.OpfPackage) : Option Opf.ManifestItem :=
  (package.spineToc.or ((package.manifest.entries.find? fun entry =>
    entry.2.mediaType == "application/x-dtbncx+xml").map Sigma.fst)).bind package.manifest.lookup

/-- The resource of some kind, read relative to the package document. -/
def readItem {α : Type}
    (parse : XmlLimits → LinkReader α → ℕ → List XmlEvent → Except OpfError (List (TocItem α)))
    (reader : String → LinkReader α) (opfPath : String) :
    Option Opf.ManifestItem → Except SessionError (Option (List (TocItem α)))
  | none => .ok none
  | some item =>
    readDocument readXml zip limits xmlLimits parse reader (resolveZipPath opfPath item.href)

def parseToc {α : Type} (reader : String → LinkReader α) (opfPath : String)
    (package : Opf.OpfPackage) : Except SessionError (List (TocItem α)) := do
  match ← readItem readXml zip limits xmlLimits parseNavDocument reader opfPath
      (navItem package) with
  | some items => return items
  | none =>
    let ncx ← readItem readXml zip limits xmlLimits parseNcxDocument reader opfPath
      (ncxItem package)
    return ncx.getD []

/-- The table of contents of the manifest that is served. -/
def publishedToc (opfPath : String) (package : Opf.OpfPackage) :
    Except SessionError (List (TocItem PublishedHref)) := do
  let items ← parseToc readXml zip limits xmlLimits resolving opfPath package
  return tocJson items

/-- A link as its document gives it: the path of the document, and the link unless the entry has
none. -/
structure SourceLink where
  docPath : String
  href? : Option String
  deriving DecidableEq

/-- The targets as their document gives them. -/
def asGiven (docPath : String) : LinkReader SourceLink where
  unset := ⟨docPath, none⟩
  resolve href := ⟨docPath, some href⟩

/-- The same tree with the links as their document gives them. -/
def sourceToc (opfPath : String) (package : Opf.OpfPackage) :
    Except SessionError (List (TocItem SourceLink)) :=
  parseToc readXml zip limits xmlLimits asGiven opfPath package

end Toc

/-! ## One tree for every way of keeping a link -/

section Map

variable {α β : Type} (f : α → β)

lemma mapItems_eq (items : List (TocItem α)) : mapItems f items = items.map (TocItem.map f) := by
  induction items with
  | nil => rfl
  | cons item items ih => rw [mapItems, List.map_cons, ih]

@[simp] lemma mapItems_append (items items' : List (TocItem α)) :
    mapItems f (items ++ items') = mapItems f items ++ mapItems f items' := by
  rw [mapItems_eq, mapItems_eq, mapItems_eq, List.map_append]

@[simp] lemma length_mapItems (items : List (TocItem α)) :
    (mapItems f items).length = items.length := by
  rw [mapItems_eq, List.length_map]

@[simp] lemma isEmpty_mapItems (items : List (TocItem α)) :
    (mapItems f items).isEmpty = items.isEmpty := by
  rw [mapItems_eq, List.isEmpty_map]

mutual

lemma TocItem.hrefs_map : (item : TocItem α) → (item.map f).hrefs = item.hrefs.map f
  | ⟨label, href, children⟩ => by
    rw [TocItem.map, TocItem.hrefs, TocItem.hrefs, List.map_cons, hrefsOf_mapItems children]

lemma hrefsOf_mapItems : (items : List (TocItem α)) →
    hrefsOf (mapItems f items) = (hrefsOf items).map f
  | [] => rfl
  | item :: items => by
    rw [mapItems, hrefsOf, hrefsOf, List.map_append, TocItem.hrefs_map item,
      hrefsOf_mapItems items]

end

mutual

lemma TocItem.map_map {γ : Type} (g : β → γ) :
    (item : TocItem α) → (item.map f).map g = item.map fun href => g (f href)
  | ⟨label, href, children⟩ => by
    rw [TocItem.map, TocItem.map, TocItem.map, mapItems_mapItems g children]

lemma mapItems_mapItems {γ : Type} (g : β → γ) :
    (items : List (TocItem α)) → mapItems g (mapItems f items) =
      mapItems (fun href => g (f href)) items
  | [] => rfl
  | item :: items => by
    rw [mapItems, mapItems, mapItems, TocItem.map_map g item, mapItems_mapItems g items]

end

def Scope.map : Scope α → Scope β
  | .nav isToc items => .nav isToc (mapItems f items)
  | .ol items => .ol (mapItems f items)
  | .li item labelDone skip => .li (item.map f) labelDone skip

def NavState.map (st : NavState α) : NavState β where
  stack := st.stack.map (Scope.map f)
  finished := st.finished.map fun nav => (nav.1, mapItems f nav.2)
  textBuf := st.textBuf

def NcxState.map (st : NcxState α) : NcxState β where
  roots := mapItems f st.roots
  openPoints := mapItems f st.openPoints
  openSkips := st.openSkips
  textBuf := st.textBuf
  inNavLabel := st.inNavLabel

namespace NavState

variable (limits : XmlLimits) (reader : LinkReader α)

lemma map_openLink (attrs : Attributes) (item : TocItem α) (labelDone skip : Bool) :
    openLink (reader.map f) attrs (item.map f) labelDone skip =
      (openLink reader attrs item labelDone skip).map f := by
  obtain ⟨label, href, children⟩ := item
  rw [openLink, openLink]
  cases attributeValue attrs "href" with
  | none => rfl
  | some link =>
    dsimp only
    split_ifs
    · rfl
    · rfl
    · rfl

lemma map_push (st : NavState α) (scope : Scope α) :
    (st.map f).push limits (scope.map f) = (st.push limits scope).map (NavState.map f) := by
  rw [push, push]
  simp only [NavState.map, List.length_map]
  cases bounded (limits.checkXmlDepth (st.stack.length + 1)) with
  | error e => rfl
  | ok _ => rfl

lemma map_startLabel (st : NavState α) (name : String) (attrs : Attributes) :
    (st.map f).startLabel (reader.map f) name attrs = (st.startLabel reader name attrs).map f := by
  obtain ⟨_ | ⟨_ | _ | ⟨item, labelDone, skip⟩, stack⟩, finished, textBuf⟩ := st
  case cons.li =>
    simp only [startLabel, NavState.map, Scope.map, List.map_cons, map_openLink]
    split_ifs
    · rfl
    · rfl
  all_goals rfl

lemma map_start (st : NavState α) (name : String) (attrs : Attributes) :
    (st.map f).start limits (reader.map f) name attrs =
      (st.start limits reader name attrs).map (NavState.map f) := by
  rw [start, start]
  split_ifs with hnav hol hli hlabel
  · rfl
  · obtain ⟨_ | ⟨scope, stack⟩, finished, textBuf⟩ := st
    · rfl
    · exact map_push f limits _ (.ol [])
  · obtain ⟨_ | ⟨_ | items | _, stack⟩, finished, textBuf⟩ := st
    · rfl
    · rfl
    · exact map_push f limits ⟨.ol items :: stack, finished, textBuf⟩
        (.li ⟨"", reader.unset, []⟩ false false)
    · rfl
  · exact congrArg Except.ok (map_startLabel f reader st name attrs)
  · rfl

lemma map_text (st : NavState α) (content : Option String) :
    (st.map f).text content = (st.text content).map f := by
  obtain ⟨_ | ⟨_ | _ | ⟨item, _ | _, skip⟩, stack⟩, finished, textBuf⟩ := st
  all_goals rfl

lemma map_closeLabel (st : NavState α) : (st.map f).closeLabel = st.closeLabel.map f := by
  obtain ⟨_ | ⟨_ | _ | ⟨⟨label, href, children⟩, _ | _, skip⟩, stack⟩, finished, textBuf⟩ := st
  all_goals rfl

lemma map_closeLi (st : NavState α) : (st.map f).closeLi = st.closeLi.map f := by
  obtain ⟨stack, finished, textBuf⟩ := st
  rcases stack with _ | ⟨_ | _ | ⟨item, labelDone, _ | _⟩, _ | ⟨_ | items | _, stack⟩⟩
  case cons.li.false.cons.ol =>
    simp [closeLi, NavState.map, Scope.map, mapItems]
  all_goals rfl

lemma map_closeOl (st : NavState α) : (st.map f).closeOl = st.closeOl.map f := by
  obtain ⟨stack, finished, textBuf⟩ := st
  rcases stack with _ | ⟨_ | ⟨_ | ⟨first, items⟩⟩ | _,
    _ | ⟨_ | _ | ⟨⟨label, href, children⟩, labelDone, _ | _⟩, stack⟩⟩
  case cons.ol.cons.cons.nav =>
    simp [closeOl, NavState.map, Scope.map, mapItems]
  all_goals rfl

lemma map_closeNav (st : NavState α) : (st.map f).closeNav = st.closeNav.map f := by
  obtain ⟨_ | ⟨_ | _ | _, stack⟩, finished, textBuf⟩ := st
  case cons.nav => simp [closeNav, NavState.map, Scope.map]
  all_goals rfl

/-- An event does the same to the state of either way of keeping links. -/
lemma map_step (st : NavState α) (event : XmlEvent) :
    step limits (reader.map f) (st.map f) event =
      (step limits reader st event).map (NavState.map f) := by
  cases event with
  | start name attrs => exact map_start f limits reader st (localName name) attrs
  | text content => exact congrArg Except.ok (map_text f st content)
  | close name =>
    refine congrArg Except.ok ?_
    rw [close, close]
    split_ifs
    · exact map_closeLabel f st
    · exact map_closeLi f st
    · exact map_closeOl f st
    · exact map_closeNav f st
    · rfl
  | empty name attrs => rfl
  | other => rfl
  | error message => rfl

lemma map_selected (st : NavState α) : (st.map f).selected = mapItems f st.selected := by
  have hfind (p : Bool → Bool → Bool) :
      (st.finished.map fun nav => (nav.1, mapItems f nav.2)).find?
          (fun nav => p nav.1 nav.2.isEmpty) =
        (st.finished.find? fun nav => p nav.1 nav.2.isEmpty).map fun nav =>
          (nav.1, mapItems f nav.2) := by
    rw [List.find?_map]
    simp [Function.comp_def]
  rw [selected, selected, NavState.map, hfind fun isToc empty => isToc && !empty,
    hfind fun _ empty => !empty, ← Option.map_or]
  cases (st.finished.find? fun nav => nav.1 && !nav.2.isEmpty).or
    (st.finished.find? fun nav => !nav.2.isEmpty) with
  | none => rfl
  | some nav => rfl

end NavState

namespace NcxState

variable (limits : XmlLimits) (reader : LinkReader α)

lemma map_skipPoint (st : NcxState α) : (st.map f).skipPoint = st.skipPoint.map f := by
  obtain ⟨roots, points, _ | ⟨skip, skips⟩, textBuf, inNavLabel⟩ := st
  · rfl
  · rfl

lemma map_content (st : NcxState α) (attrs : Attributes) :
    (st.map f).content (reader.map f) attrs = (st.content reader attrs).map f := by
  obtain ⟨roots, _ | ⟨⟨label, href, children⟩, points⟩, skips, textBuf, inNavLabel⟩ := st
  · rfl
  · rw [content, content]
    cases attributeValue attrs "src" with
    | none => rfl
    | some src =>
      by_cases hdangerous : isDangerousTocHref src = true
      · simp only [NcxState.map, mapItems, hdangerous, if_true]
        exact map_skipPoint f
          ⟨roots, ⟨label, href, children⟩ :: points, skips, textBuf, inNavLabel⟩
      · simp only [NcxState.map, mapItems, TocItem.map, hdangerous]
        rfl

lemma map_openPoint (st : NcxState α) :
    (st.map f).openPoint limits (reader.map f) =
      (st.openPoint limits reader).map (NcxState.map f) := by
  rw [openPoint, openPoint]
  simp only [NcxState.map, length_mapItems]
  cases bounded (limits.checkXmlDepth (st.openPoints.length + 1)) with
  | error e => rfl
  | ok _ => rfl

lemma map_start (st : NcxState α) (name : String) (attrs : Attributes) :
    (st.map f).start limits (reader.map f) name attrs =
      (st.start limits reader name attrs).map (NcxState.map f) := by
  rw [start, start]
  split_ifs
  · exact map_openPoint f limits reader st
  · rfl
  · exact congrArg Except.ok (map_content f reader st attrs)
  · rfl

lemma map_text (st : NcxState α) (content : Option String) :
    (st.map f).text content = (st.text content).map f := by
  obtain ⟨roots, points, skips, textBuf, _ | _⟩ := st
  · rfl
  · rfl

lemma map_closeLabel (st : NcxState α) : (st.map f).closeLabel = st.closeLabel.map f := by
  obtain ⟨roots, _ | ⟨⟨label, href, children⟩, points⟩, skips, textBuf, inNavLabel⟩ := st
  · rfl
  · rfl

lemma map_closePoint (st : NcxState α) : (st.map f).closePoint = st.closePoint.map f := by
  obtain ⟨roots, points, skips, textBuf, inNavLabel⟩ := st
  rcases points with _ | ⟨point, _ | ⟨⟨label, href, children⟩, points⟩⟩
  · rfl
  · rcases skips with _ | ⟨_ | _, skips⟩
    all_goals simp [closePoint, NcxState.map, mapItems]
  · rcases skips with _ | ⟨_ | _, skips⟩
    all_goals simp [closePoint, NcxState.map, mapItems, TocItem.map]

/-- An event does the same to the state of either way of keeping links. -/
lemma map_step (st : NcxState α) (event : XmlEvent) :
    step limits (reader.map f) (st.map f) event =
      (step limits reader st event).map (NcxState.map f) := by
  cases event with
  | start name attrs => exact map_start f limits reader st (localName name) attrs
  | empty name attrs => exact map_start f limits reader st (localName name) attrs
  | text content => exact congrArg Except.ok (map_text f st content)
  | close name =>
    refine congrArg Except.ok ?_
    rw [close, close]
    split_ifs
    · exact map_closeLabel f st
    · exact map_closePoint f st
    · rfl
  | other => rfl
  | error message => rfl

end NcxState

/-- The tree of a navigation document, whatever is kept of its links. -/
theorem map_parseNavDocument (limits : XmlLimits) (reader : LinkReader α) (len : ℕ)
    (events : List XmlEvent) :
    parseNavDocument limits (reader.map f) len events =
      (parseNavDocument limits reader len events).map (mapItems f) := by
  have hrun := Fallible.foldlM_map (NavState.map_step f limits reader) events {}
  rw [parseNavDocument, parseNavDocument]
  cases bounded (limits.checkXmlBytes len) with
  | error e => rfl
  | ok _ =>
    change (do
      let st ← events.foldlM (NavState.step limits (reader.map f)) (NavState.map f {})
      pure st.selected) = _
    rw [hrun]
    cases events.foldlM (NavState.step limits reader) {} with
    | error e => rfl
    | ok st => exact congrArg Except.ok (NavState.map_selected f st)

/-- The tree of an NCX, whatever is kept of its links. -/
theorem map_parseNcxDocument (limits : XmlLimits) (reader : LinkReader α) (len : ℕ)
    (events : List XmlEvent) :
    parseNcxDocument limits (reader.map f) len events =
      (parseNcxDocument limits reader len events).map (mapItems f) := by
  have hrun := Fallible.foldlM_map (NcxState.map_step f limits reader) events {}
  rw [parseNcxDocument, parseNcxDocument]
  cases bounded (limits.checkXmlBytes len) with
  | error e => rfl
  | ok _ =>
    change (do
      let st ← events.foldlM (NcxState.step limits (reader.map f)) (NcxState.map f {})
      pure st.roots) = _
    rw [hrun]
    cases events.foldlM (NcxState.step limits reader) {} with
    | error e => rfl
    | ok st => rfl

end Map

section Toc

variable {readXml : String → List XmlEvent} {zip : ZipArchive} {limits : ResourceLimits}
  {xmlLimits : XmlLimits} {α β : Type} {f : α → β}

lemma map_readItem
    (parse : ∀ γ : Type, XmlLimits → LinkReader γ → ℕ → List XmlEvent →
      Except OpfError (List (TocItem γ)))
    (hparse : ∀ reader len events, parse β xmlLimits (reader.map f) len events =
      (parse α xmlLimits reader len events).map (mapItems f))
    (reader : String → LinkReader α) (opfPath : String) (item : Option Opf.ManifestItem) :
    readItem readXml zip limits xmlLimits (parse β) (fun docPath => (reader docPath).map f)
        opfPath item =
      (readItem readXml zip limits xmlLimits (parse α) reader opfPath item).map
        (Option.map (mapItems f)) := by
  cases item with
  | none => rfl
  | some item =>
    simp only [readItem, readDocument]
    cases readEntry zip (resolveZipPath opfPath item.href) limits with
    | error e => rfl
    | ok bytes =>
      cases bytes with
      | none => rfl
      | some bytes =>
        simp only [hparse]
        cases parse α xmlLimits _ _ _ with
        | error e => rfl
        | ok items => rfl

lemma map_parseToc (reader : String → LinkReader α) (opfPath : String)
    (package : Opf.OpfPackage) :
    parseToc readXml zip limits xmlLimits (fun docPath => (reader docPath).map f) opfPath package =
      (parseToc readXml zip limits xmlLimits reader opfPath package).map (mapItems f) := by
  have hnav : readItem readXml zip limits xmlLimits parseNavDocument
      (fun docPath => (reader docPath).map f) opfPath (navItem package) = _ :=
    map_readItem (@parseNavDocument) (map_parseNavDocument f xmlLimits) reader opfPath
      (navItem package)
  have hncx : readItem readXml zip limits xmlLimits parseNcxDocument
      (fun docPath => (reader docPath).map f) opfPath (ncxItem package) = _ :=
    map_readItem (@parseNcxDocument) (map_parseNcxDocument f xmlLimits) reader opfPath
      (ncxItem package)
  rw [parseToc, parseToc, hnav]
  cases readItem readXml zip limits xmlLimits parseNavDocument reader opfPath (navItem package) with
  | error e => rfl
  | ok items =>
    cases items with
    | some items => rfl
    | none =>
      change (do
        let ncx ← readItem readXml zip limits xmlLimits parseNcxDocument
          (fun docPath => (reader docPath).map f) opfPath (ncxItem package)
        pure (ncx.getD [])) = _
      rw [hncx]
      cases readItem readXml zip limits xmlLimits parseNcxDocument reader opfPath
          (ncxItem package) with
      | error e => rfl
      | ok items =>
        cases items with
        | none => rfl
        | some items => rfl

/-- The decoded zip path, with its fragment, that a link is resolved to. -/
def SourceLink.resolved (link : SourceLink) : String :=
  link.href?.elim "" (resolveNavHref (directoryOf link.docPath))

/-- What is published of a link of a document. -/
def publishLink (link : SourceLink) : PublishedHref := publishHref link.resolved

/-- **The published tree is that of the document**, with what is published of each link in its
place. -/
theorem publishedToc_eq (opfPath : String) (package : Opf.OpfPackage) :
    publishedToc readXml zip limits xmlLimits opfPath package =
      (sourceToc readXml zip limits xmlLimits opfPath package).map (mapItems publishLink) := by
  have hreader : resolving = fun docPath => (asGiven docPath).map SourceLink.resolved := rfl
  rw [publishedToc, sourceToc, hreader, map_parseToc]
  cases parseToc readXml zip limits xmlLimits asGiven opfPath package with
  | error e => rfl
  | ok items => exact congrArg Except.ok (mapItems_mapItems _ _ items)

end Toc

end Epub

end TuxBooks
