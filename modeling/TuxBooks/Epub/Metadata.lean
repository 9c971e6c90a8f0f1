import Mathlib.Data.List.Basic
import TuxBooks.Epub.Archive
import TuxBooks.Lib.Fallible
import TuxBooks.Lib.Table
import TuxBooks.Library.Membership

set_option relaxedAutoImplicit false
set_option autoImplicit false

/-!
# Reading the package document

`parse_opf` over the events that the XML reader reports: bibliographic metadata, the manifest and
the spine. Only metadata strings and the depth of nesting are bounded. Decoding text and attribute
values, and reading decimal numbers, are the library's.

## Main definitions

* `TuxBooks.Epub.XmlEvent` — what the reader reports.
* `TuxBooks.Epub.OpfState`, `TuxBooks.Epub.OpfState.step` — the parser and one event.
* `TuxBooks.Epub.parseOpf` — the whole document.

## Main results

* `TuxBooks.Epub.parseOpf_metadata` — every title, creator and subject that is read is trimmed and
  not empty.
-/

namespace TuxBooks

namespace Epub

open Fallible

/-! ## Events and results -/

/-- An attribute: its qualified name, and its value unless that does not decode. -/
abbrev Attributes := List (String × Option String)

/-- What the reader reports. The names are qualified names. -/
inductive XmlEvent where
  | start (name : String) (attrs : Attributes)
  | empty (name : String) (attrs : Attributes)
  /-- Text or an entity reference, unless it does not decode. -/
  | text (content : Option String)
  | close (name : String)
  /-- Comments, declarations, instructions. -/
  | other
  | error (message : String)
  deriving DecidableEq

/-- The quotas on a package document. -/
structure XmlLimits where
  maxXmlBytes : ℕ
  maxXmlDepth : ℕ
  maxMetadataStringBytes : ℕ

namespace XmlLimits

/-- The documented baseline. -/
def defaults : XmlLimits where
  maxXmlBytes := 32 * 2 ^ 20
  maxXmlDepth := 512
  maxMetadataStringBytes := 2 ^ 20

def checkXmlBytes (limits : XmlLimits) (len : ℕ) : Except LimitExceeded Unit :=
  if len ≤ limits.maxXmlBytes then .ok () else .error ⟨"max_xml_bytes", s!"{len} bytes"⟩

def checkXmlDepth (limits : XmlLimits) (depth : ℕ) : Except LimitExceeded Unit :=
  if depth ≤ limits.maxXmlDepth then .ok () else .error ⟨"max_xml_depth", s!"depth {depth}"⟩

def checkMetadataString (limits : XmlLimits) (value : String) : Except LimitExceeded Unit :=
  if value.utf8ByteSize ≤ limits.maxMetadataStringBytes then .ok ()
  else .error ⟨"max_metadata_string_bytes", s!"{value.utf8ByteSize} bytes"⟩

end XmlLimits

/-- What reading a package document can fail with. -/
inductive OpfError where
  | opfXml (message : String)
  | manifestItemWithoutHref (id : String)
  | missingTitle
  | limit (exceeded : LimitExceeded)
  deriving DecidableEq

/-- A tripped quota as a failure to read. -/
def bounded {α : Type} : Except LimitExceeded α → Except OpfError α
  | .ok value => .ok value
  | .error exceeded => .error (.limit exceeded)

/-- Bibliographic metadata of the `<metadata>` section. -/
structure EpubMetadata where
  title : String := ""
  subtitle : Option String := none
  author : Option String := none
  authors : List String := []
  subjects : List String := []
  language : Option String := none
  publisher : Option String := none
  isbn : Option String := none
  description : Option String := none
  publicationDate : Option String := none
  series : Option String := none
  seriesIndex : Option ℚ := none
  deriving DecidableEq

namespace Opf

/-- A resource of the manifest, as the document gives it. -/
structure ManifestItem where
  href : String
  mediaType : String
  properties : List String
  deriving DecidableEq

/-- The whole package document. -/
structure OpfPackage where
  metadata : EpubMetadata
  manifest : Table String ManifestItem
  /-- The ids of the spine in reading order. -/
  spine : List String
  spineToc : Option String
  legacyCoverId : Option String

end Opf

/-! ## Names and attributes -/

/-- What follows the last colon of a qualified name. -/
def localName (name : String) : String :=
  String.ofList ((name.toList.reverse.takeWhile (· ≠ ':')).reverse)

def eqIgnoreAsciiCase (left right : String) : Bool :=
  left.toList.map Char.toLower == right.toList.map Char.toLower

/-- The first attribute of that local name whose value decodes. -/
def attributeValue (attrs : Attributes) (name : String) : Option String :=
  attrs.findSome? fun attr => if eqIgnoreAsciiCase (localName attr.1) name then attr.2 else none

/-- `str::split_whitespace`. -/
def splitWhitespace (text : String) : List String :=
  ((text.toList.splitOnP isWhite).filter (· ≠ [])).map String.ofList

/-! ## The parser -/

/-- The metadata element whose text is being gathered. -/
inductive TextTarget where
  | title
  | creator
  | subject
  | date
  | language
  | publisher
  | description
  | isbn
  | titleType
  deriving DecidableEq

structure OpfState where
  depth : ℕ := 0
  metadata : EpubMetadata := {}
  manifest : Table String Opf.ManifestItem := ∅
  spine : List String := []
  spineToc : Option String := none
  legacyCoverId : Option String := none
  seriesIndexRaw : Option String := none
  /-- `metadata`, `manifest` or `spine`. -/
  openSection : Option String := none
  textTarget : Option TextTarget := none
  textBuf : String := ""
  /-- The titles in their order, each with its `id`. -/
  titles : List (Option String × String) := []
  /-- The ids that a `title-type` marks as subtitles. -/
  subtitleTitleIds : List String := []
  textElementId : Option String := none
  pendingRefines : Option String := none

namespace OpfState

/-- Start to gather text. -/
def gather (st : OpfState) (target : TextTarget) (id : Option String) : OpfState :=
  { st with textTarget := some target, textElementId := id, textBuf := "" }

/-- `<meta name="cover" content="...">`. -/
def legacyCoverMeta (st : OpfState) (attrs : Attributes) : OpfState :=
  match attributeValue attrs "name", attributeValue attrs "content" with
  | some "cover", some content => { st with legacyCoverId := some content }
  | _, _ => st

/-- The series of Calibre and its index, which stays raw until the end. -/
def calibreMeta (limits : XmlLimits) (st : OpfState) (attrs : Attributes) :
    Except OpfError OpfState :=
  match attributeValue attrs "name", attributeValue attrs "content" with
  | some "calibre:series", some value =>
    if trim value = "" then .ok st
    else do
      bounded (limits.checkMetadataString (trim value))
      return { st with metadata := { st.metadata with series := some (trim value) } }
  | some "calibre:series_index", some value =>
    if trim value = "" then .ok st
    else do
      bounded (limits.checkMetadataString (trim value))
      return { st with seriesIndexRaw := some (trim value) }
  | _, _ => .ok st

def insertManifestItem (st : OpfState) (attrs : Attributes) : Except OpfError OpfState :=
  match attributeValue attrs "id" with
  | none => .error (.manifestItemWithoutHref "(no id)")
  | some id =>
    match attributeValue attrs "href" with
    | none => .error (.manifestItemWithoutHref id)
    | some href =>
      let item : Opf.ManifestItem :=
        { href := href
          mediaType := (attributeValue attrs "media-type").getD ""
          properties := ((attributeValue attrs "properties").map splitWhitespace).getD [] }
      .ok { st with manifest := st.manifest.insert id item }

def itemref (st : OpfState) (attrs : Attributes) : OpfState :=
  match attributeValue attrs "idref" with
  | some idref => { st with spine := st.spine ++ [idref] }
  | none => st

/-- The elements of `<metadata>` whose text is gathered as it is. -/
def plainTarget : String → Option TextTarget
  | "creator" => some .creator
  | "subject" => some .subject
  | "date" => some .date
  | "language" => some .language
  | "publisher" => some .publisher
  | "description" => some .description
  | _ => none

/-- An element opens inside `<metadata>`. -/
def startMetadata (limits : XmlLimits) (st : OpfState) (name : String) (attrs : Attributes) :
    Except OpfError OpfState :=
  match plainTarget name with
  | some target => .ok (st.gather target none)
  | none =>
    if name = "title" then .ok (st.gather .title (attributeValue attrs "id"))
    else if name = "identifier" then
      .ok (if (attributeValue attrs "scheme").any (eqIgnoreAsciiCase · "isbn") ∧
          st.metadata.isbn = none then st.gather .isbn none
        else st)
    else if name = "meta" then do
      let st ← (st.legacyCoverMeta attrs).calibreMeta limits attrs
      return if attributeValue attrs "property" = some "title-type" then
          { st with
            textTarget := some .titleType
            pendingRefines := attributeValue attrs "refines"
            textBuf := "" }
        else st
    else .ok st

def start (limits : XmlLimits) (st : OpfState) (name : String) (attrs : Attributes) :
    Except OpfError OpfState := do
  let st := { st with depth := st.depth + 1 }
  bounded (limits.checkXmlDepth st.depth)
  match st.openSection with
  | none =>
    if name = "metadata" ∨ name = "manifest" then .ok { st with openSection := some name }
    else if name = "spine" then
      .ok { st with openSection := some name, spineToc := attributeValue attrs "toc" }
    else .ok st
  | some opened =>
    if opened = "metadata" then st.startMetadata limits name attrs
    else if opened = "manifest" ∧ name = "item" then st.insertManifestItem attrs
    else if opened = "spine" ∧ name = "itemref" then .ok (st.itemref attrs)
    else .ok st

/-- An element without content. -/
def emptyElement (limits : XmlLimits) (st : OpfState) (name : String) (attrs : Attributes) :
    Except OpfError OpfState :=
  if st.openSection = some "metadata" ∧ name = "meta" then
    (st.legacyCoverMeta attrs).calibreMeta limits attrs
  else if st.openSection = some "manifest" ∧ name = "item" then st.insertManifestItem attrs
  else if st.openSection = some "spine" ∧ name = "itemref" then .ok (st.itemref attrs)
  else .ok st

/-- Keep a metadata string that was gathered. -/
def keep (st : OpfState) (target : TextTarget) (id refines : Option String) (value : String) :
    OpfState :=
  match target with
  | .title => { st with titles := st.titles ++ [(id, value)] }
  | .creator => { st with metadata := { st.metadata with
      authors := st.metadata.authors ++ [value] } }
  | .subject =>
    { st with metadata := { st.metadata with subjects := st.metadata.subjects ++ [value] } }
  | .date =>
    { st with metadata := { st.metadata with
        publicationDate := st.metadata.publicationDate.or (some value) } }
  | .language => { st with metadata := { st.metadata with language := some value } }
  | .publisher => { st with metadata := { st.metadata with publisher := some value } }
  | .description => { st with metadata := { st.metadata with description := some value } }
  | .isbn => { st with metadata := { st.metadata with isbn := some value } }
  | .titleType =>
    match refines.map String.toList with
    | some ('#' :: id) =>
      if value = "subtitle" then
        { st with subtitleTitleIds := st.subtitleTitleIds ++ [String.ofList id] }
      else st
    | _ => st

/-- The text of an element is complete. -/
def finishText (limits : XmlLimits) (st : OpfState) : Except OpfError OpfState :=
  match st.textTarget with
  | none => .ok st
  | some target =>
    let cleared := { st with
      textTarget := none, textElementId := none, pendingRefines := none, textBuf := "" }
    let value := trim st.textBuf
    if value = "" then .ok cleared
    else do
      bounded (limits.checkMetadataString value)
      return cleared.keep target st.textElementId st.pendingRefines value

def close (limits : XmlLimits) (st : OpfState) (name : String) : Except OpfError OpfState := do
  let st ← finishText limits { st with depth := st.depth - 1 }
  return if st.openSection = some name then { st with openSection := none } else st

/-- One event. -/
def step (limits : XmlLimits) (st : OpfState) : XmlEvent → Except OpfError OpfState
  | .start name attrs => st.start limits (localName name) attrs
  | .empty name attrs => st.emptyElement limits (localName name) attrs
  | .text content =>
    .ok (if st.textTarget.isSome then { st with textBuf := st.textBuf ++ content.getD "" } else st)
  | .close name => st.close limits (localName name)
  | .other => .ok st
  | .error message => .error (.opfXml message)

/-- The first title that is not marked as a subtitle, and the first one that is. -/
def resolveTitle (marked : List String) (metadata : EpubMetadata) (title : Option String × String) :
    EpubMetadata :=
  if title.1.any marked.contains then
    { metadata with subtitle := metadata.subtitle.or (some title.2) }
  else if metadata.title = "" then { metadata with title := title.2 }
  else metadata

/-- The package that the events described. `parseFloat` is `str::parse::<f64>`. -/
def finish (parseFloat : String → Option ℚ) (st : OpfState) : Except OpfError Opf.OpfPackage :=
  let metadata := st.titles.foldl (resolveTitle st.subtitleTitleIds) st.metadata
  let metadata := { metadata with
    author := metadata.authors.head?
    seriesIndex := (st.seriesIndexRaw.bind fun raw =>
      parseFloat (trim (String.ofList (raw.toList.map fun c => if c = ',' then '.' else c)))).or
        metadata.seriesIndex }
  if metadata.title = "" then .error .missingTitle
  else .ok ⟨metadata, st.manifest, st.spine, st.spineToc, st.legacyCoverId⟩

/-! ## What is kept -/

/-- A metadata string as it is kept. -/
def Trimmed (value : String) : Prop := value ≠ "" ∧ trim value = value

/-- The strings that are kept so far. -/
structure Tidy (st : OpfState) : Prop where
  titles : ∀ title ∈ st.titles, Trimmed title.2
  authors : ∀ author ∈ st.metadata.authors, Trimmed author
  subjects : ∀ subject ∈ st.metadata.subjects, Trimmed subject
  title : st.metadata.title = ""

/-- No title, creator or subject is added. -/
structure Quiet (st st' : OpfState) : Prop where
  titles : st'.titles = st.titles
  authors : st'.metadata.authors = st.metadata.authors
  subjects : st'.metadata.subjects = st.metadata.subjects
  title : st'.metadata.title = st.metadata.title

lemma Quiet.refl (st : OpfState) : Quiet st st := ⟨rfl, rfl, rfl, rfl⟩

lemma Quiet.trans {st st' st'' : OpfState} (h : Quiet st st') (h' : Quiet st' st'') :
    Quiet st st'' :=
  ⟨h'.titles.trans h.titles, h'.authors.trans h.authors, h'.subjects.trans h.subjects,
    h'.title.trans h.title⟩

lemma Tidy.quiet {st st' : OpfState} (h : st.Tidy) (hquiet : Quiet st st') : st'.Tidy where
  titles := hquiet.titles ▸ h.titles
  authors := hquiet.authors ▸ h.authors
  subjects := hquiet.subjects ▸ h.subjects
  title := hquiet.title.trans h.title

section Quiet

variable {limits : XmlLimits} {st st' : OpfState} {name : String} {attrs : Attributes}

lemma quiet_legacyCoverMeta (st : OpfState) (attrs : Attributes) :
    Quiet st (st.legacyCoverMeta attrs) := by
  unfold legacyCoverMeta
  split <;> exact ⟨rfl, rfl, rfl, rfl⟩

lemma quiet_itemref (st : OpfState) (attrs : Attributes) : Quiet st (st.itemref attrs) := by
  unfold itemref
  split <;> exact ⟨rfl, rfl, rfl, rfl⟩

lemma quiet_insertManifestItem (h : st.insertManifestItem attrs = .ok st') : Quiet st st' := by
  unfold insertManifestItem at h
  split at h
  · cases h
  · split at h
    · cases h
    · obtain rfl := Except.ok.inj h
      exact ⟨rfl, rfl, rfl, rfl⟩

lemma quiet_calibreMeta (h : st.calibreMeta limits attrs = .ok st') : Quiet st st' := by
  unfold calibreMeta at h
  split at h
  · split at h
    · obtain rfl := Except.ok.inj h
      exact Quiet.refl st
    · obtain ⟨_, _, h⟩ := bind_eq_ok h
      obtain rfl := Except.ok.inj h
      exact ⟨rfl, rfl, rfl, rfl⟩
  · split at h
    · obtain rfl := Except.ok.inj h
      exact Quiet.refl st
    · obtain ⟨_, _, h⟩ := bind_eq_ok h
      obtain rfl := Except.ok.inj h
      exact ⟨rfl, rfl, rfl, rfl⟩
  · obtain rfl := Except.ok.inj h
    exact Quiet.refl st

lemma quiet_startMetadata (h : st.startMetadata limits name attrs = .ok st') : Quiet st st' := by
  unfold startMetadata at h
  split at h
  · obtain rfl := Except.ok.inj h
    exact ⟨rfl, rfl, rfl, rfl⟩
  · by_cases htitle : name = "title"
    · rw [if_pos htitle] at h
      obtain rfl := Except.ok.inj h
      exact ⟨rfl, rfl, rfl, rfl⟩
    rw [if_neg htitle] at h
    by_cases hidentifier : name = "identifier"
    · rw [if_pos hidentifier] at h
      obtain rfl := Except.ok.inj h
      split <;> exact ⟨rfl, rfl, rfl, rfl⟩
    rw [if_neg hidentifier] at h
    by_cases hmeta : name = "meta"
    · rw [if_pos hmeta] at h
      obtain ⟨st'', hmeta, h⟩ := bind_eq_ok h
      refine ((quiet_legacyCoverMeta st attrs).trans (quiet_calibreMeta hmeta)).trans ?_
      obtain rfl := Except.ok.inj h
      split <;> exact ⟨rfl, rfl, rfl, rfl⟩
    · rw [if_neg hmeta] at h
      obtain rfl := Except.ok.inj h
      exact Quiet.refl st

lemma quiet_start (h : st.start limits name attrs = .ok st') : Quiet st st' := by
  obtain ⟨_, _, h⟩ := bind_eq_ok h
  have hdepth : Quiet st { st with depth := st.depth + 1 } := ⟨rfl, rfl, rfl, rfl⟩
  refine hdepth.trans ?_
  generalize ({ st with depth := st.depth + 1 } : OpfState) = deeper at h
  cases hopen : deeper.openSection with
  | none =>
    simp only [hopen] at h
    split_ifs at h <;> obtain rfl := Except.ok.inj h <;> exact ⟨rfl, rfl, rfl, rfl⟩
  | some opened =>
    simp only [hopen] at h
    split_ifs at h
    · exact quiet_startMetadata h
    · exact quiet_insertManifestItem h
    · obtain rfl := Except.ok.inj h
      exact quiet_itemref deeper attrs
    · obtain rfl := Except.ok.inj h
      exact Quiet.refl deeper

lemma quiet_emptyElement (h : st.emptyElement limits name attrs = .ok st') : Quiet st st' := by
  unfold emptyElement at h
  split_ifs at h
  · exact (quiet_legacyCoverMeta st attrs).trans (quiet_calibreMeta h)
  · exact quiet_insertManifestItem h
  · obtain rfl := Except.ok.inj h
    exact quiet_itemref st attrs
  · obtain rfl := Except.ok.inj h
    exact Quiet.refl st

end Quiet

section Kept

variable {limits : XmlLimits} {st st' : OpfState}

lemma forall_mem_concat {α : Type} {p : α → Prop} {items : List α} {item : α}
    (h : ∀ a ∈ items, p a) (hitem : p item) : ∀ a ∈ items ++ [item], p a := by
  rw [List.forall_mem_append]
  exact ⟨h, by simpa using hitem⟩

/-- What is kept was trimmed before. -/
lemma Tidy.keep (h : st.Tidy) (target : TextTarget) (id refines : Option String) {value : String}
    (hvalue : Trimmed value) : (st.keep target id refines value).Tidy := by
  cases target with
  | title => exact ⟨forall_mem_concat h.titles hvalue, h.authors, h.subjects, h.title⟩
  | creator => exact ⟨h.titles, forall_mem_concat h.authors hvalue, h.subjects, h.title⟩
  | subject => exact ⟨h.titles, h.authors, forall_mem_concat h.subjects hvalue, h.title⟩
  | titleType =>
    unfold OpfState.keep
    dsimp only
    split
    · split
      · exact ⟨h.titles, h.authors, h.subjects, h.title⟩
      · exact h
    · exact h
  | _ => exact ⟨h.titles, h.authors, h.subjects, h.title⟩

lemma Tidy.finishText (h : st.Tidy) (hfinish : st.finishText limits = .ok st') : st'.Tidy := by
  unfold OpfState.finishText at hfinish
  split at hfinish
  · obtain rfl := Except.ok.inj hfinish
    exact h
  · next target _ =>
    have hcleared : Tidy { st with
        textTarget := none, textElementId := none, pendingRefines := none, textBuf := "" } :=
      h.quiet ⟨rfl, rfl, rfl, rfl⟩
    dsimp only at hfinish
    split_ifs at hfinish with hvalue
    · obtain rfl := Except.ok.inj hfinish
      exact hcleared
    · obtain ⟨_, _, hfinish⟩ := bind_eq_ok hfinish
      obtain rfl := Except.ok.inj hfinish
      exact hcleared.keep target _ _ ⟨hvalue, trim_trim _⟩

/-- Every event keeps the strings trimmed. -/
lemma Tidy.step (h : st.Tidy) {event : XmlEvent} (hstep : st.step limits event = .ok st') :
    st'.Tidy := by
  cases event with
  | start name attrs => exact h.quiet (quiet_start hstep)
  | empty name attrs => exact h.quiet (quiet_emptyElement hstep)
  | text content =>
    obtain rfl := Except.ok.inj hstep
    split
    · exact h.quiet ⟨rfl, rfl, rfl, rfl⟩
    · exact h
  | close name =>
    obtain ⟨st'', hfinish, hclose⟩ := bind_eq_ok hstep
    have hdeep : Tidy { st with depth := st.depth - 1 } := h.quiet ⟨rfl, rfl, rfl, rfl⟩
    have htidy := hdeep.finishText hfinish
    obtain rfl := Except.ok.inj hclose
    split
    · exact htidy.quiet ⟨rfl, rfl, rfl, rfl⟩
    · exact htidy
  | other =>
    obtain rfl := Except.ok.inj hstep
    exact h
  | error message => cases hstep

lemma Tidy.run (h : st.Tidy) {events : List XmlEvent}
    (hrun : events.foldlM (OpfState.step limits) st = .ok st') : st'.Tidy := by
  induction events generalizing st with
  | nil =>
    obtain rfl := Except.ok.inj hrun
    exact h
  | cons event events ih =>
    obtain ⟨next, hstep, hrest⟩ := bind_eq_ok hrun
    exact ih (h.step hstep) hrest

/-- The title is one of the titles that were kept. -/
lemma resolveTitles (marked : List String) {titles : List (Option String × String)}
    (h : ∀ title ∈ titles, Trimmed title.2) {metadata : EpubMetadata}
    (hmetadata : metadata.title = "" ∨ Trimmed metadata.title) :
    let resolved := titles.foldl (resolveTitle marked) metadata
    (resolved.title = "" ∨ Trimmed resolved.title) ∧ resolved.authors = metadata.authors ∧
      resolved.subjects = metadata.subjects := by
  induction titles generalizing metadata with
  | nil => exact ⟨hmetadata, rfl, rfl⟩
  | cons title titles ih =>
    obtain ⟨htitle, htitles⟩ := List.forall_mem_cons.mp h
    have hone : ((resolveTitle marked metadata title).title = "" ∨
        Trimmed (resolveTitle marked metadata title).title) ∧
        (resolveTitle marked metadata title).authors = metadata.authors ∧
        (resolveTitle marked metadata title).subjects = metadata.subjects := by
      unfold resolveTitle
      split_ifs
      · exact ⟨hmetadata, rfl, rfl⟩
      · exact ⟨Or.inr htitle, rfl, rfl⟩
      · exact ⟨hmetadata, rfl, rfl⟩
    obtain ⟨hrest, hauthors, hsubjects⟩ := ih htitles hone.1
    exact ⟨hrest, hauthors.trans hone.2.1, hsubjects.trans hone.2.2⟩

end Kept

end OpfState

/-- Parse a package document of `len` bytes from its events. -/
def parseOpf (parseFloat : String → Option ℚ) (limits : XmlLimits) (len : ℕ)
    (events : List XmlEvent) : Except OpfError Opf.OpfPackage := do
  bounded (limits.checkXmlBytes len)
  let st ← events.foldlM (OpfState.step limits) {}
  st.finish parseFloat

/-- **Every title, creator and subject that is read is trimmed and not empty.** -/
theorem parseOpf_metadata {parseFloat : String → Option ℚ} {limits : XmlLimits} {len : ℕ}
    {events : List XmlEvent} {package : Opf.OpfPackage}
    (h : parseOpf parseFloat limits len events = .ok package) :
    OpfState.Trimmed package.metadata.title ∧
      (∀ author ∈ package.metadata.authors, OpfState.Trimmed author) ∧
      ∀ subject ∈ package.metadata.subjects, OpfState.Trimmed subject := by
  obtain ⟨_, _, h⟩ := bind_eq_ok h
  obtain ⟨st, hrun, h⟩ := bind_eq_ok h
  have hempty : OpfState.Tidy {} := ⟨by simp, by simp, by simp, rfl⟩
  have htidy := hempty.run hrun
  obtain ⟨htitle, hauthors, hsubjects⟩ :=
    OpfState.resolveTitles st.subtitleTitleIds htidy.titles (Or.inl htidy.title)
  unfold OpfState.finish at h
  dsimp only at h
  split_ifs at h with hblank
  obtain rfl := Except.ok.inj h
  exact ⟨htitle.resolve_left hblank, hauthors ▸ htidy.authors, hsubjects ▸ htidy.subjects⟩

end Epub

end TuxBooks
