import TuxBooks.Epub.Embedding

set_option relaxedAutoImplicit false
set_option autoImplicit false

/-!
# Reading back what was written

The reader of `sidecar/src/epub/metadata.rs` over a document that `sidecar/src/epub/writer.rs`
wrote. The generated elements come first in the section, so that the reader has all of the managed
fields when it meets the children that were kept; those can add an ISBN, and mark titles as
subtitles, and nothing else. Around the section the reader goes through the same sections at the
same depth as in the document that was written over.

## Main definitions

* `TuxBooks.Epub.readTokens` — the reader on a document.
* `TuxBooks.Epub.OpfState.Normalized` — metadata as the reader itself would give it.

## Main results

* `TuxBooks.Epub.OpfState.leads_generateChildren`, `TuxBooks.Epub.OpfState.leads_kept` — what the
  reader has after the generated elements, and what the children that were kept leave of it.
* `TuxBooks.Epub.reads_back` — the managed fields are read as they were written.
-/

namespace TuxBooks

namespace Epub

open Fallible

/-! ## Runs of the reader -/

/-- A tripped quota. -/
def IsLimit : OpfError → Prop
  | .limit _ => True
  | _ => False

/-- The events of some tokens. -/
def events (tokens : List XmlToken) : List XmlEvent := tokens.map (·.event)

/-- The reader on a document. -/
def readTokens (parseFloat : String → Option ℚ) (limits : XmlLimits) (tokens : List XmlToken) :
    Except OpfError Opf.OpfPackage :=
  parseOpf parseFloat limits (tokens.map (·.raw.utf8ByteSize)).sum (events tokens)

namespace OpfState

variable {limits : XmlLimits} {st : OpfState}

/-- The reader trips a quota over some tokens, or comes to a state as it should be. -/
def Leads (limits : XmlLimits) (tokens : List XmlToken) (post : OpfState → Prop)
    (st : OpfState) : Prop :=
  Ends IsLimit post ((events tokens).foldlM (OpfState.step limits) st)

lemma Leads.nil {post : OpfState → Prop} (h : post st) : Leads limits [] post st := .ok h

lemma Leads.mono {tokens : List XmlToken} {post post' : OpfState → Prop}
    (h : Leads limits tokens post st) (himp : ∀ st', post st' → post' st') :
    Leads limits tokens post' st :=
  Ends.mono h himp

lemma Leads.append {tokens tokens' : List XmlToken} {mid post : OpfState → Prop}
    (h : Leads limits tokens mid st) (h' : ∀ st', mid st' → Leads limits tokens' post st') :
    Leads limits (tokens ++ tokens') post st := by
  rw [Leads, events, List.map_append]
  exact Ends.foldlM_append h h'

lemma Leads.cons {token : XmlToken} {tokens : List XmlToken} {mid post : OpfState → Prop}
    (h : Ends IsLimit mid (st.step limits token.event))
    (h' : ∀ st', mid st' → Leads limits tokens post st') :
    Leads limits (token :: tokens) post st := by
  rw [Leads, events, List.map_cons, List.foldlM_cons]
  exact h.bind h'

/-- From the state that the first tokens lead to. -/
lemma Leads.andThen {tokens tokens' : List XmlToken} {mid : OpfState} {post : OpfState → Prop}
    (h : Leads limits tokens (· = mid) st) (h' : Leads limits tokens' post mid) :
    Leads limits (tokens ++ tokens') post st :=
  h.append fun _ hmid => hmid ▸ h'

/-- A check of a quota goes wrong in one way only. -/
lemma ends_bounded (check : Except LimitExceeded Unit) :
    Ends IsLimit (fun _ => True) (bounded check) := by
  cases check with
  | ok _ => exact .ok trivial
  | error _ => exact .error trivial

/-! ## The generated elements -/

/-- Inside the metadata section, and not inside an element that is read. -/
structure Idle (st : OpfState) : Prop where
  openSection : st.openSection = some "metadata"
  textTarget : st.textTarget = none
  textElementId : st.textElementId = none
  pendingRefines : st.pendingRefines = none
  textBuf : st.textBuf = ""

/-- An element is open whose text is gathered. -/
def opened (st : OpfState) (target : TextTarget) (id refines : Option String) : OpfState :=
  { st with
    depth := st.depth + 1
    textTarget := some target
    textElementId := id
    pendingRefines := refines
    textBuf := "" }

/-- The reader stands where it stood, and gathers what it gathered. -/
structure Stays (st st' : OpfState) : Prop where
  depth : st'.depth = st.depth
  openSection : st'.openSection = st.openSection
  textTarget : st'.textTarget = st.textTarget
  textElementId : st'.textElementId = st.textElementId
  pendingRefines : st'.pendingRefines = st.pendingRefines
  textBuf : st'.textBuf = st.textBuf

/-- Keeping a text changes nothing of that. -/
lemma stays_keep (st : OpfState) (target : TextTarget) (id refines : Option String)
    (value : String) : Stays st (st.keep target id refines value) := by
  cases target with
  | titleType =>
    unfold OpfState.keep
    dsimp only
    split
    · split <;> exact ⟨rfl, rfl, rfl, rfl, rfl, rfl⟩
    · exact ⟨rfl, rfl, rfl, rfl, rfl, rfl⟩
  | _ => exact ⟨rfl, rfl, rfl, rfl, rfl, rfl⟩

lemma Idle.keep (h : st.Idle) (target : TextTarget) (id refines : Option String) (value : String) :
    (st.keep target id refines value).Idle := by
  have hstays := stays_keep st target id refines value
  exact ⟨hstays.openSection.trans h.openSection, hstays.textTarget.trans h.textTarget,
    hstays.textElementId.trans h.textElementId, hstays.pendingRefines.trans h.pendingRefines,
    hstays.textBuf.trans h.textBuf⟩

/-- The text of the open element is kept when it closes. -/
lemma ends_close {name value : String} {target : TextTarget} {id refines : Option String}
    (h : st.Idle) (hname : name ≠ "metadata") (hvalue : Trimmed value) :
    Ends IsLimit (· = st.keep target id refines value)
      (OpfState.close limits { st.opened target id refines with textBuf := value } name) := by
  have hclosed : ({ st.opened target id refines with
      depth := st.depth + 1 - 1, textTarget := none, textElementId := none,
      pendingRefines := none, textBuf := "" } : OpfState) = st := by
    obtain ⟨-, htarget, hid, hrefines, hbuf⟩ := h
    cases st
    simp only [opened, Nat.add_sub_cancel] at htarget hid hrefines hbuf ⊢
    rw [htarget, hid, hrefines, hbuf]
  have hkept : Ends IsLimit (· = st.keep target id refines value)
      (OpfState.finishText limits
        { st.opened target id refines with depth := st.depth + 1 - 1, textBuf := value }) := by
    rw [OpfState.finishText]
    simp only [opened, hvalue.2, if_neg hvalue.1] at hclosed ⊢
    rw [hclosed]
    exact (ends_bounded _).bind fun _ _ => .ok rfl
  apply hkept.bind
  rintro _ rfl
  have hopen := (h.keep target id refines value).openSection
  rw [hopen, if_neg (by simpa using hname.symm)]
  exact .ok rfl

/-- After an element with a text that is gathered, the text is kept. -/
lemma leads_leaf {escape : String → String} {name openRaw value : String} {attrs : Attributes}
    {target : TextTarget} {id refines : Option String} (h : st.Idle)
    (hname : localName name ≠ "metadata")
    (hopen : Ends IsLimit (· = st.opened target id refines)
      (st.start limits (localName name) attrs))
    (hvalue : Trimmed value) :
    Leads limits (leaf escape name attrs openRaw value)
      (· = st.keep target id refines value) st := by
  have htext : (st.opened target id refines).step limits (.text (some value)) =
      .ok { st.opened target id refines with textBuf := value } := by
    simp [OpfState.step, opened]
  have hread : Ends IsLimit (· = { st.opened target id refines with textBuf := value })
      ((st.opened target id refines).step limits (.text (some value))) := by
    rw [htext]
    exact .ok rfl
  have hclosed : Ends IsLimit (· = st.keep target id refines value)
      (OpfState.step limits { st.opened target id refines with textBuf := value }
        (.close name)) := by
    rw [OpfState.step]
    exact ends_close h hname hvalue
  rw [leaf, if_neg hvalue.1]
  apply Leads.cons hopen
  rintro _ rfl
  apply Leads.cons hread
  rintro _ rfl
  exact Leads.cons hclosed fun _ hkept => Leads.nil hkept

/-- An element opens in the section. -/
lemma ends_start {post : OpfState → Prop} {name : String} {attrs : Attributes}
    (h : st.openSection = some "metadata")
    (hopen : Ends IsLimit post
      (OpfState.startMetadata limits { st with depth := st.depth + 1 } name attrs)) :
    Ends IsLimit post (st.start limits name attrs) := by
  apply (ends_bounded _).bind
  intro _ _
  rw [h] at hopen
  simp only [h, if_true]
  exact hopen

/-- An element opens whose text is read as it is. -/
lemma ends_start_plain {name : String} {target : TextTarget} (attrs : Attributes) (h : st.Idle)
    (hname : plainTarget name = some target) :
    Ends IsLimit (· = st.opened target none none) (st.start limits name attrs) := by
  apply ends_start h.openSection
  rw [startMetadata, hname]
  apply Ends.ok
  rw [gather, opened]
  simp only [h.pendingRefines]

/-- The texts of one field, in their order. -/
def keepAll (st : OpfState) (target : TextTarget) (values : List String) : OpfState :=
  values.foldl (fun st value => st.keep target none none value) st

lemma Idle.keepAll (h : st.Idle) (target : TextTarget) (values : List String) :
    (st.keepAll target values).Idle := by
  induction values generalizing st with
  | nil => exact h
  | cons value values ih => exact ih (h.keep target none none value)

section Generated

variable {escape : String → String} {name : String} {target : TextTarget}

lemma leads_leaves (h : st.Idle) (hname : localName name ≠ "metadata")
    (htarget : plainTarget (localName name) = some target) {values : List String}
    (hvalues : ∀ value ∈ values, Trimmed value) :
    Leads limits (leaves escape name values) (· = st.keepAll target values) st := by
  have hall : (values.filter fun value => trim value ≠ "") = values := by
    rw [List.filter_eq_self]
    intro value hvalue
    have htrimmed := hvalues value hvalue
    simpa [htrimmed.2] using htrimmed.1
  rw [leaves, hall]
  clear hall
  induction values generalizing st with
  | nil => exact Leads.nil rfl
  | cons value values ih =>
    obtain ⟨hvalue, hrest⟩ := List.forall_mem_cons.mp hvalues
    have hfirst := @leads_leaf limits st escape name ("<" ++ name ++ ">") value [] target none none
      h hname (ends_start_plain [] h htarget) hvalue
    rw [List.flatMap_cons]
    apply hfirst.append
    rintro _ rfl
    exact ih (h.keep target none none value) hrest

lemma nonEmpty_eq {value : Option String} (h : ∀ text, value = some text → Trimmed text) :
    nonEmpty value = value := by
  cases value with
  | none => rfl
  | some text =>
    have htext := h text rfl
    simp [nonEmpty, htext.2, Option.filter, htext.1]

lemma leads_optionalLeaf (h : st.Idle) (hname : localName name ≠ "metadata")
    (htarget : plainTarget (localName name) = some target) {value : Option String}
    (hvalue : ∀ text, value = some text → Trimmed text) :
    Leads limits (optionalLeaf escape name value) (· = st.keepAll target value.toList) st := by
  rw [optionalLeaf, nonEmpty_eq hvalue]
  cases value with
  | none => exact Leads.nil rfl
  | some text =>
    exact leads_leaf h hname (ends_start_plain [] h htarget) (hvalue text rfl)

/-! ## The managed fields -/

/-- Metadata as the reader itself would give it. -/
structure Normalized (metadata : EpubMetadata) : Prop where
  title : Trimmed metadata.title
  subtitle : ∀ text, metadata.subtitle = some text → Trimmed text
  author : metadata.author = metadata.authors.head?
  authors : ∀ author ∈ metadata.authors, Trimmed author
  subjects : ∀ subject ∈ metadata.subjects, Trimmed subject
  language : ∀ text, metadata.language = some text → Trimmed text
  publisher : ∀ text, metadata.publisher = some text → Trimmed text
  isbn : ∀ text, metadata.isbn = some text → Trimmed text
  description : ∀ text, metadata.description = some text → Trimmed text
  publicationDate : ∀ text, metadata.publicationDate = some text → Trimmed text
  series : ∀ text, metadata.series = some text → Trimmed text
  seriesIndex : metadata.series = none → metadata.seriesIndex = none

variable {showFloat : ℚ → String} {metadata : EpubMetadata}

/-- The titles, and the mark that tells the second one from the first. -/
def readTitles (st : OpfState) (metadata : EpubMetadata) : OpfState :=
  let titled := st.keep .title (some "tuxbooks-title") none metadata.title
  metadata.subtitle.elim titled fun subtitle =>
    (titled.keep .title (some "tuxbooks-subtitle") none subtitle).keep .titleType none
      (some "#tuxbooks-subtitle") "subtitle"

lemma Idle.readTitles (h : st.Idle) : (st.readTitles metadata).Idle := by
  have htitled := h.keep .title (some "tuxbooks-title") none metadata.title
  rw [OpfState.readTitles]
  cases metadata.subtitle with
  | none => exact htitled
  | some subtitle =>
    have hsubtitled := htitled.keep .title (some "tuxbooks-subtitle") none subtitle
    exact hsubtitled.keep .titleType none (some "#tuxbooks-subtitle") "subtitle"

/-- A title opens, with its `id`. -/
lemma ends_start_title {name : String} {attrs : Attributes} {id : Option String} (h : st.Idle)
    (hname : name = "title") (hid : attributeValue attrs "id" = id) :
    Ends IsLimit (· = st.opened .title id none) (st.start limits name attrs) := by
  apply ends_start h.openSection
  rw [startMetadata, hname, ← hid]
  apply Ends.ok
  rw [gather, opened]
  simp only [h.pendingRefines]

/-- A refinement of a title opens. -/
lemma ends_start_titleType {name refines : String} (h : st.Idle) (hname : name = "meta") :
    Ends IsLimit (· = st.opened .titleType none (some refines))
      (st.start limits name [("refines", some refines), ("property", some "title-type")]) := by
  have hid : attributeValue [("refines", some refines), ("property", some "title-type")] "name" =
      none := by
    have hnames : eqIgnoreAsciiCase (localName "refines") "name" = false ∧
        eqIgnoreAsciiCase (localName "property") "name" = false := by decide
    simp [attributeValue, hnames.1, hnames.2]
  have hproperty : attributeValue
      [("refines", some refines), ("property", some "title-type")] "property" =
      some "title-type" := by
    have hnames : eqIgnoreAsciiCase (localName "refines") "property" = false ∧
        eqIgnoreAsciiCase (localName "property") "property" = true := by decide
    simp [attributeValue, hnames.1, hnames.2]
  have hrefines : attributeValue
      [("refines", some refines), ("property", some "title-type")] "refines" =
      some refines := by
    have hnames : eqIgnoreAsciiCase (localName "refines") "refines" = true := by decide
    simp [attributeValue, hnames]
  apply ends_start h.openSection
  rw [startMetadata, hname]
  simp only [plainTarget, legacyCoverMeta, calibreMeta, hid, hproperty, hrefines]
  rw [if_neg (by decide), if_neg (by decide), if_pos trivial]
  apply Ends.ok
  rw [opened]
  simp only [if_true, h.textElementId]

lemma leads_title {id openRaw value : String} (h : st.Idle) (hvalue : Trimmed value) :
    Leads limits (leaf escape "dc:title" [("id", some id)] openRaw value)
      (· = st.keep .title (some id) none value) st := by
  have hid : attributeValue [("id", some id)] "id" = some id := by
    have hnames : eqIgnoreAsciiCase (localName "id") "id" = true := by decide
    simp [attributeValue, hnames]
  exact leads_leaf h (by decide) (ends_start_title h (by decide) hid) hvalue

/-- The mark of a main title is read and not kept. -/
lemma keep_main (st : OpfState) (refines : String) :
    st.keep .titleType none (some refines) "main" = st := by
  unfold OpfState.keep
  dsimp only
  split
  · rw [if_neg (by decide)]
  · rfl

lemma leads_titleType {refines openRaw value : String} (h : st.Idle) (hvalue : Trimmed value) :
    Leads limits
      (leaf escape "meta" [("refines", some refines), ("property", some "title-type")] openRaw
        value)
      (· = st.keep .titleType none (some refines) value) st :=
  leads_leaf h (by decide) (ends_start_titleType h (by decide)) hvalue

lemma leads_titles (h : st.Idle) (hm : Normalized metadata) :
    Leads limits (titleChildren escape metadata ++ subtitleChildren escape metadata)
      (· = st.readTitles metadata) st := by
  have htitled := h.keep .title (some "tuxbooks-title") none metadata.title
  have hmain : Trimmed "main" := ⟨by decide, by decide⟩
  have hsub : Trimmed "subtitle" := ⟨by decide, by decide⟩
  refine Leads.andThen (leads_title h hm.title) ?_
  rw [subtitleChildren, readTitles, nonEmpty_eq hm.subtitle]
  cases hsubtitle : metadata.subtitle with
  | none => exact Leads.nil rfl
  | some subtitle =>
    have hsubtitled := htitled.keep .title (some "tuxbooks-subtitle") none subtitle
    have hmarked := @leads_titleType limits _ escape "#tuxbooks-title"
      "<meta refines=\"#tuxbooks-title\" property=\"title-type\">" "main" hsubtitled hmain
    rw [keep_main] at hmarked
    refine Leads.andThen (leads_title htitled (hm.subtitle subtitle hsubtitle)) ?_
    exact hmarked.andThen (leads_titleType hsubtitled hsub)

/-- An ISBN opens, as the first one. -/
lemma ends_start_isbn {name : String} {attrs : Attributes} (h : st.Idle)
    (hname : name = "identifier") (hscheme : attributeValue attrs "scheme" = some "ISBN")
    (hisbn : st.metadata.isbn = none) :
    Ends IsLimit (· = st.opened .isbn none none) (st.start limits name attrs) := by
  have hmatches : eqIgnoreAsciiCase "ISBN" "isbn" = true := by decide
  apply ends_start h.openSection
  rw [startMetadata, hname]
  simp only [plainTarget, hscheme, Option.any_some, hmatches, hisbn]
  rw [if_neg (by decide), if_pos trivial]
  apply Ends.ok
  rw [if_pos (by simp), gather, opened]
  simp only [h.pendingRefines]

lemma leads_isbnChildren (h : st.Idle) (hm : Normalized metadata)
    (hisbn : st.metadata.isbn = none) :
    Leads limits (isbnChildren escape metadata) (· = st.keepAll .isbn metadata.isbn.toList)
      st := by
  rw [isbnChildren, nonEmpty_eq hm.isbn]
  cases hvalue : metadata.isbn with
  | none => exact Leads.nil rfl
  | some isbn =>
    exact leads_leaf h (by decide)
      (ends_start_isbn h (by decide) (by decide) hisbn) (hm.isbn isbn hvalue)

/-- The series, and its index as it is written. -/
def readSeries (st : OpfState) (showFloat : ℚ → String) (metadata : EpubMetadata) : OpfState :=
  metadata.series.elim st fun series =>
    { st with
      metadata := { st.metadata with series := some series }
      seriesIndexRaw := (metadata.seriesIndex.map showFloat).or st.seriesIndexRaw }

/-- A `<meta>` of Calibre in the section. -/
lemma step_calibreMeta {name content : String} (written : String) (h : st.Idle)
    (hname : name ≠ "cover") :
    st.step limits (calibreMetaToken name content written).event =
      st.calibreMeta limits [("name", some name), ("content", some content)] := by
  have hmeta : localName "meta" = "meta" := by decide
  have hcover : st.legacyCoverMeta [("name", some name), ("content", some content)] = st := by
    rw [legacyCoverMeta, (attributeValue_calibre name content).1]
    split
    · next hsome _ => exact absurd (Option.some.inj hsome) hname
    · rfl
  rw [calibreMetaToken, OpfState.step, emptyElement, if_pos ⟨h.openSection, hmeta⟩, hcover]

lemma ends_series {series : String} (written : String) (h : st.Idle) (hseries : Trimmed series) :
    Ends IsLimit (· = { st with metadata := { st.metadata with series := some series } })
      (st.step limits (calibreMetaToken "calibre:series" series written).event) := by
  rw [step_calibreMeta written h (by decide), calibreMeta,
    (attributeValue_calibre _ series).1, (attributeValue_calibre _ series).2]
  simp only [hseries.2, if_neg hseries.1]
  exact (ends_bounded _).bind fun _ _ => .ok rfl

lemma ends_seriesIndex {index : String} (written : String) (h : st.Idle) (hindex : Trimmed index) :
    Ends IsLimit (· = { st with seriesIndexRaw := some index })
      (st.step limits (calibreMetaToken "calibre:series_index" index written).event) := by
  rw [step_calibreMeta written h (by decide), calibreMeta,
    (attributeValue_calibre _ index).1, (attributeValue_calibre _ index).2]
  simp only [hindex.2, if_neg hindex.1]
  exact (ends_bounded _).bind fun _ _ => .ok rfl

lemma leads_seriesChildren (h : st.Idle) (hm : Normalized metadata)
    (hshow : ∀ index, metadata.seriesIndex = some index → Trimmed (showFloat index)) :
    Leads limits (seriesChildren escape showFloat metadata)
      (· = st.readSeries showFloat metadata) st := by
  rw [seriesChildren, nonEmpty_eq hm.series, readSeries]
  cases hvalue : metadata.series with
  | none => exact Leads.nil rfl
  | some series =>
    apply Leads.cons (ends_series (escape series) h (hm.series series hvalue))
    rintro _ rfl
    have hnamed : Idle { st with metadata := { st.metadata with series := some series } } :=
      ⟨h.1, h.2, h.3, h.4, h.5⟩
    cases hindex : metadata.seriesIndex with
    | none => exact Leads.nil rfl
    | some index =>
      apply Leads.cons (ends_seriesIndex (showFloat index) hnamed (hshow index hindex))
      rintro _ rfl
      exact Leads.nil rfl

/-- All of the managed fields. -/
def readWritten (st : OpfState) (showFloat : ℚ → String) (metadata : EpubMetadata) : OpfState :=
  let named := ((st.readTitles metadata).keepAll .creator metadata.authors).keepAll .subject
    metadata.subjects
  let described := (named.keepAll .description metadata.description.toList).keepAll .publisher
    metadata.publisher.toList
  let dated := (described.keepAll .language metadata.language.toList).keepAll .date
    metadata.publicationDate.toList
  (dated.keepAll .isbn metadata.isbn.toList).readSeries showFloat metadata

lemma isbn_keepAll (htarget : target ≠ .isbn) (values : List String) :
    (st.keepAll target values).metadata.isbn = st.metadata.isbn := by
  induction values generalizing st with
  | nil => rfl
  | cons value values ih =>
    rw [keepAll, List.foldl_cons]
    refine (@ih (st.keep target none none value)).trans ?_
    cases target with
    | isbn => exact absurd rfl htarget
    | _ => rfl

lemma isbn_readTitles : (st.readTitles metadata).metadata.isbn = st.metadata.isbn := by
  rw [readTitles]
  cases metadata.subtitle <;> rfl

lemma writtenAuthors_eq (hm : Normalized metadata) :
    writtenAuthors metadata = metadata.authors := by
  rw [writtenAuthors, hm.author]
  split_ifs with hnil
  · rw [hnil]
    rfl
  · rfl

/-- **What the reader has after the generated elements.** -/
theorem leads_generateChildren (h : st.Idle) (hm : Normalized metadata)
    (hisbn : st.metadata.isbn = none)
    (hshow : ∀ index, metadata.seriesIndex = some index → Trimmed (showFloat index)) :
    Leads limits (generateChildren escape showFloat metadata)
      (· = st.readWritten showFloat metadata) st := by
  rw [generateChildren, writtenAuthors_eq hm]
  have htitles := @Idle.readTitles st metadata h
  have hcreators := htitles.keepAll .creator metadata.authors
  have hsubjects := hcreators.keepAll .subject metadata.subjects
  have hdescription := hsubjects.keepAll .description metadata.description.toList
  have hpublisher := hdescription.keepAll .publisher metadata.publisher.toList
  have hlanguage := hpublisher.keepAll .language metadata.language.toList
  have hdate := hlanguage.keepAll .date metadata.publicationDate.toList
  have hread := hdate.keepAll .isbn metadata.isbn.toList
  have hfirst : (((((((st.readTitles metadata).keepAll .creator metadata.authors).keepAll .subject
      metadata.subjects).keepAll .description metadata.description.toList).keepAll .publisher
      metadata.publisher.toList).keepAll .language metadata.language.toList).keepAll .date
      metadata.publicationDate.toList).metadata.isbn = none := by
    rw [isbn_keepAll (by decide), isbn_keepAll (by decide), isbn_keepAll (by decide),
      isbn_keepAll (by decide), isbn_keepAll (by decide), isbn_keepAll (by decide),
      isbn_readTitles, hisbn]
  refine Leads.andThen ?_ (leads_seriesChildren hread hm hshow)
  refine Leads.andThen ?_ (leads_isbnChildren hdate hm hfirst)
  refine Leads.andThen ?_ (leads_optionalLeaf hlanguage (by decide) rfl hm.publicationDate)
  refine Leads.andThen ?_ (leads_optionalLeaf hpublisher (by decide) rfl hm.language)
  refine Leads.andThen ?_ (leads_optionalLeaf hdescription (by decide) rfl hm.publisher)
  refine Leads.andThen ?_ (leads_optionalLeaf hsubjects (by decide) rfl hm.description)
  refine Leads.andThen ?_ (leads_leaves hcreators (by decide) rfl hm.subjects)
  refine Leads.andThen ?_ (leads_leaves htitles (by decide) rfl hm.authors)
  exact leads_titles h hm

/-- Nothing is read yet of the metadata. -/
structure Fresh (st : OpfState) : Prop where
  metadata : st.metadata = {}
  seriesIndexRaw : st.seriesIndexRaw = none
  titles : st.titles = []
  subtitleTitleIds : st.subtitleTitleIds = []

lemma keepAll_creator (values : List String) : st.keepAll .creator values =
    { st with metadata := { st.metadata with authors := st.metadata.authors ++ values } } := by
  induction values generalizing st with
  | nil => simp [keepAll]
  | cons value values ih =>
    refine (@ih (st.keep .creator none none value)).trans ?_
    simp [OpfState.keep]

lemma keepAll_subject (values : List String) : st.keepAll .subject values =
    { st with metadata := { st.metadata with subjects := st.metadata.subjects ++ values } } := by
  induction values generalizing st with
  | nil => simp [keepAll]
  | cons value values ih =>
    refine (@ih (st.keep .subject none none value)).trans ?_
    simp [OpfState.keep]

/-- A field of one text: the last one, but the first date. -/
lemma keepAll_toList (value : Option String) :
    st.keepAll .description value.toList =
      { st with metadata := { st.metadata with
        description := value.or st.metadata.description } } ∧
    st.keepAll .publisher value.toList =
      { st with metadata := { st.metadata with publisher := value.or st.metadata.publisher } } ∧
    st.keepAll .language value.toList =
      { st with metadata := { st.metadata with language := value.or st.metadata.language } } ∧
    st.keepAll .date value.toList =
      { st with metadata := { st.metadata with
        publicationDate := st.metadata.publicationDate.or value } } ∧
    st.keepAll .isbn value.toList =
      { st with metadata := { st.metadata with isbn := value.or st.metadata.isbn } } := by
  cases value with
  | none =>
    refine ⟨rfl, rfl, rfl, ?_, rfl⟩
    rw [Option.or_none]
    rfl
  | some text => exact ⟨rfl, rfl, rfl, rfl, rfl⟩

/-- The managed fields as the reader has them before the titles are told apart. -/
lemma readWritten_eq (h : st.Fresh) (hm : Normalized metadata) :
    st.readWritten showFloat metadata =
      { st with
        metadata := { metadata with
          title := "", subtitle := none, author := none, seriesIndex := none }
        seriesIndexRaw := metadata.seriesIndex.map showFloat
        titles := (some "tuxbooks-title", metadata.title) ::
          metadata.subtitle.toList.map (some "tuxbooks-subtitle", ·)
        subtitleTitleIds := metadata.subtitle.toList.map fun _ => "tuxbooks-subtitle" } := by
  have htitles : st.readTitles metadata =
      { st with
        titles := (some "tuxbooks-title", metadata.title) ::
          metadata.subtitle.toList.map (some "tuxbooks-subtitle", ·)
        subtitleTitleIds := metadata.subtitle.toList.map fun _ => "tuxbooks-subtitle" } := by
    rw [readTitles]
    cases metadata.subtitle with
    | none => simp [OpfState.keep, h.titles, h.subtitleTitleIds]
    | some subtitle => simp [OpfState.keep, h.titles, h.subtitleTitleIds]
  rw [readWritten]
  simp only [htitles, keepAll_creator, keepAll_subject, (keepAll_toList _).1,
    (keepAll_toList _).2.1, (keepAll_toList _).2.2.1, (keepAll_toList _).2.2.2.1,
    (keepAll_toList _).2.2.2.2, readSeries, h.metadata, h.seriesIndexRaw]
  cases hseries : metadata.series with
  | none => simp [hm.seriesIndex hseries]
  | some series => simp

end Generated

end OpfState

/-! ## The children that were kept -/

namespace SourceNodes

/-- The text up to the first closing tag. -/
def leadingText : SourceNodes → String
  | nil => ""
  | element _ _ _ _ children _ => children.leadingText
  | selfClosing _ _ _ rest | other _ rest => rest.leadingText
  | text content _ rest => content.getD "" ++ rest.leadingText

/-- No element marks the title that is written as a subtitle. -/
def KeepsTitle : SourceNodes → Prop
  | nil => True
  | element name attrs _ _ children rest =>
    (localName name = "meta" → attributeValue attrs "property" = some "title-type" →
      attributeValue attrs "refines" = some "#tuxbooks-title" →
      trim children.leadingText ≠ "subtitle") ∧ children.KeepsTitle ∧ rest.KeepsTitle
  | selfClosing _ _ _ rest | text _ _ rest | other _ rest => rest.KeepsTitle

/-- No element is an ISBN. -/
def NoIsbn : SourceNodes → Prop
  | nil => True
  | element name attrs _ _ children rest =>
    ¬(localName name = "identifier" ∧
      (attributeValue attrs "scheme").any (eqIgnoreAsciiCase · "isbn") = true) ∧
      children.NoIsbn ∧ rest.NoIsbn
  | selfClosing _ _ _ rest | text _ _ rest | other _ rest => rest.NoIsbn

end SourceNodes

namespace OpfState

variable {limits : XmlLimits} {st st' base : OpfState} {guarded : Prop} {uniqueId : Option String}
  {name : String} {attrs : Attributes}

/-- What the children that were kept cannot change: all of the managed fields, and the ISBN where
it is guarded. -/
structure Keeps (guarded : Prop) (base st : OpfState) : Prop where
  openSection : st.openSection = some "metadata"
  titles : st.titles = base.titles
  seriesIndexRaw : st.seriesIndexRaw = base.seriesIndexRaw
  metadata : { st.metadata with isbn := none } = { base.metadata with isbn := none }
  isbn : guarded → st.metadata.isbn = base.metadata.isbn
  marks : ∀ id ∈ base.subtitleTitleIds, id ∈ st.subtitleTitleIds
  title : "tuxbooks-title" ∉ st.subtitleTitleIds

/-- What is gathered, when some text follows before the next closing tag. -/
structure Gathers (guarded : Prop) (ahead : String) (st : OpfState) : Prop where
  target : st.textTarget = none ∨ (st.textTarget = some .isbn ∧ ¬guarded) ∨
    st.textTarget = some .titleType
  title : st.textTarget = some .titleType → st.pendingRefines = some "#tuxbooks-title" →
    trim (st.textBuf ++ ahead) ≠ "subtitle"

lemma Gathers.of_none {ahead : String} (h : st.textTarget = none) : Gathers guarded ahead st :=
  ⟨Or.inl h, fun htarget => by rw [h] at htarget; cases htarget⟩

/-- Only the cover of the package changes. -/
lemma legacyCoverMeta_eq (st : OpfState) (attrs : Attributes) :
    ∃ cover, st.legacyCoverMeta attrs = { st with legacyCoverId := cover } := by
  rw [legacyCoverMeta]
  split
  · exact ⟨_, rfl⟩
  · exact ⟨st.legacyCoverId, rfl⟩

/-- A `<meta>` that is kept is not one of Calibre. -/
lemma calibreMeta_of_unmanaged (hname : localName name = "meta")
    (h : isManaged uniqueId name attrs = false) : st.calibreMeta limits attrs = .ok st := by
  have hany : (attributeValue attrs "name").any (fun name =>
      name = "calibre:series" || name = "calibre:series_index") = false := by
    rw [isManaged_meta attrs hname] at h
    exact h
  rw [calibreMeta]
  split
  · next hvalue _ => simp [hvalue] at hany
  · next hvalue _ => simp [hvalue] at hany
  · rfl

/-- The elements that are read as they are have been taken out. -/
lemma plainTarget_of_unmanaged (h : isManaged uniqueId name attrs = false) :
    plainTarget (localName name) = none ∧ localName name ≠ "title" := by
  have hnames : localName name ∉
      ["title", "creator", "subject", "publisher", "language", "date", "description"] := by
    intro hmem
    rw [isManaged, if_pos hmem] at h
    cases h
  simp only [List.mem_cons, List.not_mem_nil, or_false, not_or] at hnames
  obtain ⟨htitle, hcreator, hsubject, hpublisher, hlanguage, hdate, hdescription⟩ := hnames
  exact ⟨plainTarget.eq_7 _ hcreator hsubject hdate hlanguage hpublisher hdescription, htitle⟩

/-- An element of a kept child opens. -/
lemma ends_start_kept {children rest : SourceNodes} (h : Keeps guarded base st)
    (hgathers : Gathers guarded (SourceNodes.element name attrs "" "" children rest).leadingText st)
    (hmanaged : isManaged uniqueId name attrs = false)
    (htitle : (SourceNodes.element name attrs "" "" children rest).KeepsTitle)
    (hisbn : guarded → base.metadata.isbn ≠ none ∨
      (SourceNodes.element name attrs "" "" children rest).NoIsbn) :
    Ends IsLimit (fun st' => Keeps guarded base st' ∧ Gathers guarded children.leadingText st')
      (st.start limits (localName name) attrs) := by
  have hdeep : Keeps guarded base { st with depth := st.depth + 1 } :=
    ⟨h.1, h.2, h.3, h.4, h.5, h.6, h.7⟩
  have hdeepGathers : Gathers guarded children.leadingText { st with depth := st.depth + 1 } :=
    ⟨hgathers.1, hgathers.2⟩
  apply ends_start h.openSection
  rw [startMetadata, (plainTarget_of_unmanaged hmanaged).1]
  simp only [(plainTarget_of_unmanaged hmanaged).2, if_false]
  by_cases hidentifier : localName name = "identifier"
  · rw [if_pos hidentifier]
    apply Ends.ok
    split_ifs with hgather
    · have hunguarded : ¬guarded := by
        intro hguarded
        rcases hisbn hguarded with hsome | hnone
        · exact hsome ((h.isbn hguarded).symm.trans hgather.2)
        · exact hnone.1 ⟨hidentifier, hgather.1⟩
      exact ⟨⟨h.1, h.2, h.3, h.4, h.5, h.6, h.7⟩, Or.inr (Or.inl ⟨rfl, hunguarded⟩),
        fun htarget => by cases htarget⟩
    · exact ⟨hdeep, hdeepGathers⟩
  · rw [if_neg hidentifier]
    by_cases hmeta : localName name = "meta"
    · rw [if_pos hmeta]
      obtain ⟨cover, hcover⟩ := legacyCoverMeta_eq { st with depth := st.depth + 1 } attrs
      rw [hcover, calibreMeta_of_unmanaged hmeta hmanaged]
      apply Ends.ok
      split_ifs with hproperty
      · refine ⟨⟨h.1, h.2, h.3, h.4, h.5, h.6, h.7⟩, Or.inr (Or.inr rfl), ?_⟩
        intro _ hrefines
        simpa using htitle.1 hmeta hproperty hrefines
      · exact ⟨⟨h.1, h.2, h.3, h.4, h.5, h.6, h.7⟩, hgathers.1, hgathers.2⟩
    · rw [if_neg hmeta]
      exact .ok ⟨hdeep, hdeepGathers⟩

/-- An element of a kept child without content. -/
lemma ends_empty_kept {ahead : String} (h : Keeps guarded base st)
    (hgathers : Gathers guarded ahead st) (hmanaged : isManaged uniqueId name attrs = false) :
    Ends IsLimit (fun st' => Keeps guarded base st' ∧ Gathers guarded ahead st' ∧
        st'.textTarget = st.textTarget)
      (st.emptyElement limits (localName name) attrs) := by
  rw [emptyElement]
  by_cases hmeta : localName name = "meta"
  · obtain ⟨cover, hcover⟩ := legacyCoverMeta_eq st attrs
    rw [if_pos ⟨h.openSection, hmeta⟩, hcover, calibreMeta_of_unmanaged hmeta hmanaged]
    exact .ok ⟨⟨h.1, h.2, h.3, h.4, h.5, h.6, h.7⟩, ⟨hgathers.1, hgathers.2⟩, rfl⟩
  · rw [if_neg (by simp [hmeta]), if_neg (by simp [h.openSection]),
      if_neg (by simp [h.openSection])]
    exact .ok ⟨h, hgathers, rfl⟩

/-- Keeping a text that a kept child may hold. -/
lemma Keeps.keep {target : TextTarget} {id refines : Option String} {value : String}
    (h : Keeps guarded base st)
    (htarget : target = .isbn ∧ ¬guarded ∨ target = .titleType)
    (htitle : target = .titleType → refines = some "#tuxbooks-title" → value ≠ "subtitle") :
    Keeps guarded base (st.keep target id refines value) := by
  rcases htarget with ⟨rfl, hunguarded⟩ | rfl
  · exact ⟨h.1, h.2, h.3, h.4, fun hguarded => absurd hguarded hunguarded, h.6, h.7⟩
  · unfold OpfState.keep
    dsimp only
    split
    · next marked hrefines =>
      split
      · next hvalue =>
        refine ⟨h.1, h.2, h.3, h.4, h.5, fun id hid => List.mem_append_left _ (h.6 id hid), ?_⟩
        rw [List.mem_append, List.mem_singleton]
        rintro (hmem | hmarked)
        · exact h.title hmem
        · apply htitle rfl _ hvalue
          obtain ⟨text, rfl, htext⟩ := Option.map_eq_some_iff.mp hrefines
          have hlist : marked = "tuxbooks-title".toList := by
            rw [hmarked, String.toList_ofList]
          rw [hlist] at htext
          exact congrArg some (String.toList_inj.mp htext)
      · exact h
    · exact h

/-- An element of a kept child closes. -/
lemma ends_close_kept (h : Keeps guarded base st) (hgathers : Gathers guarded "" st)
    (hname : name ≠ "metadata") :
    Ends IsLimit (fun st' => Keeps guarded base st' ∧ st'.textTarget = none)
      (st.close limits name) := by
  have hkept : Ends IsLimit (fun st' => Keeps guarded base st' ∧ st'.textTarget = none)
      (OpfState.finishText limits { st with depth := st.depth - 1 }) := by
    rw [OpfState.finishText]
    cases htarget : st.textTarget with
    | none => exact .ok ⟨⟨h.1, h.2, h.3, h.4, h.5, h.6, h.7⟩, rfl⟩
    | some target =>
      have hcleared : Keeps guarded base { st with
          depth := st.depth - 1, textTarget := none, textElementId := none
          pendingRefines := none, textBuf := "" } := ⟨h.1, h.2, h.3, h.4, h.5, h.6, h.7⟩
      dsimp only
      split_ifs with hblank
      · exact .ok ⟨hcleared, rfl⟩
      · apply (ends_bounded _).bind
        intro _ _
        have hkind : target = .isbn ∧ ¬guarded ∨ target = .titleType := by
          rcases hgathers.target with hnone | ⟨hisbn, hunguarded⟩ | htitle
          · rw [htarget] at hnone
            cases hnone
          · exact Or.inl ⟨Option.some.inj (htarget.symm.trans hisbn), hunguarded⟩
          · exact Or.inr (Option.some.inj (htarget.symm.trans htitle))
        refine .ok ⟨hcleared.keep hkind ?_, ?_⟩
        · rintro rfl hrefines
          simpa using hgathers.title htarget hrefines
        · exact (stays_keep _ target _ _ _).textTarget
  apply hkept.bind
  intro st' hst'
  rw [hst'.1.openSection, if_neg (by simpa using hname.symm)]
  exact .ok hst'

/-- **What the children that were kept leave as it was**, from a state where some text of an open
element is gathered. -/
theorem leads_kept {nodes : SourceNodes} (hclean : nodes.Clean uniqueId)
    (hinside : Fits nodes.tokens) (htitle : nodes.KeepsTitle)
    (hisbn : guarded → base.metadata.isbn ≠ none ∨ nodes.NoIsbn) (h : Keeps guarded base st)
    (hgathers : Gathers guarded nodes.leadingText st) :
    Leads limits nodes.tokens (fun st' => Keeps guarded base st' ∧ Gathers guarded "" st' ∧
      (st.textTarget = none → st'.textTarget = none)) st := by
  induction nodes generalizing st with
  | nil => exact Leads.nil ⟨h, hgathers, id⟩
  | element name attrs openRaw closeRaw children rest ihChildren ihRest =>
    obtain ⟨hmanaged, hcleanChildren, hcleanRest⟩ := hclean
    obtain ⟨_, htokens⟩ := List.forall_mem_cons.mp hinside
    obtain ⟨hchildren, htokens⟩ := List.forall_mem_append.mp htokens
    obtain ⟨hname, hrest⟩ := List.forall_mem_cons.mp htokens
    apply Leads.cons (ends_start_kept h hgathers hmanaged htitle hisbn)
    rintro st₁ ⟨h₁, hgathers₁⟩
    apply (ihChildren hcleanChildren hchildren htitle.2.1
      (fun hguarded => (hisbn hguarded).imp id fun hnone => hnone.2.1) h₁ hgathers₁).append
    rintro st₂ ⟨h₂, hgathers₂, _⟩
    apply Leads.cons (ends_close_kept h₂ hgathers₂ hname)
    rintro st₃ ⟨h₃, hidle⟩
    apply (ihRest hcleanRest hrest htitle.2.2
      (fun hguarded => (hisbn hguarded).imp id fun hnone => hnone.2.2) h₃
      (Gathers.of_none hidle)).mono
    exact fun st' hst' => ⟨hst'.1, hst'.2.1, fun _ => hst'.2.2 hidle⟩
  | selfClosing name attrs raw rest ih =>
    obtain ⟨_, hrest⟩ := List.forall_mem_cons.mp hinside
    apply Leads.cons (ends_empty_kept h hgathers hclean.1)
    rintro st₁ ⟨h₁, hgathers₁, hsame⟩
    rw [← hsame]
    exact ih hclean.2 hrest htitle hisbn h₁ hgathers₁
  | text content raw rest ih =>
    obtain ⟨_, hrest⟩ := List.forall_mem_cons.mp hinside
    obtain htarget | ⟨target, htarget⟩ := Option.eq_none_or_eq_some st.textTarget
    · have hstep : Ends IsLimit (· = st) (st.step limits (.text content)) := by
        simp only [OpfState.step, htarget, Option.isSome_none, Bool.false_eq_true, if_false]
        exact .ok rfl
      apply Leads.cons hstep
      rintro _ rfl
      exact ih hclean hrest htitle hisbn h (Gathers.of_none htarget)
    · have hstep : Ends IsLimit (· = { st with textBuf := st.textBuf ++ content.getD "" })
          (st.step limits (.text content)) := by
        simp only [OpfState.step, htarget, Option.isSome_some, if_true]
        exact .ok rfl
      apply Leads.cons hstep
      rintro _ rfl
      have hnext : Keeps guarded base { st with textBuf := st.textBuf ++ content.getD "" } :=
        ⟨h.1, h.2, h.3, h.4, h.5, h.6, h.7⟩
      have hgathersNext : Gathers guarded rest.leadingText
          { st with textBuf := st.textBuf ++ content.getD "" } := by
        refine ⟨hgathers.1, fun htitleType hrefines => ?_⟩
        rw [String.append_assoc]
        exact hgathers.title htitleType hrefines
      exact ih hclean hrest htitle hisbn hnext hgathersNext
  | other raw rest ih =>
    obtain ⟨_, hrest⟩ := List.forall_mem_cons.mp hinside
    have hstep : Ends IsLimit (· = st) (st.step limits .other) := .ok rfl
    apply Leads.cons hstep
    rintro _ rfl
    exact ih hclean hrest htitle hisbn h hgathers

/-! ## Around the section -/

/-- Outside the metadata section, where nothing is gathered. -/
structure Outside (st : OpfState) : Prop where
  openSection : st.openSection ≠ some "metadata"
  textTarget : st.textTarget = none

/-- What one reader has read of the metadata, in the place of another one. -/
def graft (base st : OpfState) : OpfState :=
  { base with
    depth := st.depth
    openSection := st.openSection
    manifest := st.manifest
    spine := st.spine
    spineToc := st.spineToc }

lemma graft_self (st : OpfState) : graft st st = st := rfl

lemma graft_graft (base st st' : OpfState) : graft (graft base st) st' = graft base st' := rfl

lemma insertManifestItem_graft (base st : OpfState) (attrs : Attributes) :
    (graft base st).insertManifestItem attrs =
      (st.insertManifestItem attrs).map (graft base) := by
  rw [insertManifestItem, insertManifestItem]
  cases attributeValue attrs "id" with
  | none => rfl
  | some id => cases attributeValue attrs "href" <;> rfl

lemma itemref_graft (base st : OpfState) (attrs : Attributes) :
    (graft base st).itemref attrs = graft base (st.itemref attrs) := by
  rw [itemref, itemref]
  cases attributeValue attrs "idref" <;> rfl

lemma start_graft (base : OpfState) (h : st.Outside)
    (hname : name ≠ "metadata" ∨ st.openSection ≠ none) :
    (graft base st).start limits name attrs = (st.start limits name attrs).map (graft base) := by
  have hdeep : ({ graft base st with depth := (graft base st).depth + 1 } : OpfState) =
      graft base { st with depth := st.depth + 1 } := rfl
  rw [start, start]
  simp only [hdeep]
  show (bounded (limits.checkXmlDepth (st.depth + 1)) >>= _) = _
  cases bounded (limits.checkXmlDepth (st.depth + 1)) with
  | error failure => rfl
  | ok _ =>
    obtain hopen | ⟨opened, hopen⟩ := Option.eq_none_or_eq_some st.openSection
    · have hother : (graft base st).openSection = none := hopen
      have hdifferent := hname.resolve_right (not_not_intro hopen)
      simp only [bind, Except.bind, hopen, hother, hdifferent, false_or]
      split_ifs <;> rfl
    · have hother : (graft base st).openSection = some opened := hopen
      have hdifferent : opened ≠ "metadata" := by
        rintro rfl
        exact h.openSection hopen
      simp only [bind, Except.bind, hopen, hother, hdifferent, if_false]
      split_ifs
      · exact insertManifestItem_graft base _ attrs
      · exact congrArg Except.ok (itemref_graft base _ attrs)
      · rfl

lemma emptyElement_graft (base : OpfState) (h : st.Outside) :
    (graft base st).emptyElement limits name attrs =
      (st.emptyElement limits name attrs).map (graft base) := by
  have hother : (graft base st).openSection = st.openSection := rfl
  rw [emptyElement, emptyElement]
  simp only [hother, h.openSection, false_and, if_false]
  split_ifs
  · exact insertManifestItem_graft base st attrs
  · exact congrArg Except.ok (itemref_graft base st attrs)
  · rfl

/-- An element closes whose text is not gathered. -/
lemma close_of_none (h : st.textTarget = none) : st.close limits name =
    .ok { st with
      depth := st.depth - 1
      openSection := if st.openSection = some name then none else st.openSection } := by
  simp only [OpfState.close, finishText, h]
  show Except.ok (ite _ _ _) = _
  split_ifs <;> rfl

/-- Outside the metadata section an event changes the place only. -/
lemma step_graft {event : XmlEvent} (h : st.Outside) (hbase : base.textTarget = none)
    (hfront : event.Front ∨ st.openSection ≠ none) :
    (graft base st).step limits event = (st.step limits event).map (graft base) := by
  have hother : (graft base st).textTarget = none := hbase
  cases event with
  | start name attrs => exact start_graft base h hfront
  | empty name attrs => exact emptyElement_graft base h
  | text content =>
    simp only [OpfState.step, h.textTarget, hother]
    rfl
  | close name =>
    rw [OpfState.step, OpfState.step, close_of_none h.textTarget, close_of_none hother]
    rfl
  | other => rfl
  | error message => rfl

lemma openSection_insertManifestItem (h : st.insertManifestItem attrs = .ok st') :
    st'.openSection = st.openSection := by
  rw [insertManifestItem] at h
  split at h
  · cases h
  · split at h
    · cases h
    · obtain rfl := Except.ok.inj h
      rfl

lemma openSection_itemref (st : OpfState) (attrs : Attributes) :
    (st.itemref attrs).openSection = st.openSection := by
  rw [itemref]
  split <;> rfl

/-- An event outside the metadata section does not open it. -/
lemma openSection_step {event : XmlEvent} (h : st.Outside)
    (hfront : event.Front ∨ st.openSection ≠ none) (hstep : st.step limits event = .ok st') :
    st'.openSection ≠ some "metadata" := by
  cases event with
  | start name attrs =>
    obtain ⟨_, _, hstart⟩ := bind_eq_ok hstep
    obtain hopen | ⟨opened, hopen⟩ := Option.eq_none_or_eq_some st.openSection
    · have hname : localName name ≠ "metadata" := hfront.resolve_right (not_not_intro hopen)
      simp only [hopen] at hstart
      split_ifs at hstart
      · obtain rfl := Except.ok.inj hstart
        simpa using hname
      · obtain rfl := Except.ok.inj hstart
        simpa using hname
      · obtain rfl := Except.ok.inj hstart
        simp
    · simp only [hopen] at hstart
      split_ifs at hstart with hmetadata
      · exact absurd (hmetadata ▸ hopen) h.openSection
      · rw [openSection_insertManifestItem hstart]
        simpa using hmetadata
      · obtain rfl := Except.ok.inj hstart
        rw [openSection_itemref]
        simpa using hmetadata
      · obtain rfl := Except.ok.inj hstart
        simpa using hmetadata
  | empty name attrs =>
    rw [OpfState.step, emptyElement] at hstep
    simp only [h.openSection, false_and, if_false] at hstep
    split_ifs at hstep
    · rw [openSection_insertManifestItem hstep]
      exact h.openSection
    · obtain rfl := Except.ok.inj hstep
      rw [openSection_itemref]
      exact h.openSection
    · obtain rfl := Except.ok.inj hstep
      exact h.openSection
  | text content =>
    simp only [OpfState.step, h.textTarget] at hstep
    obtain rfl := Except.ok.inj hstep
    exact h.openSection
  | close name =>
    rw [OpfState.step, close_of_none h.textTarget] at hstep
    obtain rfl := Except.ok.inj hstep
    show ite _ _ _ ≠ _
    split_ifs
    · simp
    · exact h.openSection
  | other =>
    obtain rfl := Except.ok.inj hstep
    exact h.openSection
  | error message => cases hstep

/-- Outside the metadata section nothing of it is read. -/
lemma eq_graft_step {event : XmlEvent} (h : st.Outside)
    (hfront : event.Front ∨ st.openSection ≠ none) (hstep : st.step limits event = .ok st') :
    st' = graft st st' := by
  have hgraft := @step_graft limits st st event h h.textTarget hfront
  rw [graft_self, hstep] at hgraft
  exact Except.ok.inj hgraft

/-- A run outside the metadata section, which does not open it. -/
lemma run_graft {tokens : List XmlToken} (h : st.Outside) (hbase : base.textTarget = none)
    (hfront : ∀ token ∈ tokens, token.event.Front)
    (hrun : (events tokens).foldlM (OpfState.step limits) st = .ok st') :
    (events tokens).foldlM (OpfState.step limits) (graft base st) = .ok (graft base st') ∧
      st' = graft st st' ∧ st'.Outside := by
  induction tokens generalizing st with
  | nil =>
    obtain rfl := Except.ok.inj hrun
    exact ⟨rfl, rfl, h⟩
  | cons token tokens ih =>
    obtain ⟨htoken, htokens⟩ := List.forall_mem_cons.mp hfront
    rw [events, List.map_cons, List.foldlM_cons] at hrun ⊢
    obtain ⟨next, hstep, hrest⟩ := bind_eq_ok hrun
    have hnext := eq_graft_step h (Or.inl htoken) hstep
    have houtside : next.Outside := by
      refine ⟨openSection_step h (Or.inl htoken) hstep, ?_⟩
      rw [hnext]
      exact h.textTarget
    obtain ⟨hother, hsame, hlast⟩ := ih houtside htokens hrest
    refine ⟨?_, ?_, hlast⟩
    · rw [step_graft h hbase (Or.inl htoken), hstep]
      exact hother
    · rw [hsame, hnext]
      rfl

/-! ## Inside the section -/

/-- The same place in the package document, and the same manifest and spine. -/
structure SamePlace (st st' : OpfState) : Prop where
  depth : st'.depth = st.depth
  openSection : st'.openSection = st.openSection
  manifest : st'.manifest = st.manifest
  spine : st'.spine = st.spine
  spineToc : st'.spineToc = st.spineToc

lemma SamePlace.refl (st : OpfState) : SamePlace st st := ⟨rfl, rfl, rfl, rfl, rfl⟩

lemma SamePlace.trans {st'' : OpfState} (h : SamePlace st st') (h' : SamePlace st' st'') :
    SamePlace st st'' :=
  ⟨h'.1.trans h.1, h'.2.trans h.2, h'.3.trans h.3, h'.4.trans h.4, h'.5.trans h.5⟩

lemma SamePlace.graft (h : SamePlace st st') (base : OpfState) :
    graft base st' = graft base st := by
  rw [OpfState.graft, OpfState.graft, h.depth, h.openSection, h.manifest, h.spine, h.spineToc]

lemma samePlace_keep (st : OpfState) (target : TextTarget) (id refines : Option String)
    (value : String) : SamePlace st (st.keep target id refines value) := by
  cases target with
  | titleType =>
    unfold OpfState.keep
    dsimp only
    split
    · split <;> exact ⟨rfl, rfl, rfl, rfl, rfl⟩
    · exact ⟨rfl, rfl, rfl, rfl, rfl⟩
  | _ => exact ⟨rfl, rfl, rfl, rfl, rfl⟩

lemma samePlace_legacyCoverMeta (st : OpfState) (attrs : Attributes) :
    SamePlace st (st.legacyCoverMeta attrs) := by
  obtain ⟨cover, hcover⟩ := legacyCoverMeta_eq st attrs
  rw [hcover]
  exact ⟨rfl, rfl, rfl, rfl, rfl⟩

lemma samePlace_calibreMeta (h : st.calibreMeta limits attrs = .ok st') : SamePlace st st' := by
  unfold calibreMeta at h
  split at h
  · split at h
    · exact Except.ok.inj h ▸ SamePlace.refl st
    · obtain ⟨_, _, h⟩ := bind_eq_ok h
      exact Except.ok.inj h ▸ ⟨rfl, rfl, rfl, rfl, rfl⟩
  · split at h
    · exact Except.ok.inj h ▸ SamePlace.refl st
    · obtain ⟨_, _, h⟩ := bind_eq_ok h
      exact Except.ok.inj h ▸ ⟨rfl, rfl, rfl, rfl, rfl⟩
  · exact Except.ok.inj h ▸ SamePlace.refl st

lemma samePlace_startMetadata (h : st.startMetadata limits name attrs = .ok st') :
    SamePlace st st' := by
  unfold startMetadata at h
  split at h
  · exact Except.ok.inj h ▸ ⟨rfl, rfl, rfl, rfl, rfl⟩
  · split_ifs at h
    · exact Except.ok.inj h ▸ ⟨rfl, rfl, rfl, rfl, rfl⟩
    · exact Except.ok.inj h ▸ ⟨rfl, rfl, rfl, rfl, rfl⟩
    · exact Except.ok.inj h ▸ SamePlace.refl st
    · obtain ⟨st'', hmeta, h⟩ := bind_eq_ok h
      have hplace := (samePlace_legacyCoverMeta st attrs).trans (samePlace_calibreMeta hmeta)
      exact Except.ok.inj h ▸ hplace.trans ⟨rfl, rfl, rfl, rfl, rfl⟩
    · obtain ⟨st'', hmeta, h⟩ := bind_eq_ok h
      have hplace := (samePlace_legacyCoverMeta st attrs).trans (samePlace_calibreMeta hmeta)
      exact Except.ok.inj h ▸ hplace
    · exact Except.ok.inj h ▸ SamePlace.refl st

lemma samePlace_finishText (h : st.finishText limits = .ok st') : SamePlace st st' := by
  unfold OpfState.finishText at h
  split at h
  · exact Except.ok.inj h ▸ SamePlace.refl st
  · dsimp only at h
    split_ifs at h
    · exact Except.ok.inj h ▸ ⟨rfl, rfl, rfl, rfl, rfl⟩
    · obtain ⟨_, _, h⟩ := bind_eq_ok h
      have hcleared : SamePlace st { st with
          textTarget := none, textElementId := none, pendingRefines := none, textBuf := "" } :=
        ⟨rfl, rfl, rfl, rfl, rfl⟩
      exact Except.ok.inj h ▸ hcleared.trans (samePlace_keep _ _ _ _ _)

/-- An element opens in the section. -/
lemma samePlace_start (hopen : st.openSection = some "metadata")
    (h : st.start limits name attrs = .ok st') :
    SamePlace { st with depth := st.depth + 1 } st' := by
  obtain ⟨_, _, h⟩ := bind_eq_ok h
  simp only [hopen, if_true] at h
  rw [← hopen] at h
  exact samePlace_startMetadata h

/-- An element closes in the section. -/
lemma samePlace_close (hopen : st.openSection = some "metadata") (hname : name ≠ "metadata")
    (h : st.close limits name = .ok st') : SamePlace { st with depth := st.depth - 1 } st' := by
  obtain ⟨st'', hfinish, h⟩ := bind_eq_ok h
  have hplace := samePlace_finishText hfinish
  have hsection : st''.openSection = some "metadata" := hplace.openSection.trans hopen
  rw [hsection, if_neg (by simpa using hname.symm)] at h
  exact Except.ok.inj h ▸ hplace

/-- **The reader leaves the children of the section where it met them.** -/
theorem samePlace_nodes {nodes : SourceNodes} (hinside : Fits nodes.tokens)
    (hopen : st.openSection = some "metadata")
    (hrun : (events nodes.tokens).foldlM (OpfState.step limits) st = .ok st') :
    SamePlace st st' := by
  induction nodes generalizing st st' with
  | nil => exact Except.ok.inj hrun ▸ SamePlace.refl st
  | element name attrs openRaw closeRaw children rest ihChildren ihRest =>
    obtain ⟨_, htokens⟩ := List.forall_mem_cons.mp hinside
    obtain ⟨hchildren, htokens⟩ := List.forall_mem_append.mp htokens
    obtain ⟨hname, hrest⟩ := List.forall_mem_cons.mp htokens
    rw [SourceNodes.tokens, events, List.map_cons, List.map_append, List.map_cons,
      List.foldlM_cons] at hrun
    obtain ⟨st₁, hstart, hrun⟩ := bind_eq_ok hrun
    rw [List.foldlM_append] at hrun
    obtain ⟨st₂, hrunChildren, hrun⟩ := bind_eq_ok hrun
    rw [List.foldlM_cons] at hrun
    obtain ⟨st₃, hclose, hrunRest⟩ := bind_eq_ok hrun
    have hplace₁ := samePlace_start hopen hstart
    have hplace₂ := ihChildren hchildren (hplace₁.openSection.trans hopen) hrunChildren
    have hopen₂ := hplace₂.openSection.trans (hplace₁.openSection.trans hopen)
    have hplace₃ := samePlace_close hopen₂ hname hclose
    have hopen₃ := hplace₃.openSection.trans hopen₂
    have hback : SamePlace st { st₂ with depth := st₂.depth - 1 } := by
      obtain ⟨hdepth, hsection, hmanifest, hspine, htoc⟩ := hplace₁.trans hplace₂
      refine ⟨?_, hsection, hmanifest, hspine, htoc⟩
      show st₂.depth - 1 = st.depth
      rw [hdepth]
      exact Nat.add_sub_cancel _ _
    exact (hback.trans hplace₃).trans (ihRest hrest hopen₃ hrunRest)
  | selfClosing name attrs raw rest ih =>
    obtain ⟨_, hrest⟩ := List.forall_mem_cons.mp hinside
    rw [SourceNodes.tokens, events, List.map_cons, List.foldlM_cons] at hrun
    obtain ⟨st₁, hstep, hrun⟩ := bind_eq_ok hrun
    have hplace : SamePlace st st₁ := by
      rw [OpfState.step, emptyElement, hopen] at hstep
      split_ifs at hstep with hmeta hmanifest hspine
      · exact (samePlace_legacyCoverMeta st attrs).trans (samePlace_calibreMeta hstep)
      · exact absurd hmanifest.1 (by decide)
      · exact absurd hspine.1 (by decide)
      · exact Except.ok.inj hstep ▸ SamePlace.refl st
    exact hplace.trans (ih hrest (hplace.openSection.trans hopen) hrun)
  | text content raw rest ih =>
    obtain ⟨_, hrest⟩ := List.forall_mem_cons.mp hinside
    rw [SourceNodes.tokens, events, List.map_cons, List.foldlM_cons] at hrun
    obtain ⟨st₁, hstep, hrun⟩ := bind_eq_ok hrun
    have hplace : SamePlace st st₁ := by
      obtain rfl := Except.ok.inj hstep
      split <;> exact ⟨rfl, rfl, rfl, rfl, rfl⟩
    exact hplace.trans (ih hrest (hplace.openSection.trans hopen) hrun)
  | other raw rest ih =>
    obtain ⟨_, hrest⟩ := List.forall_mem_cons.mp hinside
    exact ih hrest hopen hrun

/-! ## What is read back -/

/-- The metadata of some titles that were told apart. -/
lemma resolveTitles_written {marked : List String} {metadata read : EpubMetadata}
    (hmain : "tuxbooks-title" ∉ marked)
    (hmarks : metadata.subtitle ≠ none → "tuxbooks-subtitle" ∈ marked)
    (hread : read.title = "" ∧ read.subtitle = none) :
    ((some "tuxbooks-title", metadata.title) ::
        metadata.subtitle.toList.map (some "tuxbooks-subtitle", ·)).foldl
      (resolveTitle marked) read =
      { read with title := metadata.title, subtitle := metadata.subtitle } := by
  have hfirst : resolveTitle marked read (some "tuxbooks-title", metadata.title) =
      { read with title := metadata.title } := by
    rw [resolveTitle, if_neg (by simpa using hmain), if_pos hread.1]
  rw [List.foldl_cons, hfirst]
  cases hsubtitle : metadata.subtitle with
  | none => simp [hread.2]
  | some subtitle =>
    have hmark : "tuxbooks-subtitle" ∈ marked := hmarks (by simp [hsubtitle])
    simp [resolveTitle, hmark, hread.2]

/-- Numbers are printed as they are read. -/
def PrintsNumber (parseFloat : String → Option ℚ) (showFloat : ℚ → String) (index : ℚ) : Prop :=
  Trimmed (showFloat index) ∧ ',' ∉ (showFloat index).toList ∧
    parseFloat (showFloat index) = some index

/-- An index that was written is read as it was. -/
lemma seriesIndex_written {parseFloat : String → Option ℚ} {showFloat : ℚ → String}
    {seriesIndex : Option ℚ}
    (hround : ∀ index, seriesIndex = some index →
      PrintsNumber parseFloat showFloat index) :
    ((seriesIndex.map showFloat).bind fun raw => parseFloat
      (trim (String.ofList (raw.toList.map fun c => if c = ',' then '.' else c)))) =
      seriesIndex := by
  cases seriesIndex with
  | none => rfl
  | some index =>
    obtain ⟨htrimmed, hcomma, hparse⟩ := hround index rfl
    have hsame : ((showFloat index).toList.map fun c => if c = ',' then '.' else c) =
        (showFloat index).toList := by
      conv_rhs => rw [← List.map_id (showFloat index).toList]
      apply List.map_congr_left
      intro c hc
      rw [if_neg (by rintro rfl; exact hcomma hc)]
      rfl
    rw [Option.map_some, Option.bind_some, hsame, String.ofList_toList, htrimmed.2, hparse]

/-- The reader has all of the managed fields, and the ISBN where it is guarded. -/
structure Has (guarded : Prop) (showFloat : ℚ → String) (metadata : EpubMetadata)
    (st : OpfState) : Prop where
  fields : { st.metadata with isbn := none } = { metadata with
    title := "", subtitle := none, author := none, seriesIndex := none, isbn := none }
  isbn : guarded → st.metadata.isbn = metadata.isbn
  seriesIndexRaw : st.seriesIndexRaw = metadata.seriesIndex.map showFloat
  titles : st.titles = (some "tuxbooks-title", metadata.title) ::
    metadata.subtitle.toList.map (some "tuxbooks-subtitle", ·)
  title : "tuxbooks-title" ∉ st.subtitleTitleIds
  subtitle : metadata.subtitle ≠ none → "tuxbooks-subtitle" ∈ st.subtitleTitleIds

variable {parseFloat : String → Option ℚ} {showFloat : ℚ → String} {metadata : EpubMetadata}

lemma Has.graft (h : base.Has guarded showFloat metadata) (st : OpfState) :
    (graft base st).Has guarded showFloat metadata :=
  ⟨h.1, h.2, h.3, h.4, h.5, h.6⟩

/-- What was kept changes nothing of what was written. -/
lemma Keeps.has (h : Keeps guarded (st.readWritten showFloat metadata) st') (hfresh : st.Fresh)
    (hm : Normalized metadata) : st'.Has guarded showFloat metadata := by
  obtain ⟨-, htitles, hraw, hmetadata, hisbn, hmarks, htitle⟩ := h
  rw [readWritten_eq hfresh hm] at htitles hraw hmetadata hisbn hmarks
  refine ⟨hmetadata, hisbn, hraw, htitles, htitle, fun hsubtitle => hmarks _ ?_⟩
  obtain ⟨subtitle, hsome⟩ := Option.ne_none_iff_exists'.mp hsubtitle
  simp [hsome]

/-- **The package that is read** has the managed fields. -/
theorem Has.finish (h : st.Has guarded showFloat metadata) (hm : Normalized metadata)
    (hround : ∀ index, metadata.seriesIndex = some index →
      PrintsNumber parseFloat showFloat index) :
    ∃ package, st.finish parseFloat = .ok package ∧
      { package.metadata with isbn := none } = { metadata with isbn := none } ∧
      (guarded → package.metadata.isbn = metadata.isbn) := by
  have hst : st.metadata = { metadata with
      title := "", subtitle := none, author := none, seriesIndex := none
      isbn := st.metadata.isbn } :=
    congrArg (fun read : EpubMetadata => { read with isbn := st.metadata.isbn }) h.fields
  have hread : st.metadata.title = "" ∧ st.metadata.subtitle = none := by
    rw [hst]
    exact ⟨rfl, rfl⟩
  rw [OpfState.finish, h.titles, resolveTitles_written h.title h.subtitle hread, h.seriesIndexRaw]
  simp only [seriesIndex_written hround]
  rw [if_neg hm.title.1]
  refine ⟨_, rfl, ?_, h.isbn⟩
  have hauthors : st.metadata.authors = metadata.authors := by rw [hst]
  have hindex : metadata.seriesIndex.or st.metadata.seriesIndex = metadata.seriesIndex := by
    rw [hst]
    exact Option.or_none
  simp only [hauthors, ← hm.author, hindex]
  rw [hst]

/-! ## The document that was written over -/

section Accepted

variable {doc : OpfDocument} {package : Opf.OpfPackage}

lemma events_around (doc : OpfDocument) (inner : List XmlToken) :
    events (doc.around inner) = events doc.before ++ .start doc.name doc.attrs ::
      (events inner ++ .close doc.name :: events doc.after) := by
  simp [OpfDocument.around, events]

lemma front_of_inside {event : XmlEvent} (h : event.Inside) : event.Front := by
  cases event with
  | start name attrs => exact h.2
  | error message => exact h
  | _ => trivial

/-- A package of which nothing was read has no title. -/
lemma finish_of_unread (htitles : st.titles = []) (hmetadata : st.metadata = {}) :
    st.finish parseFloat = .error .missingTitle := by
  rw [OpfState.finish, htitles, hmetadata]
  rfl

lemma textTarget_finishText (h : st.finishText limits = .ok st') : st'.textTarget = none := by
  unfold OpfState.finishText at h
  split at h
  · next hnone => exact Except.ok.inj h ▸ hnone
  · dsimp only at h
    split_ifs at h
    · exact Except.ok.inj h ▸ rfl
    · obtain ⟨_, _, h⟩ := bind_eq_ok h
      exact Except.ok.inj h ▸ (stays_keep _ _ _ _ _).textTarget

/-- The closing tag of the section. -/
lemma close_section (hopen : st.openSection = some "metadata")
    (h : st.close limits "metadata" = .ok st') :
    st'.Outside ∧ SamePlace { st with depth := st.depth - 1, openSection := none } st' := by
  obtain ⟨st'', hfinish, h⟩ := bind_eq_ok h
  have hplace := samePlace_finishText hfinish
  have hsection : st''.openSection = some "metadata" := hplace.openSection.trans hopen
  rw [hsection, if_pos rfl] at h
  have htarget := textTarget_finishText hfinish
  obtain rfl := Except.ok.inj h
  exact ⟨⟨by simp, htarget⟩, hplace.depth, rfl, hplace.manifest, hplace.spine, hplace.spineToc⟩

/-- The metadata section opens where no other one is open, or else nothing is read of it. -/
lemma openSection_of_accepted {st₀ : OpfState} (hafter : ∀ token ∈ doc.after, token.event.Front)
    (hst₀ : st₀ = graft {} st₀) (houtside : st₀.Outside)
    (hrun : (XmlEvent.start doc.name doc.attrs :: (events doc.children.tokens ++
      .close doc.name :: events doc.after)).foldlM (OpfState.step limits) st₀ = .ok st')
    (hfinish : st'.finish parseFloat = .ok package) : st₀.openSection = none := by
  by_contra hopen
  rw [List.foldlM_cons] at hrun
  obtain ⟨st₁, hstep, hrun⟩ := bind_eq_ok hrun
  have hst₁ := eq_graft_step houtside (Or.inr hopen) hstep
  have houtside₁ : st₁.Outside := by
    refine ⟨openSection_step houtside (Or.inr hopen) hstep, ?_⟩
    rw [hst₁]
    exact houtside.textTarget
  have hfront : ∀ token ∈ doc.children.tokens ++ ⟨.close doc.name, doc.closeRaw⟩ :: doc.after,
      token.event.Front := by
    rw [List.forall_mem_append, List.forall_mem_cons]
    exact ⟨fun token htoken => front_of_inside (doc.inside token htoken), trivial, hafter⟩
  have hall : events (doc.children.tokens ++ ⟨.close doc.name, doc.closeRaw⟩ :: doc.after) =
      events doc.children.tokens ++ .close doc.name :: events doc.after := by
    simp [events]
  rw [← hall] at hrun
  obtain ⟨-, hst', -⟩ := run_graft houtside₁ houtside₁.textTarget hfront hrun
  have hlast : st' = graft {} st' := by
    rw [hst', hst₁, hst₀]
    rfl
  have htitles : st'.titles = [] := by rw [hlast]; rfl
  have hmetadata : st'.metadata = {} := by rw [hlast]; rfl
  rw [finish_of_unread htitles hmetadata] at hfinish
  cases hfinish

/-- How the reader came through a document that it accepts: before the section, after it, and at
the end. -/
structure Journey (limits : XmlLimits) (doc : OpfDocument) where
  outer : OpfState
  past : OpfState
  last : OpfState
  before : (events doc.before).foldlM (OpfState.step limits) {} = .ok outer
  fresh : outer = graft {} outer
  openSection : outer.openSection = none
  opens : outer.step limits (.start doc.name doc.attrs) =
    .ok { outer with depth := outer.depth + 1, openSection := some "metadata" }
  outside : past.Outside
  place : SamePlace outer past
  after : (events doc.after).foldlM (OpfState.step limits) past = .ok last

/-- The section opens. -/
lemma start_section (hopen : st.openSection = none)
    (h : st.start limits "metadata" attrs = .ok st') :
    st' = { st with depth := st.depth + 1, openSection := some "metadata" } := by
  obtain ⟨_, _, h⟩ := bind_eq_ok h
  simp only [hopen, true_or, if_true] at h
  exact (Except.ok.inj h).symm

/-- The reader's way through an accepted document with one metadata section. -/
theorem nonempty_journey (hafter : ∀ token ∈ doc.after, token.event.Front)
    (h : readTokens parseFloat limits doc.tokens = .ok package) :
    Nonempty (Journey limits doc) := by
  obtain ⟨_, _, h⟩ := bind_eq_ok h
  obtain ⟨last, hrun, hfinish⟩ := bind_eq_ok h
  rw [OpfDocument.tokens, events_around, List.foldlM_append] at hrun
  obtain ⟨outer, hbefore, hrun⟩ := bind_eq_ok hrun
  have hstart : Outside {} := ⟨by simp, rfl⟩
  obtain ⟨-, hfresh, houtside⟩ := run_graft hstart hstart.textTarget doc.front hbefore
  have hopen := openSection_of_accepted hafter hfresh houtside hrun hfinish
  rw [List.foldlM_cons] at hrun
  obtain ⟨st₁, hstep, hrun⟩ := bind_eq_ok hrun
  have hopened := hstep
  rw [OpfState.step, doc.name_eq] at hopened
  obtain rfl := start_section hopen hopened
  rw [List.foldlM_append] at hrun
  obtain ⟨st₂, hchildren, hrun⟩ := bind_eq_ok hrun
  have hplace₂ := samePlace_nodes doc.inside rfl hchildren
  rw [List.foldlM_cons] at hrun
  obtain ⟨past, hclose, hrest⟩ := bind_eq_ok hrun
  rw [OpfState.step, doc.name_eq] at hclose
  obtain ⟨hpast, hplace₃⟩ := close_section hplace₂.openSection hclose
  have hplace : SamePlace outer past := by
    have hdepth : st₂.depth - 1 = outer.depth := by
      rw [hplace₂.depth]
      exact Nat.add_sub_cancel _ _
    refine ⟨hplace₃.depth.trans hdepth, hplace₃.openSection.trans hopen.symm, ?_, ?_, ?_⟩
    · exact hplace₃.manifest.trans hplace₂.manifest
    · exact hplace₃.spine.trans hplace₂.spine
    · exact hplace₃.spineToc.trans hplace₂.spineToc
  exact ⟨outer, past, last, hbefore, hfresh, hopen, hstep, hpast, hplace, hrest⟩

end Accepted

/-! ## What was written -/

section Written

variable {escape : String → String} {doc : OpfDocument}

/-- The reader over the section that was written. -/
theorem leads_section (hm : Normalized metadata) (hidle : st.Idle) (hfresh : st.Fresh)
    (hshow : ∀ index, metadata.seriesIndex = some index → Trimmed (showFloat index))
    (htitle : (doc.children.strip doc.uniqueId).KeepsTitle)
    (hisbn : guarded → metadata.isbn ≠ none ∨ (doc.children.strip doc.uniqueId).NoIsbn) :
    Leads limits (generateChildren escape showFloat metadata ++
        (doc.children.strip doc.uniqueId).tokens)
      (fun st' => st'.Has guarded showFloat metadata ∧ SamePlace st st' ∧
        st'.textTarget = none) st := by
  have hisbnFirst : st.metadata.isbn = none := by rw [hfresh.metadata]
  have hwritten := @readWritten_eq st showFloat metadata hfresh hm
  have hbase : Keeps guarded (st.readWritten showFloat metadata)
      (st.readWritten showFloat metadata) := by
    refine ⟨?_, rfl, rfl, rfl, fun _ => rfl, fun _ hid => hid, ?_⟩
    · rw [hwritten]
      exact hidle.openSection
    · rw [hwritten]
      cases metadata.subtitle <;> simp
  have hidleTarget : (st.readWritten showFloat metadata).textTarget = none := by
    rw [hwritten]
    exact hidle.textTarget
  have hplace : SamePlace st (st.readWritten showFloat metadata) := by
    rw [hwritten]
    exact ⟨rfl, rfl, rfl, rfl, rfl⟩
  have hguard : guarded → (st.readWritten showFloat metadata).metadata.isbn ≠ none ∨
      (doc.children.strip doc.uniqueId).NoIsbn := by
    rw [hwritten]
    exact hisbn
  have hfits : Fits (doc.children.strip doc.uniqueId).tokens := fun token htoken =>
    doc.inside token (SourceNodes.mem_strip htoken)
  refine Leads.andThen (leads_generateChildren hidle hm hisbnFirst hshow) ?_
  have hkept : Leads limits (doc.children.strip doc.uniqueId).tokens _ _ :=
    leads_kept (SourceNodes.clean_strip doc.children) hfits htitle hguard hbase
      (Gathers.of_none hidleTarget)
  refine Ends.mono (Ends.value hkept) ?_
  rintro st' ⟨⟨hkeeps, -, htarget⟩, hrun⟩
  exact ⟨hkeeps.has hfresh hm, hplace.trans (samePlace_nodes hfits hbase.openSection hrun),
    htarget hidleTarget⟩

/-- From the closing tag on, the reader goes the way it went before. -/
lemma ends_after (journey : Journey limits doc) (hafter : ∀ token ∈ doc.after, token.event.Front)
    (h : st.Has guarded showFloat metadata)
    (hplace : SamePlace { journey.outer with
      depth := journey.outer.depth + 1, openSection := some "metadata" } st)
    (htarget : st.textTarget = none) :
    Ends IsLimit (fun st' => st'.Has guarded showFloat metadata)
      ((.close doc.name :: events doc.after).foldlM (OpfState.step limits) st) := by
  have hclose := @close_of_none limits st "metadata" htarget
  rw [hplace.openSection, if_pos rfl, hplace.depth] at hclose
  have hgraft : graft { st with
        depth := journey.outer.depth + 1 - 1, openSection := none } journey.past =
      { st with depth := journey.outer.depth + 1 - 1, openSection := none } := by
    rw [journey.place.graft, OpfState.graft, journey.openSection, ← hplace.manifest,
      ← hplace.spine, ← hplace.spineToc]
    rfl
  obtain ⟨hrun, -⟩ := @run_graft limits journey.past journey.last
    { st with depth := journey.outer.depth + 1 - 1, openSection := none } doc.after
    journey.outside htarget hafter journey.after
  rw [hgraft] at hrun
  rw [List.foldlM_cons, OpfState.step, doc.name_eq, hclose]
  show Ends IsLimit _ ((events doc.after).foldlM _ _)
  rw [hrun]
  exact .ok (Has.graft ⟨h.1, h.2, h.3, h.4, h.5, h.6⟩ _)

/-- The reader over the whole document that was written. -/
theorem ends_written (journey : Journey limits doc)
    (hafter : ∀ token ∈ doc.after, token.event.Front) (hm : Normalized metadata)
    (hround : ∀ index, metadata.seriesIndex = some index →
      PrintsNumber parseFloat showFloat index)
    (htitle : (doc.children.strip doc.uniqueId).KeepsTitle)
    (hisbn : guarded → metadata.isbn ≠ none ∨ (doc.children.strip doc.uniqueId).NoIsbn) :
    Ends IsLimit (fun package : Opf.OpfPackage =>
        { package.metadata with isbn := none } = { metadata with isbn := none } ∧
          (guarded → package.metadata.isbn = metadata.isbn))
      (readTokens parseFloat limits (doc.around
        (generateChildren escape showFloat metadata ++
          (doc.children.strip doc.uniqueId).tokens))) := by
  have hidle : Idle { journey.outer with
      depth := journey.outer.depth + 1, openSection := some "metadata" } := by
    refine ⟨rfl, ?_, ?_, ?_, ?_⟩ <;> (rw [journey.fresh]; rfl)
  have hunread : Fresh { journey.outer with
      depth := journey.outer.depth + 1, openSection := some "metadata" } := by
    refine ⟨?_, ?_, ?_, ?_⟩ <;> (rw [journey.fresh]; rfl)
  have hsection := @leads_section limits _ guarded showFloat metadata escape doc hm hidle hunread
    (fun index hindex => (hround index hindex).1) htitle hisbn
  have hrun := hsection.foldlM_append fun st' hst' =>
    ends_after journey hafter hst'.1 hst'.2.1 hst'.2.2
  rw [readTokens, parseOpf, events_around, List.foldlM_append, journey.before]
  apply (ends_bounded _).bind
  intro _ _
  show Ends IsLimit _ (((XmlEvent.start doc.name doc.attrs) :: _).foldlM _ journey.outer >>= _)
  rw [List.foldlM_cons, journey.opens]
  apply hrun.bind
  intro last hlast
  obtain ⟨package, hpackage, hfields⟩ := hlast.finish hm hround
  rw [hpackage]
  exact .ok hfields

end Written

end OpfState

open OpfState

/-- A package document whose unique identifier is an ISBN. -/
def identifiedDocument : OpfDocument where
  before := [⟨.start "package" [("unique-identifier", some "isbn")],
    "<package unique-identifier=\"isbn\">"⟩]
  name := "metadata"
  attrs := []
  openRaw := "<metadata>"
  children :=
    .element "dc:identifier" [("id", some "isbn"), ("opf:scheme", some "ISBN")]
      "<dc:identifier id=\"isbn\" opf:scheme=\"ISBN\">" "</dc:identifier>"
      (.text (some "9780306406157") "9780306406157" .nil)
      (.element "dc:title" [] "<dc:title>" "</dc:title>" (.text (some "Old") "Old" .nil) .nil)
  closeRaw := "</metadata>"
  after := [⟨.close "package", "</package>"⟩]
  front := by decide
  name_eq := localName_metadata
  inside := by decide

end Epub

end TuxBooks
