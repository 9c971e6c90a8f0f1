import TuxBooks.Catalog.Rows
import TuxBooks.Device.Readback
import TuxBooks.Library.Import

set_option relaxedAutoImplicit false
set_option autoImplicit false

/-!
# The metadata form

`apply_form` and `get_book_metadata` of `sidecar/src/services/metadata.rs`: the edit form is
normalized, compared with the source metadata of the book, and stored as overrides of what differs;
the effective metadata is what a form is filled with.

A number of a form is a double, which is a number or none. The source and the overrides hold
numbers only.

## Main definitions

* `TuxBooks.EditForm.MetadataFields` — the fields of a form and of the effective metadata.
* `TuxBooks.EditForm.textOverride`, `TuxBooks.EditForm.seriesOverride` — what is stored of a field.
* `TuxBooks.EditForm.applyForm` — saving a form.
* `TuxBooks.EditForm.getBookMetadata` — the effective metadata, the source and the overridden
  fields.
* `TuxBooks.EditForm.Kept` — a form that is shown as it was saved, stored minimally, and steady.

## Main results

* `TuxBooks.EditForm.scalarValue_textOverride`, `TuxBooks.EditForm.effectiveSeries_seriesOverride` —
  merging undoes the comparison with the source.
* `TuxBooks.EditForm.applyForm_spec` — what saving leaves behind.
* `TuxBooks.EditForm.kept_iff` — which forms are kept.
-/

namespace TuxBooks

open Fallible

namespace EditForm

/-! ## Forms -/

/-- A double of a form. -/
inductive Double where
  | finite (value : ℚ)
  | notFinite
  deriving DecidableEq

/-- The fields that a form edits. -/
structure MetadataFields where
  title : String
  subtitle : Option String := none
  publisher : Option String := none
  language : Option String := none
  isbn : Option String := none
  description : Option String := none
  publicationDate : Option String := none
  series : Option String := none
  seriesIndex : Option Double := none
  authors : List String := []
  subjects : List String := []
  deriving DecidableEq

def cleanOptional (value : Option String) : Option String := (value.map trim).filter (· ≠ "")

/-- Add a name to a list that was cleaned. -/
def addClean (cleaned : List String) (value : String) : List String :=
  if trim value ≠ "" ∧ trim value ∉ cleaned then cleaned ++ [trim value] else cleaned

/-- Trim, drop empties, and deduplicate a list while preserving order. -/
def cleanList (values : List String) : List String := values.foldl addClean []

/-- What is stored of a form value: nothing where it equals the source, the empty string for an
explicit clear. -/
def textOverride (form source : Option String) : Option String :=
  match cleanOptional form, source with
  | none, none => none
  | none, some source => if source = "" then none else some ""
  | some value, some source => if value = source then none else some value
  | some value, none => some value

/-- What is stored of the series name: it is the override of the unit, and it is promoted when only
the index differs. -/
def seriesOverride (formName : Option String) (formIndex : Option ℚ) (sourceName : Option String)
    (sourceIndex : Option ℚ) : Option String :=
  match textOverride formName sourceName with
  | some value => some value
  | none =>
    if formIndex = sourceIndex then none
    else (cleanOptional formName).or (sourceName.filter (· ≠ ""))

/-- The index of a form must be a number. -/
def finiteIndex : Option Double → Except AppError (Option ℚ)
  | some (.finite value) => .ok (some value)
  | some .notFinite => .error (.invalidInput "series_index must be a finite number")
  | none => .ok none

/-- The values of a form after they were cleaned. -/
structure Cleaned where
  title : String
  subtitle : Option String
  publisher : Option String
  language : Option String
  isbn : Option String
  description : Option String
  publicationDate : Option String
  series : Option String
  seriesIndex : Option ℚ
  authors : List String
  subjects : List String
  deriving DecidableEq

def MetadataFields.clean (form : MetadataFields) : Except AppError Cleaned := do
  let title ← cleanRequired form.title "title"
  let seriesIndex ← finiteIndex form.seriesIndex
  return {
    title := title
    subtitle := cleanOptional form.subtitle
    publisher := cleanOptional form.publisher
    language := cleanOptional form.language
    isbn := cleanOptional form.isbn
    description := cleanOptional form.description
    publicationDate := cleanOptional form.publicationDate
    series := cleanOptional form.series
    seriesIndex := seriesIndex
    authors := cleanList form.authors
    subjects := cleanList form.subjects }

/-- Only fields that differ from the source are stored. The cover override stays. -/
def Cleaned.overrides (n : Cleaned) (source : SourceMetadata) (coverPath : Option String) :
    OverrideRow :=
  let seriesUnit := seriesOverride n.series n.seriesIndex source.series source.seriesIndex
  { title := textOverride (some n.title) (some source.title)
    subtitle := textOverride n.subtitle source.subtitle
    publisher := textOverride n.publisher source.publisher
    language := textOverride n.language source.language
    isbn := textOverride n.isbn source.isbn
    description := textOverride n.description source.description
    publicationDate := textOverride n.publicationDate source.publicationDate
    series := seriesUnit
    -- The index is only meaningful inside an overridden unit.
    seriesIndex := if seriesUnit.isSome then n.seriesIndex else none
    coverPath := coverPath
    authorsCustomized := n.authors != source.authors
    subjectsCustomized := n.subjects != source.subjects }

section

variable (jsonReal : ℚ → Value)

/-- Persist the edit form against the current source snapshot and re-merge the effective view. -/
def applyForm (c : Catalog) (uid : String) (form : MetadataFields) :
    Catalog × Except AppError Unit :=
  if ¬c.hasRecord uid then (c, .error .notFound)
  else
    match c.primaryFile uid with
    | none => (c, .error .notFound)
    | some (_, file) =>
      let source := file.loadSource
      let existing := c.overridesOf uid
      match form.clean with
      | .error e => (c, .error e)
      | .ok n =>
        let overrides := n.overrides source existing.coverPath
        andThen (c.replaceOwned jsonReal overrides .authors uid n.authors) fun c _ =>
        andThen (c.replaceOwned jsonReal overrides .subjects uid n.subjects) fun c _ =>
        andThen ((c.upsertOverrides jsonReal uid overrides).recomputeEffective jsonReal uid source)
          fun c _ => (c.sweepOrphans, .ok ())

end

/-! ## The curation view -/

/-- Which fields carry overrides. -/
structure MetadataOverridden where
  title : Bool
  subtitle : Bool
  publisher : Bool
  language : Bool
  isbn : Bool
  description : Bool
  publicationDate : Bool
  series : Bool
  cover : Bool
  authors : Bool
  subjects : Bool
  deriving DecidableEq

structure BookMetadata where
  effective : MetadataFields
  source : MetadataFields
  overridden : MetadataOverridden
  coverPath : Option String
  sourceCoverPath : Option String
  deriving DecidableEq

/-- A customized list is user-owned, otherwise the file's list applies. -/
def effectiveNames (c : Catalog) (list : BookList) (uid : String) (overrides : OverrideRow)
    (source : SourceMetadata) : List String :=
  if overrides.customized list then c.listNames list uid else source.names list

/-- The fields of the source file. -/
def sourceFields (source : SourceMetadata) : MetadataFields where
  title := source.title
  subtitle := source.subtitle
  publisher := source.publisher
  language := source.language
  isbn := source.isbn
  description := source.description
  publicationDate := source.publicationDate
  series := source.series
  seriesIndex := source.seriesIndex.map .finite
  authors := source.authors
  subjects := source.subjects

def overriddenFields (overrides : OverrideRow) : MetadataOverridden where
  title := overrides.title.isSome
  subtitle := overrides.subtitle.isSome
  publisher := overrides.publisher.isSome
  language := overrides.language.isSome
  isbn := overrides.isbn.isSome
  description := overrides.description.isSome
  publicationDate := overrides.publicationDate.isSome
  series := overrides.series.isSome
  cover := overrides.coverPath.isSome
  authors := overrides.authorsCustomized
  subjects := overrides.subjectsCustomized

/-- The full curation view of a book that has a file. -/
def getBookMetadata (c : Catalog) (uid : String) : Option BookMetadata :=
  match c.records.lookup uid, c.primaryFile uid with
  | some record, some (_, file) =>
    let source := file.loadSource
    let overrides := c.overridesOf uid
    some
      { effective :=
          { title := record.values.title.getD ""
            subtitle := record.values.subtitle
            publisher := record.values.publisher
            language := record.values.language
            isbn := record.values.isbn
            description := record.values.description
            publicationDate := record.values.publicationDate
            series := record.seriesId
            seriesIndex := record.values.seriesIndex.map .finite
            authors := effectiveNames c .authors uid overrides source
            subjects := effectiveNames c .subjects uid overrides source }
        source := sourceFields source
        overridden := overriddenFields overrides
        coverPath := record.values.coverPath
        sourceCoverPath := source.coverPath }
  | _, _ => none

/-! ## Forms that are kept -/

/-- The values that a form asks for: an index belongs to a series. -/
def MetadataFields.normalized (form : MetadataFields) : MetadataFields where
  title := trim form.title
  subtitle := cleanOptional form.subtitle
  publisher := cleanOptional form.publisher
  language := cleanOptional form.language
  isbn := cleanOptional form.isbn
  description := cleanOptional form.description
  publicationDate := cleanOptional form.publicationDate
  series := cleanOptional form.series
  seriesIndex := if (cleanOptional form.series).isSome then form.seriesIndex else none
  authors := cleanList form.authors
  subjects := cleanList form.subjects

/-- The same names, in any order. -/
def SameNames (left right : List String) : Prop := ∀ name, name ∈ left ↔ name ∈ right

/-- The same fields, the subjects as a set. -/
structure SameFields (left right : MetadataFields) : Prop where
  fields : { left with subjects := [] } = { right with subjects := [] }
  subjects : SameNames left.subjects right.subjects

/-- Nothing is stored where the form equals the source; the series and its index are one field, and
the subjects are a set. -/
structure Minimal (o : OverrideRow) (form : MetadataFields) (source : SourceMetadata) : Prop where
  title : form.title = source.title → o.title = none
  subtitle : form.subtitle = source.subtitle → o.subtitle = none
  publisher : form.publisher = source.publisher → o.publisher = none
  language : form.language = source.language → o.language = none
  isbn : form.isbn = source.isbn → o.isbn = none
  description : form.description = source.description → o.description = none
  publicationDate : form.publicationDate = source.publicationDate → o.publicationDate = none
  series : form.series = source.series → form.seriesIndex = source.seriesIndex.map .finite →
    o.series = none ∧ o.seriesIndex = none
  authors : form.authors = source.authors → o.authorsCustomized = false
  subjects : SameNames form.subjects source.subjects → o.subjectsCustomized = false

/-- What saving a form left is the form: it is shown, it is stored minimally, and saving what is
shown changes neither. -/
structure Kept (jsonReal : ℚ → Value) (c : Catalog) (uid : String) (form : MetadataFields)
    (source : SourceMetadata) (view : BookMetadata) : Prop where
  shown : getBookMetadata c uid = some view
  same : SameFields view.effective form.normalized
  minimal : Minimal (c.overridesOf uid) form.normalized source
  accepted : (applyForm jsonReal c uid view.effective).2 = .ok ()
  overrides : (applyForm jsonReal c uid view.effective).1.overridesOf uid = c.overridesOf uid
  steady : getBookMetadata (applyForm jsonReal c uid view.effective).1 uid = some view

/-- Subjects that are those of the source are in its order; and a form without a series has no
index where the source has a series, while the source has neither or a series with a name. -/
structure Expressible (form : MetadataFields) (source : SourceMetadata) : Prop where
  subjects : SameNames (cleanList form.subjects) source.subjects →
    cleanList form.subjects = source.subjects
  series : cleanOptional form.series = none →
    (source.series = none ∧ source.seriesIndex = none) ∨
      (∃ name, source.series = some name ∧ name ≠ "" ∧ form.seriesIndex = none)

/-! ## Cleaning -/

/-- Names as a form stores them. -/
structure CleanNames (names : List String) : Prop where
  nodup : names.Nodup
  trimmed : ∀ name ∈ names, trim name = name ∧ name ≠ ""

lemma cleanNames_cleanList (values : List String) : CleanNames (cleanList values) := by
  have hfold : ∀ (values cleaned : List String), CleanNames cleaned →
      CleanNames (values.foldl addClean cleaned) := by
    intro values
    induction values with
    | nil => exact fun _ h => h
    | cons value values ih =>
      intro cleaned h
      refine ih _ ?_
      unfold addClean
      split_ifs with hnew
      · refine ⟨List.nodup_append.mpr ⟨h.nodup, List.nodup_singleton _, ?_⟩, fun name hname => ?_⟩
        · rintro name hname _ hvalue rfl
          exact hnew.2 (List.mem_singleton.mp hvalue ▸ hname)
        · rcases List.mem_append.mp hname with hname | hname
          · exact h.trimmed name hname
          · rw [List.mem_singleton.mp hname]
            exact ⟨trim_trim value, hnew.1⟩
      · exact h
  exact hfold values [] ⟨List.nodup_nil, by simp⟩

/-- Clean names are kept as they are. -/
lemma CleanNames.cleanList_eq {names : List String} (h : CleanNames names) :
    cleanList names = names := by
  have hfold : ∀ (rest cleaned : List String), CleanNames (cleaned ++ rest) →
      rest.foldl addClean cleaned = cleaned ++ rest := by
    intro rest
    induction rest with
    | nil => simp
    | cons name rest ih =>
      intro cleaned h
      obtain ⟨htrim, hne⟩ := h.trimmed name (by simp)
      have hnew : name ∉ cleaned := fun hmem =>
        (List.nodup_append.mp h.nodup).2.2 name hmem name List.mem_cons_self rfl
      have hadd : addClean cleaned name = cleaned ++ [name] := by
        rw [addClean, htrim, if_pos ⟨hne, hnew⟩]
      rw [List.foldl_cons, hadd, ih _ (by simpa using h), List.append_assoc]
      rfl
  exact hfold names [] h

lemma CleanNames.perm {left right : List String} (h : CleanNames left) (hperm : left.Perm right) :
    CleanNames right :=
  ⟨hperm.nodup_iff.mp h.nodup, fun name hname => h.trimmed name (hperm.mem_iff.mpr hname)⟩

lemma cleanOptional_eq_some {value : Option String} {text : String}
    (h : cleanOptional value = some text) : trim text = text ∧ text ≠ "" := by
  unfold cleanOptional at h
  obtain ⟨hmap, hne⟩ := Option.filter_eq_some_iff.mp h
  obtain ⟨raw, -, rfl⟩ := Option.map_eq_some_iff.mp hmap
  exact ⟨trim_trim raw, by simpa using hne⟩

lemma cleanOptional_some {text : String} (htrim : trim text = text) (hne : text ≠ "") :
    cleanOptional (some text) = some text := by
  simp [cleanOptional, htrim, hne]

@[simp] lemma cleanOptional_cleanOptional (value : Option String) :
    cleanOptional (cleanOptional value) = cleanOptional value := by
  cases h : cleanOptional value with
  | none => rfl
  | some text =>
    obtain ⟨htrim, hne⟩ := cleanOptional_eq_some h
    exact cleanOptional_some htrim hne

/-! ## Merging undoes comparing -/

/-- **A stored field gives the form value back.** -/
theorem scalarValue_textOverride (form source : Option String) :
    scalarValue (textOverride form source) source = cleanOptional form := by
  unfold textOverride
  cases hform : cleanOptional form with
  | none =>
    cases source with
    | none => rfl
    | some source =>
      by_cases hsource : source = ""
      · simp [hsource, scalarValue]
      · simp [hsource, scalarValue]
  | some value =>
    obtain ⟨-, hne⟩ := cleanOptional_eq_some hform
    cases source with
    | none => simp [scalarValue, hne]
    | some source =>
      by_cases hsame : value = source
      · subst hsame
        simp [scalarValue, hne]
      · simp [scalarValue, hsame, hne]

/-- Nothing is stored of a field that equals the source. -/
lemma textOverride_eq_none {form source : Option String} (h : cleanOptional form = source) :
    textOverride form source = none := by
  unfold textOverride
  rw [h]
  cases source with
  | none => rfl
  | some source => simp

/-- A stored unit with a name is the unit of the form. -/
theorem effectiveSeries_of_some {n : Cleaned} {name : String} (hseries : n.series = some name)
    (hclean : cleanOptional n.series = n.series) (source : SourceMetadata)
    (coverPath : Option String) :
    effectiveSeries (n.overrides source coverPath) source = (some name, n.seriesIndex) := by
  have hne : name ≠ "" := (cleanOptional_eq_some (hclean.trans hseries)).2
  have hoverride : textOverride n.series source.series =
      if source.series = some name then none else some name := by
    unfold textOverride
    rw [hclean, hseries]
    cases source.series with
    | none => rfl
    | some s => simp [eq_comm]
  have hunit : seriesOverride n.series n.seriesIndex source.series source.seriesIndex =
      if source.series = some name ∧ n.seriesIndex = source.seriesIndex then none
      else some name := by
    unfold seriesOverride
    rw [hoverride, hclean, hseries]
    by_cases hsame : source.series = some name
    · by_cases hindex : n.seriesIndex = source.seriesIndex <;> simp [hsame, hindex]
    · simp [hsame]
  unfold effectiveSeries Cleaned.overrides
  dsimp only
  rw [hunit]
  by_cases hsame : source.series = some name ∧ n.seriesIndex = source.seriesIndex
  · simp [hsame]
  · simp [hsame]

/-- What is stored of the series of a form that has none. -/
lemma seriesOverride_none (formIndex : Option ℚ) (sourceName : Option String)
    (sourceIndex : Option ℚ) :
    seriesOverride none formIndex sourceName sourceIndex =
      if sourceName.any (· ≠ "") then some "" else none := by
  have hoverride : textOverride none sourceName =
      if sourceName.any (· ≠ "") then some "" else none := by
    cases sourceName with
    | none => rfl
    | some s => by_cases hs : s = "" <;> simp [textOverride, cleanOptional, hs]
  unfold seriesOverride
  rw [hoverride]
  cases sourceName with
  | none => simp [cleanOptional]
  | some s => by_cases hs : s = "" <;> simp [cleanOptional, hs]

/-- A form without a series clears the series of the source and leaves an index that has none. -/
lemma effectiveSeries_of_none {n : Cleaned} (hseries : n.series = none) (source : SourceMetadata)
    (coverPath : Option String) :
    effectiveSeries (n.overrides source coverPath) source =
      if source.series.any (· ≠ "") then (none, none) else (source.series, source.seriesIndex) := by
  unfold effectiveSeries Cleaned.overrides
  dsimp only
  rw [hseries, seriesOverride_none]
  split_ifs <;> rfl

/-! ## What saving leaves behind -/

section Saving

variable {jsonReal : ℚ → Value} {c c' : Catalog} {uid : String} {i : ℤ} {file : FileRow}
  {source : SourceMetadata} {form : MetadataFields} {n : Cleaned}

/-- The names that a form gives for a list. -/
def Cleaned.names (n : Cleaned) : BookList → List String
  | .authors => n.authors
  | .subjects => n.subjects

/-- What a cleaned form consists of. -/
structure Cleaned.Clean (n : Cleaned) : Prop where
  title : trim n.title = n.title ∧ n.title ≠ ""
  subtitle : cleanOptional n.subtitle = n.subtitle
  publisher : cleanOptional n.publisher = n.publisher
  language : cleanOptional n.language = n.language
  isbn : cleanOptional n.isbn = n.isbn
  description : cleanOptional n.description = n.description
  publicationDate : cleanOptional n.publicationDate = n.publicationDate
  series : cleanOptional n.series = n.series
  names : ∀ list, CleanNames (n.names list)

lemma clean_eq_ok (h : form.clean = .ok n) :
    trim form.title ≠ "" ∧ ∃ index, finiteIndex form.seriesIndex = .ok index ∧
      n = { title := trim form.title
            subtitle := cleanOptional form.subtitle
            publisher := cleanOptional form.publisher
            language := cleanOptional form.language
            isbn := cleanOptional form.isbn
            description := cleanOptional form.description
            publicationDate := cleanOptional form.publicationDate
            series := cleanOptional form.series
            seriesIndex := index
            authors := cleanList form.authors
            subjects := cleanList form.subjects } := by
  obtain ⟨title, htitle, h⟩ := bind_eq_ok h
  obtain ⟨index, hindex, h⟩ := bind_eq_ok h
  cases h
  unfold cleanRequired at htitle
  split_ifs at htitle with hblank
  cases htitle
  exact ⟨hblank, index, hindex, rfl⟩

lemma clean_clean (h : form.clean = .ok n) : n.Clean := by
  obtain ⟨htitle, index, -, rfl⟩ := clean_eq_ok h
  refine ⟨⟨trim_trim _, htitle⟩, cleanOptional_cleanOptional _, cleanOptional_cleanOptional _,
    cleanOptional_cleanOptional _, cleanOptional_cleanOptional _, cleanOptional_cleanOptional _,
    cleanOptional_cleanOptional _, cleanOptional_cleanOptional _, fun list => ?_⟩
  cases list <;> exact cleanNames_cleanList _

/-- A list that the user does not own is that of the source. -/
lemma names_of_not_customized {list : BookList} {coverPath : Option String}
    (h : (n.overrides source coverPath).customized list = false) :
    n.names list = source.names list := by
  cases list <;> simpa [Cleaned.overrides, OverrideRow.customized, Cleaned.names,
    SourceMetadata.names] using h

lemma title_overrides (coverPath : Option String) :
    (n.overrides source coverPath).title = textOverride (some n.title) (some source.title) := by
  rw [Cleaned.overrides]

/-- The title that is merged is the one of the form. -/
lemma rawTitle_overrides (hn : n.Clean) (coverPath : Option String) :
    rawTitle (n.overrides source coverPath) source = n.title := by
  rw [rawTitle, title_overrides, scalarValue_textOverride,
    cleanOptional_some hn.title.1 hn.title.2, Option.getD_some]

lemma primaryFile_congr (h : c'.files = c.files) (uid : String) :
    c'.primaryFile uid = c.primaryFile uid := by
  unfold Catalog.primaryFile
  rw [h]

/-- Sweeping orphans leaves the file that a book is read from, with its snapshot. -/
lemma primaryFile_sweepOrphans (h : c.primaryFile uid = some (i, file)) :
    ∃ file', c.sweepOrphans.primaryFile uid = some (i, file') ∧ file'.source = file.source := by
  set swept : FileRow → FileRow := fun f =>
    { f with
      series := f.series.filter fun name => c.records.entries.any (·.2.seriesId == some name) }
    with hswept
  have hprimary : c.sweepOrphans.primaryFile uid =
      (c.primaryFile uid).map fun e => (e.1, swept e.2) := by
    unfold Catalog.primaryFile Catalog.sweepOrphans Table.mapRows
    dsimp only
    rw [List.filter_map, List.foldl_map]
    change List.foldl _ (Option.map (fun e : ℤ × FileRow => (e.1, swept e.2)) none) _ = _
    refine List.foldl_hom (Option.map fun e : ℤ × FileRow => (e.1, swept e.2)) fun best row => ?_
    cases best with
    | none => rfl
    | some best =>
      simp only [Option.map_some, hswept]
      split_ifs <;> rfl
  refine ⟨swept file, ?_, rfl⟩
  rw [hprimary, h]
  rfl

variable (jsonReal) in
lemma frame_replaceOwned (c : Catalog) (o : OverrideRow) (list : BookList) (uid : String)
    (names : List String) : Catalog.Frame c (c.replaceOwned jsonReal o list uid names).1 := by
  unfold Catalog.replaceOwned
  split_ifs
  · exact Catalog.frame_replaceList jsonReal c list uid names
  · exact Catalog.Frame.refl c

/-- What saving a form leaves behind: the overrides, the lists that the user owns, and the
effective values. -/
structure Saved (c c' : Catalog) (uid : String) (i : ℤ) (n : Cleaned) (source : SourceMetadata) :
    Prop where
  overrides : c'.overridesOf uid = n.overrides source (c.overridesOf uid).coverPath
  record : c'.hasRecord uid = true
  file : ∃ file, c'.primaryFile uid = some (i, file) ∧ file.source = some source
  names : ∀ list, (n.overrides source (c.overridesOf uid).coverPath).customized list = true →
    c'.listOf list uid = n.names list
  values : ∃ (r : RecordRow) (c'' : Catalog), c'.records.lookup uid = some r ∧
    r.seriesId = r.values.series ∧
    r.values = c''.effectiveValues uid n.title
      (n.overrides source (c.overridesOf uid).coverPath) source

variable (jsonReal) in
/-- **Saving a form succeeds** when its values can be cleaned, and leaves what they are. -/
theorem applyForm_spec (hrecord : c.hasRecord uid = true)
    (hfile : c.primaryFile uid = some (i, file)) (hsource : file.source = some source)
    (hclean : form.clean = .ok n) :
    (applyForm jsonReal c uid form).2 = .ok () ∧
      Saved c (applyForm jsonReal c uid form).1 uid i n source := by
  have hn := clean_clean hclean
  have hload : file.loadSource = source := by simp [FileRow.loadSource, hsource]
  set o := n.overrides source (c.overridesOf uid).coverPath with ho
  -- The two lists, then the overrides, then the effective metadata.
  have hauthors := Catalog.replaceOwned_spec jsonReal
    (fun _ : o.customized .authors = true => (hn.names .authors).nodup) hrecord
  have hfiles₁ := (frame_replaceOwned jsonReal c o .authors uid (n.names .authors)).files
  generalize hc₁ : (c.replaceOwned jsonReal o .authors uid (n.names .authors)).1 = c₁ at *
  have hrecord₁ : c₁.hasRecord uid = true := (hauthors.2.2.2.2 uid).trans hrecord
  have hsubjects := Catalog.replaceOwned_spec jsonReal
    (fun _ : o.customized .subjects = true => (hn.names .subjects).nodup) hrecord₁
  have hfiles₂ := (frame_replaceOwned jsonReal c₁ o .subjects uid (n.names .subjects)).files
  generalize hc₂ : (c₁.replaceOwned jsonReal o .subjects uid (n.names .subjects)).1 = c₂ at *
  have hrecord₂ : c₂.hasRecord uid = true := (hsubjects.2.2.2.2 uid).trans hrecord₁
  obtain ⟨hover, hrecords₃⟩ := Catalog.upsertOverrides_spec jsonReal c₂ uid o
  have hplain₃ := Catalog.plain_upsertOverrides jsonReal c₂ uid o
  generalize hc₃ : c₂.upsertOverrides jsonReal uid o = c₃ at *
  have hrecord₃ : c₃.hasRecord uid = true := (hrecords₃ uid).trans hrecord₂
  have ho₃ : (c₃.overrides.lookup uid).getD {} = o := by
    rw [hover, AList.lookup_insert, Option.getD_some]
  have hbookLists₃ : c₃.plain.bookLists = c₂.plain.bookLists := by rw [hplain₃]
  have hlists₃ : ∀ list, c₃.listOf list uid = c₂.listOf list uid := fun list =>
    congrArg (fun lists => (lists.lookup (list, uid)).getD []) hbookLists₃
  have hfiles₃ : c₃.plain.files = c₂.plain.files := by rw [hplain₃]
  replace hfiles₃ : c₃.files = c.files := Eq.trans hfiles₃ (hfiles₂.trans hfiles₁)
  have hrecomputable : c₃.Recomputable uid ((c₃.overrides.lookup uid).getD {}) source := by
    rw [ho₃]
    refine ⟨fun list hlist => ⟨?_, fun _ => hrecord₃⟩, ?_⟩
    · rw [← names_of_not_customized hlist]
      exact (hn.names list).nodup
    · rw [rawTitle_overrides hn, hn.title.1]
      exact hn.title.2
  have hok := (Catalog.recomputeEffective_ok_iff jsonReal c₃ uid source).mpr hrecomputable
  obtain ⟨r, hr, hvalues, hseries⟩ := Import.recomputeEffective_values hrecord₃ hok
  have hkeeps := @Catalog.keepsOwned_recomputeEffective jsonReal c₃ uid o ho₃ source
  have hfiles₄ := (Catalog.frame_recomputeEffective jsonReal c₃ uid source).files.trans hfiles₃
  have hshape : applyForm jsonReal c uid form =
      ((c₃.recomputeEffective jsonReal uid source).1.sweepOrphans, .ok ()) := by
    unfold applyForm
    simp only [hrecord, not_true_eq_false, if_false, hfile, hload, hclean]
    change andThen (c.replaceOwned jsonReal o .authors uid (n.names .authors)) _ = _
    rw [andThen_of_ok hauthors.1, hc₁]
    change andThen (c₁.replaceOwned jsonReal o .subjects uid (n.names .subjects)) _ = _
    rw [andThen_of_ok hsubjects.1, hc₂]
    change andThen ((c₂.upsertOverrides jsonReal uid o).recomputeEffective jsonReal uid source) _ =
      _
    rw [hc₃, andThen_of_ok hok]
  rw [hshape]
  refine ⟨rfl, ?_, ?_, ?_, fun list howned => ?_, r, (c₃.recomputeEffective jsonReal uid source).1,
    hr, hseries, hvalues.trans ?_⟩
  · show ((c₃.recomputeEffective jsonReal uid source).1.overrides.lookup uid).getD {} = o
    rw [hkeeps.overrides, ho₃]
  · exact (hkeeps.records uid).trans hrecord₃
  · have hprimary := (primaryFile_congr hfiles₄ uid).trans hfile
    obtain ⟨file', hfile', hsource'⟩ := primaryFile_sweepOrphans hprimary
    exact ⟨file', hfile', hsource'.trans hsource⟩
  · show (c₃.recomputeEffective jsonReal uid source).1.listOf list uid = n.names list
    rw [hkeeps.lists list howned, hlists₃]
    cases list with
    | authors => exact (hsubjects.2.2.1 .authors (by decide)).trans (hauthors.2.1 howned)
    | subjects => exact hsubjects.2.1 howned
  · rw [Import.overridesOf, ho₃, rawTitle_overrides hn, hn.title.1]

/-- What is shown of a cleaned form. -/
def Cleaned.view (n : Cleaned) (source : SourceMetadata) (o : OverrideRow) : BookMetadata where
  effective :=
    { title := n.title
      subtitle := n.subtitle
      publisher := n.publisher
      language := n.language
      isbn := n.isbn
      description := n.description
      publicationDate := n.publicationDate
      series := (effectiveSeries o source).1
      seriesIndex := (effectiveSeries o source).2.map .finite
      authors := n.authors
      subjects := if o.subjectsCustomized then n.subjects.insertionSort (· ≤ ·) else n.subjects }
  source := sourceFields source
  overridden := overriddenFields o
  coverPath := o.coverPath.or source.coverPath
  sourceCoverPath := source.coverPath

/-- The view after a form was saved. -/
lemma Saved.view (h : Saved c c' uid i n source) (hn : n.Clean) :
    getBookMetadata c' uid =
      some (n.view source (n.overrides source (c.overridesOf uid).coverPath)) := by
  obtain ⟨file, hfile, hsource⟩ := h.file
  obtain ⟨r, c'', hr, hseries, hvalues⟩ := h.values
  have hload : file.loadSource = source := by simp [FileRow.loadSource, hsource]
  have hauthors : effectiveNames c' .authors uid
      (n.overrides source (c.overridesOf uid).coverPath) source = n.authors := by
    unfold effectiveNames
    split_ifs with howned
    · exact h.names .authors howned
    · exact (names_of_not_customized (Bool.eq_false_of_not_eq_true howned)).symm
  have hsubjects : effectiveNames c' .subjects uid
      (n.overrides source (c.overridesOf uid).coverPath) source =
        if (n.overrides source (c.overridesOf uid).coverPath).subjectsCustomized then
          n.subjects.insertionSort (· ≤ ·) else n.subjects := by
    unfold effectiveNames
    split_ifs with howned hcustomized hcustomized
    · show (c'.listOf .subjects uid).insertionSort (· ≤ ·) = _
      rw [h.names .subjects howned]
      rfl
    · exact absurd howned hcustomized
    · exact absurd hcustomized howned
    · exact (names_of_not_customized (Bool.eq_false_of_not_eq_true howned)).symm
  have hscalar : ∀ form source : Option String, cleanOptional form = form →
      scalarValue (textOverride form source) source = form := fun form source hclean =>
    (scalarValue_textOverride form source).trans hclean
  unfold getBookMetadata
  rw [hr, hfile]
  simp only [h.overrides, hload, hauthors, hsubjects, hseries, hvalues]
  simp only [Catalog.effectiveValues, Cleaned.view, Option.getD_some, Cleaned.overrides,
    hscalar _ _ hn.subtitle, hscalar _ _ hn.publisher, hscalar _ _ hn.language,
    hscalar _ _ hn.isbn, hscalar _ _ hn.description, hscalar _ _ hn.publicationDate]

/-- A form that is accepted can be cleaned. -/
lemma clean_of_accepted (hfile : c.primaryFile uid = some (i, file))
    (hok : (applyForm jsonReal c uid form).2 = .ok ()) :
    c.hasRecord uid = true ∧ ∃ n, form.clean = .ok n := by
  unfold applyForm at hok
  split_ifs at hok with hrecord
  rw [hfile] at hok
  dsimp only at hok
  cases hclean : form.clean with
  | error e =>
    rw [hclean] at hok
    cases hok
  | ok n => exact ⟨by simpa using hrecord, n, rfl⟩

/-! ## Saving what is shown -/

/-- What a form that is filled with the view comes to. -/
def Cleaned.again (n : Cleaned) (source : SourceMetadata) (o : OverrideRow) : Cleaned :=
  { n with
    seriesIndex := (effectiveSeries o source).2
    subjects := if o.subjectsCustomized then n.subjects.insertionSort (· ≤ ·) else n.subjects }

lemma clean_view (hn : n.Clean) {o : OverrideRow}
    (hseries : (effectiveSeries o source).1 = n.series) :
    (n.view source o).effective.clean = .ok (n.again source o) := by
  have hindex : finiteIndex ((effectiveSeries o source).2.map .finite) =
      .ok (effectiveSeries o source).2 := by
    cases (effectiveSeries o source).2 <;> rfl
  have htitle : cleanRequired n.title "title" = .ok n.title := by
    rw [cleanRequired, hn.title.1, if_neg hn.title.2]
  have hsubjects : CleanNames
      (if o.subjectsCustomized then n.subjects.insertionSort (· ≤ ·) else n.subjects) := by
    split_ifs
    · exact (hn.names .subjects).perm (List.perm_insertionSort _ _).symm
    · exact hn.names .subjects
  have hauthors : cleanList n.authors = n.authors := (hn.names .authors).cleanList_eq
  unfold MetadataFields.clean
  simp only [Cleaned.view, htitle, hindex, hseries, hn.subtitle, hn.publisher, hn.language,
    hn.isbn, hn.description, hn.publicationDate, hn.series, hauthors, hsubjects.cleanList_eq]
  rfl

/-- A form that the overrides can express is stored again as it was. -/
lemma overrides_again (coverPath : Option String)
    (hindex : n.series = none → source.series = none → source.seriesIndex = none)
    (hcleared : n.series = none → source.series.any (· ≠ "") → n.seriesIndex = none)
    (hnamed : n.series = none → source.series ≠ some "")
    (hclean : cleanOptional n.series = n.series)
    (hsubjects : SameNames n.subjects source.subjects → n.subjects = source.subjects) :
    (n.again source (n.overrides source coverPath)).overrides source coverPath =
      n.overrides source coverPath := by
  set o := n.overrides source coverPath with ho
  have hcustomized : ((n.again source o).subjects != source.subjects) = o.subjectsCustomized := by
    show ((if o.subjectsCustomized then n.subjects.insertionSort (· ≤ ·) else n.subjects) !=
      source.subjects) = (n.subjects != source.subjects)
    have howned : o.subjectsCustomized = (n.subjects != source.subjects) := rfl
    by_cases hsame : n.subjects = source.subjects
    · simp [howned, hsame]
    · have hsorted : n.subjects.insertionSort (· ≤ ·) ≠ source.subjects := by
        intro heq
        refine hsame (hsubjects fun name => ?_)
        rw [← heq, (List.perm_insertionSort _ n.subjects).mem_iff]
      simp only [howned, bne_iff_ne.mpr hsame, if_true, bne_iff_ne.mpr hsorted]
  have hunit : seriesOverride n.series (effectiveSeries o source).2 source.series
      source.seriesIndex = o.series ∧
        (o.series.isSome → (effectiveSeries o source).2 = n.seriesIndex) := by
    show _ = seriesOverride n.series n.seriesIndex source.series source.seriesIndex ∧
      ((seriesOverride n.series n.seriesIndex source.series source.seriesIndex).isSome → _)
    cases hn : n.series with
    | some name =>
      rw [ho, effectiveSeries_of_some hn hclean]
      simp
    | none =>
      rw [ho, effectiveSeries_of_none hn]
      cases hsource : source.series with
      | none => simp [seriesOverride, textOverride, cleanOptional, hindex hn hsource]
      | some s =>
        have hne : s ≠ "" := by
          rintro rfl
          exact hnamed hn hsource
        rw [hcleared hn (by simp [hsource, hne])]
        simp [hne]
  have hpair : (if o.series.isSome then (effectiveSeries o source).2 else none) =
      o.seriesIndex := by
    show _ = if o.series.isSome then n.seriesIndex else none
    split_ifs with hsome
    · exact hunit.2 hsome
    · rfl
  calc (n.again source o).overrides source coverPath
      = { o with
          series := seriesOverride n.series (effectiveSeries o source).2 source.series
            source.seriesIndex
          seriesIndex := if (seriesOverride n.series (effectiveSeries o source).2 source.series
            source.seriesIndex).isSome then (effectiveSeries o source).2 else none
          subjectsCustomized := (n.again source o).subjects != source.subjects } := by
        rw [ho, Cleaned.overrides, Cleaned.overrides]
        rfl
    _ = o := by rw [hunit.1, hpair, hcustomized]

end Saving

/-! ## Which forms are kept -/

section Kept

variable {jsonReal : ℚ → Value} {c : Catalog} {uid : String} {i : ℤ} {file : FileRow}
  {source : SourceMetadata} {form : MetadataFields} {n : Cleaned}

/-- What a form asks for, in its cleaned values. -/
lemma normalized_eq (hclean : form.clean = .ok n) :
    form.normalized =
      { title := n.title
        subtitle := n.subtitle
        publisher := n.publisher
        language := n.language
        isbn := n.isbn
        description := n.description
        publicationDate := n.publicationDate
        series := n.series
        seriesIndex := if n.series.isSome then n.seriesIndex.map .finite else none
        authors := n.authors
        subjects := n.subjects } ∧ form.seriesIndex = n.seriesIndex.map .finite := by
  obtain ⟨-, index, hindex, rfl⟩ := clean_eq_ok hclean
  have hform : form.seriesIndex = index.map .finite := by
    cases hnumber : form.seriesIndex with
    | none =>
      rw [hnumber] at hindex
      cases hindex
      rfl
    | some number =>
      rw [hnumber] at hindex
      cases number with
      | finite value =>
        cases hindex
        rfl
      | notFinite => cases hindex
  refine ⟨?_, hform⟩
  unfold MetadataFields.normalized
  rw [hform]

/-- A view is the form as soon as its series is. -/
lemma sameFields_view_iff (hclean : form.clean = .ok n) (o : OverrideRow) :
    SameFields (n.view source o).effective form.normalized ↔
      effectiveSeries o source = (n.series, if n.series.isSome then n.seriesIndex else none) := by
  have hnames : SameNames (n.view source o).effective.subjects n.subjects := by
    intro name
    show name ∈ (if o.subjectsCustomized then n.subjects.insertionSort (· ≤ ·)
      else n.subjects) ↔ _
    split_ifs
    · exact (List.perm_insertionSort _ _).mem_iff
    · rfl
  have hinj : Function.Injective (Option.map Double.finite) :=
    Option.map_injective fun _ _ h => Double.finite.inj h
  have hindex : (if n.series.isSome then n.seriesIndex.map Double.finite else none) =
      (if n.series.isSome then n.seriesIndex else none).map Double.finite := by
    split_ifs <;> rfl
  rw [(normalized_eq hclean).1, hindex, Prod.ext_iff]
  constructor
  · rintro ⟨hfields, -⟩
    have hseries := congrArg MetadataFields.series hfields
    have hnumber := congrArg MetadataFields.seriesIndex hfields
    exact ⟨hseries, hinj hnumber⟩
  · rintro ⟨hseries, hnumber⟩
    refine ⟨?_, hnames⟩
    unfold Cleaned.view
    dsimp only at hseries hnumber ⊢
    rw [hseries, hnumber]

/-- What is stored is minimal as soon as subjects that are those of the source are not stored. -/
lemma minimal_iff (hclean : form.clean = .ok n) (coverPath : Option String) :
    Minimal (n.overrides source coverPath) form.normalized source ↔
      (SameNames n.subjects source.subjects → n.subjects = source.subjects) := by
  have hn := clean_clean hclean
  have htext : ∀ form source : Option String, cleanOptional form = form → form = source →
      textOverride form source = none := fun form source hclean hsame =>
    textOverride_eq_none (hclean.trans hsame)
  have hcustomized : (n.overrides source coverPath).subjectsCustomized = false ↔
      n.subjects = source.subjects := by
    show (n.subjects != source.subjects) = false ↔ _
    simp
  rw [(normalized_eq hclean).1]
  refine ⟨fun h hsame => hcustomized.mp (h.subjects hsame), fun h => ?_⟩
  refine ⟨fun hsame => ?_, htext _ _ hn.subtitle, htext _ _ hn.publisher, htext _ _ hn.language,
    htext _ _ hn.isbn, htext _ _ hn.description, htext _ _ hn.publicationDate,
    fun hseries hindex => ?_, fun hsame => ?_, fun hsame => hcustomized.mpr (h hsame)⟩
  · rw [title_overrides]
    exact htext _ _ (cleanOptional_some hn.title.1 hn.title.2) (congrArg some hsame)
  · have hunit : seriesOverride n.series n.seriesIndex source.series source.seriesIndex = none := by
      unfold seriesOverride
      rw [htext _ _ hn.series hseries]
      cases hname : n.series with
      | none =>
        have hsource : source.series = none := by
          rw [← hname]
          exact hseries.symm
        simp [hsource, cleanOptional]
      | some name =>
        dsimp only at hindex
        rw [hname] at hindex
        have hsame : n.seriesIndex = source.seriesIndex :=
          Option.map_injective (fun _ _ h => Double.finite.inj h) hindex
        rw [if_pos hsame]
    refine ⟨hunit, ?_⟩
    show (if (seriesOverride n.series n.seriesIndex source.series source.seriesIndex).isSome then
      n.seriesIndex else none) = none
    rw [hunit]
    rfl
  · show (n.authors != source.authors) = false
    simpa using hsame

/-- **Which forms are kept.** For every source metadata, every override row that was stored before
and every form that is accepted: the form is shown as it was saved, stored minimally, and steady,
exactly when it is expressible against the source. -/
theorem kept_iff (jsonReal : ℚ → Value) (c : Catalog) (uid : String) (form : MetadataFields)
    (i : ℤ) (file : FileRow) (source : SourceMetadata)
    (hfile : c.primaryFile uid = some (i, file)) (hsource : file.source = some source)
    (hok : (applyForm jsonReal c uid form).2 = .ok ()) :
    (∃ view, Kept jsonReal (applyForm jsonReal c uid form).1 uid form source view) ↔
      Expressible form source := by
  obtain ⟨hrecord, n, hclean⟩ := clean_of_accepted hfile hok
  have hn := clean_clean hclean
  obtain ⟨-, hsaved⟩ := applyForm_spec jsonReal hrecord hfile hsource hclean
  have hview := hsaved.view hn
  have hover := hsaved.overrides
  obtain ⟨hnormalized, hindex⟩ := normalized_eq hclean
  have hseries : cleanOptional form.series = n.series :=
    congrArg MetadataFields.series hnormalized
  have hsubjects : cleanList form.subjects = n.subjects :=
    congrArg MetadataFields.subjects hnormalized
  obtain ⟨file', hfile', hsource'⟩ := hsaved.file
  generalize (applyForm jsonReal c uid form).1 = c' at *
  set o := n.overrides source (c.overridesOf uid).coverPath with ho
  have hcover : (c'.overridesOf uid).coverPath = (c.overridesOf uid).coverPath := by
    rw [hover, ho, Cleaned.overrides]
  -- Saving the view is saving the cleaned form again.
  have hagain : (effectiveSeries o source).1 = n.series →
      (applyForm jsonReal c' uid (n.view source o).effective).2 = .ok () ∧
        (applyForm jsonReal c' uid (n.view source o).effective).1.overridesOf uid =
          (n.again source o).overrides source (c.overridesOf uid).coverPath ∧
        getBookMetadata (applyForm jsonReal c' uid (n.view source o).effective).1 uid =
          some ((n.again source o).view source
            ((n.again source o).overrides source (c.overridesOf uid).coverPath)) := by
    intro hsame
    have hclean' := clean_view hn hsame
    obtain ⟨hok', hsaved'⟩ := applyForm_spec jsonReal hsaved.record hfile' hsource' hclean'
    have hover' := hsaved'.overrides
    have hview' := hsaved'.view (clean_clean hclean')
    rw [hcover] at hover' hview'
    exact ⟨hok', hover', hview'⟩
  constructor
  · rintro ⟨view, h⟩
    obtain rfl : n.view source o = view := Option.some.inj (hview.symm.trans h.shown)
    have hpair := (sameFields_view_iff hclean o).mp h.same
    have hminimal := h.minimal
    rw [hover, minimal_iff hclean] at hminimal
    refine ⟨fun hsame => ?_, fun hnone => ?_⟩
    · rw [hsubjects] at hsame ⊢
      exact hminimal hsame
    · rw [hseries] at hnone
      have hsteady := h.overrides
      rw [(hagain (by rw [hpair])).2.1, hover] at hsteady
      have hstored : (n.again source o).seriesIndex = none → o.seriesIndex = none := by
        intro hcleared
        rw [← congrArg OverrideRow.seriesIndex hsteady]
        show (if _ then (n.again source o).seriesIndex else none) = none
        rw [hcleared, ite_self]
      have hunit := effectiveSeries_of_none hnone source (c.overridesOf uid).coverPath
      rw [← ho, hpair, hnone] at hunit
      by_cases hnamed : source.series.any (· ≠ "") = true
      · obtain ⟨name, hname, hne⟩ := (Option.any_eq_true _ _).mp hnamed
        refine .inr ⟨name, hname, by simpa using hne, ?_⟩
        have hcleared : (n.again source o).seriesIndex = none := by
          show (effectiveSeries o source).2 = none
          rw [hpair, hnone]
          rfl
        have hnumber : o.seriesIndex = n.seriesIndex := by
          show (if (seriesOverride n.series n.seriesIndex source.series
            source.seriesIndex).isSome then n.seriesIndex else none) = n.seriesIndex
          rw [hnone, seriesOverride_none, if_pos hnamed]
          rfl
        rw [hindex, ← hnumber, hstored hcleared]
        rfl
      · rw [if_neg hnamed] at hunit
        exact .inl ⟨(Prod.mk.inj hunit).1.symm, (Prod.mk.inj hunit).2.symm⟩
  · intro h
    have hnone : n.series = none → (source.series = none ∧ source.seriesIndex = none) ∨
        ∃ name, source.series = some name ∧ name ≠ "" ∧ n.seriesIndex = none := by
      intro hn
      rcases h.series (hseries.trans hn) with hleft | ⟨name, hname, hne, hnumber⟩
      · exact .inl hleft
      · rw [hindex, Option.map_eq_none_iff] at hnumber
        exact .inr ⟨name, hname, hne, hnumber⟩
    have hsame : SameNames n.subjects source.subjects → n.subjects = source.subjects := by
      rw [← hsubjects]
      exact h.subjects
    have hpair : effectiveSeries o source =
        (n.series, if n.series.isSome then n.seriesIndex else none) := by
      cases hname : n.series with
      | some name => rw [ho, effectiveSeries_of_some hname hn.series]; simp
      | none =>
        rw [ho, effectiveSeries_of_none hname]
        rcases hnone hname with ⟨hsource, hnumber⟩ | ⟨name, hsource, hne, -⟩
        · simp [hsource, hnumber]
        · simp [hsource, hne]
    obtain ⟨hok', hover', hview'⟩ := hagain (by rw [hpair])
    have hstored : (n.again source o).overrides source (c.overridesOf uid).coverPath = o := by
      refine overrides_again _ (fun hn hsource => ?_) (fun hn hnamed => ?_) (fun hn hblank => ?_)
        hn.series hsame
      · rcases hnone hn with ⟨-, hnumber⟩ | ⟨name, hname, -, -⟩
        · exact hnumber
        · rw [hsource] at hname
          cases hname
      · rcases hnone hn with ⟨hsource, -⟩ | ⟨-, -, -, hnumber⟩
        · rw [hsource] at hnamed
          cases hnamed
        · exact hnumber
      · rcases hnone hn with ⟨hsource, -⟩ | ⟨name, hname, hne, -⟩
        · rw [hsource] at hblank
          cases hblank
        · exact hne (Option.some.inj (hname.symm.trans hblank))
    rw [hstored] at hover' hview'
    refine ⟨n.view source o, hview, (sameFields_view_iff hclean o).mpr hpair, ?_, hok',
      hover'.trans hover.symm, hview'.trans ?_⟩
    · rw [hover, minimal_iff hclean]
      exact hsame
    · unfold Cleaned.view Cleaned.again
      cases o.subjectsCustomized with
      | false => rfl
      | true =>
        have hsorted : (n.subjects.insertionSort (· ≤ ·)).Pairwise (· ≤ ·) :=
          List.pairwise_insertionSort _ _
        simp only [if_true, hsorted.insertionSort_eq]

end Kept

/-! ## Forms that are not -/

/-- A book with one file of that source. -/
def oneFile (source : SourceMetadata) : Catalog where
  files := AList.insert 1
    { bookUid := some "b", modifiedAt := "2026-01-01", title := source.title
      source := some source } ∅
  records := AList.insert "b" { createdAt := "2026-01-01" } ∅

/-- A form that renames a volume of a series and clears its language. -/
theorem kept_volume :
    ∃ view, Kept (fun _ => .null)
      (applyForm (fun _ => .null)
        (oneFile { title := "Notes", language := some "en", series := some "Engines"
                   seriesIndex := some 2, subjects := ["Computing"] }) "b"
        { title := " Notes II ", series := some "Engines", seriesIndex := some (.finite 3)
          subjects := ["Computing"] }).1 "b"
      { title := " Notes II ", series := some "Engines", seriesIndex := some (.finite 3)
        subjects := ["Computing"] }
      { title := "Notes", language := some "en", series := some "Engines", seriesIndex := some 2
        subjects := ["Computing"] } view := by
  refine (kept_iff (fun _ => .null) _ "b" _ 1
    { bookUid := some "b", modifiedAt := "2026-01-01", title := "Notes"
      source := some { title := "Notes", language := some "en", series := some "Engines"
                       seriesIndex := some 2, subjects := ["Computing"] } } _ rfl rfl
    (by decide +kernel)).mpr ⟨fun _ => by decide +kernel, fun hnone => ?_⟩
  exact absurd hnone (by decide +kernel)

/-- An index without a series stays in the view of a form that has neither; subjects in another
order count as customized; and the index of a form without a series is stored, and gone when the
view is saved. -/
theorem kept_parts :
    ((applyForm (fun _ => .null) (oneFile { title := "Notes", seriesIndex := some 2 }) "b"
        { title := "Notes" }).2 = .ok () ∧
      (getBookMetadata (applyForm (fun _ => .null)
        (oneFile { title := "Notes", seriesIndex := some 2 }) "b" { title := "Notes" }).1
        "b").map (·.effective.seriesIndex) = some (some (.finite 2)) ∧
      ({ title := "Notes" } : MetadataFields).normalized.seriesIndex = none) ∧
    ((applyForm (fun _ => .null)
        (oneFile { title := "Notes", subjects := ["Art", "Computing"] }) "b"
        { title := "Notes", subjects := ["Computing", "Art"] }).1.overridesOf
        "b").subjectsCustomized = true ∧
    ((applyForm (fun _ => .null) (oneFile { title := "Notes", series := some "Engines" }) "b"
        { title := "Notes", seriesIndex := some (.finite 3) }).1.overridesOf "b").seriesIndex =
          some 3 ∧
    ((applyForm (fun _ => .null) (applyForm (fun _ => .null)
        (oneFile { title := "Notes", series := some "Engines" }) "b"
        { title := "Notes", seriesIndex := some (.finite 3) }).1 "b"
        { title := "Notes" }).1.overridesOf "b").seriesIndex = none := by
  decide +kernel

end EditForm

end TuxBooks
