import Mathlib.Data.List.DropRight
import TuxBooks.Catalog.Triggers
import TuxBooks.Lib.Fallible
import TuxBooks.Sync.Store

set_option relaxedAutoImplicit false
set_option autoImplicit false

/-!
# Effective metadata

`sidecar/src/repository/metadata.rs` and `apply_synced_overrides` of
`sidecar/src/services/metadata.rs`: the effective view of a durable book, recomputed from the
source metadata of its most recently refreshed file and the user's overrides.

## Main definitions

* `TuxBooks.FileRow.loadSource` — the source snapshot of a file row.
* `TuxBooks.Catalog.recomputeEffective` — the merge rules.
* `TuxBooks.Catalog.applySyncedOverrides` — an override that arrived by synchronization.
-/

namespace TuxBooks

open Fallible

/-- `str::trim`. -/
def trim (s : String) : String :=
  String.ofList (((s.toList.dropWhile isWhite).reverse.dropWhile isWhite).reverse)

/-- White space at the ends goes at once. -/
lemma trim_trim (text : String) : trim (trim text) = trim text := by
  have hhead : ((text.toList.dropWhile isWhite).rdropWhile isWhite).dropWhile isWhite =
      (text.toList.dropWhile isWhite).rdropWhile isWhite := by
    refine List.dropWhile_eq_self_iff.mpr fun hl => ?_
    have hpre := List.rdropWhile_prefix isWhite (text.toList.dropWhile isWhite)
    rw [hpre.getElem hl]
    exact List.dropWhile_get_zero_not isWhite text.toList (hl.trans_le hpre.length_le)
  change String.ofList ((((String.ofList ((text.toList.dropWhile isWhite).rdropWhile
    isWhite)).toList.dropWhile isWhite)).rdropWhile isWhite) = _
  rw [String.toList_ofList, hhead, List.rdropWhile_idempotent]
  rfl

/-- Merge one scalar: `none` inherits the source, the empty string clears. -/
def scalarValue (override source : Option String) : Option String :=
  match override with
  | none => source.filter (· ≠ "")
  | some value => if value = "" then none else some value

/-- The effective series name and index, one unit. -/
def effectiveSeries (overrides : OverrideRow) (source : SourceMetadata) :
    Option String × Option ℚ :=
  match overrides.series with
  | none => (source.series, source.seriesIndex)
  | some "" => (none, none)
  | some name => (some name, overrides.seriesIndex)

/-- The `author` column: the list joined for display. -/
def displayAuthors (authors : List String) : Option String :=
  if authors.isEmpty then none else some (String.intercalate ", " authors)

def cleanRequired (value field : String) : Except AppError String :=
  if trim value = "" then .error (.invalidInput (field ++ " must not be empty"))
  else .ok (trim value)

/-- The effective title that the override and the source leave, before it is cleaned. -/
def rawTitle (overrides : OverrideRow) (source : SourceMetadata) : String :=
  (scalarValue overrides.title (some source.title)).getD ""

/-- Read the source snapshot for one file row, falling back to the row's own columns. -/
def FileRow.loadSource (f : FileRow) : SourceMetadata :=
  match f.source with
  | some source => source
  | none =>
    { title := f.title
      subtitle := f.subtitle
      publisher := f.publisher
      language := f.language
      isbn := f.isbn
      description := f.description
      publicationDate := f.publicationDate
      series := f.series
      seriesIndex := f.seriesIndex
      coverPath := f.coverPath
      authors := ((f.author.map trim).filter (· ≠ "")).toList }

namespace Catalog

/-- The most recently refreshed file of a book, the highest id on a tie. -/
def primaryFile (c : Catalog) (uid : String) : Option (ℤ × FileRow) :=
  (c.files.entries.filter fun e => e.2.bookUid == some uid).foldl
    (fun best e => match best with
      | none => some (e.1, e.2)
      | some (i, f) =>
        if f.modifiedAt < e.2.modifiedAt ∨ f.modifiedAt = e.2.modifiedAt ∧ i < e.1 then
          some (e.1, e.2)
        else some (i, f))
    none

/-- Write the effective columns of a durable book. -/
def applyEffective (c : Catalog) (uid : String) (values : EffectiveValues) : Catalog :=
  match c.records.lookup uid with
  | some r => { c with
      records := c.records.insert uid { r with values := values, seriesId := values.series } }
  | none => c

section

variable (jsonReal : ℚ → Value)

/-- `replace_book_authors` and `replace_book_subjects`. -/
def replaceList (c : Catalog) (list : BookList) (uid : String) (names : List String) :
    Catalog × Except AppError Unit :=
  each (insertName jsonReal list uid) (c.deleteList jsonReal list uid) names

/-- A list follows the file unless the user owns it. -/
def followSource (c : Catalog) (list : BookList) (uid : String) (overrides : OverrideRow)
    (source : SourceMetadata) : Catalog × Except AppError Unit :=
  if overrides.customized list then (c, .ok ())
  else c.replaceList jsonReal list uid (source.names list)

/-- The effective values of a book whose title was cleaned. -/
def effectiveValues (c : Catalog) (uid title : String) (overrides : OverrideRow)
    (source : SourceMetadata) : EffectiveValues :=
  let authors := if overrides.authorsCustomized then c.listNames .authors uid else source.authors
  let series := effectiveSeries overrides source
  { title := some title
    subtitle := scalarValue overrides.subtitle source.subtitle
    author := displayAuthors authors
    publisher := scalarValue overrides.publisher source.publisher
    language := scalarValue overrides.language source.language
    isbn := scalarValue overrides.isbn source.isbn
    description := scalarValue overrides.description source.description
    publicationDate := scalarValue overrides.publicationDate source.publicationDate
    series := series.1
    seriesIndex := series.2
    coverPath := overrides.coverPath.or source.coverPath }

/-- Recompute a durable book's effective metadata from one file's source snapshot plus the
book's overrides. -/
def recomputeEffective (c : Catalog) (uid : String) (source : SourceMetadata) :
    Catalog × Except AppError Unit :=
  let overrides := (c.overrides.lookup uid).getD {}
  andThen (c.followSource jsonReal .authors uid overrides source) fun c _ =>
    andThen (c.followSource jsonReal .subjects uid overrides source) fun c _ =>
      match cleanRequired (rawTitle overrides source) "title" with
      | .error e => (c, .error e)
      | .ok title => (c.applyEffective uid (c.effectiveValues uid title overrides source), .ok ())

/-- Recompute from the primary file, when the book has a file. -/
def recomputePrimary (c : Catalog) (uid : String) : Catalog × Except AppError Unit :=
  match c.primaryFile uid with
  | some (_, file) => c.recomputeEffective jsonReal uid file.loadSource
  | none => (c, .ok ())

/-- Delete the series rows that no record names: a file row that named one names none. Author
and subject rows without a book have no other effect. -/
def sweepOrphans (c : Catalog) : Catalog :=
  { c with files := c.files.mapRows fun _ (f : FileRow) =>
      { f with series := f.series.filter fun name =>
          c.records.entries.any fun e => e.2.seriesId == some name } }

/-- Apply a metadata override that arrived from cloud-folder sync. -/
def applySyncedOverrides (c : Catalog) (uid : String) (overrides : OverrideRow)
    (authors subjects : List String) : Catalog × Except AppError Unit :=
  if ¬c.hasRecord uid then (c, .ok ())
  else
    let c := c.upsertOverrides jsonReal uid overrides
    andThen (if overrides.authorsCustomized then c.replaceList jsonReal .authors uid authors
      else (c, .ok ())) fun c _ =>
    andThen (if overrides.subjectsCustomized then c.replaceList jsonReal .subjects uid subjects
      else (c, .ok ())) fun c _ =>
    andThen (c.recomputePrimary jsonReal uid) fun c _ => (c.sweepOrphans, .ok ())

end

end Catalog

end TuxBooks
