import TuxBooks.Catalog.Metadata
import TuxBooks.Sync.Inbox

set_option relaxedAutoImplicit false
set_option autoImplicit false

/-!
# Projecting mirror state into local rows

The `project_*` functions of `sidecar/src/sync/merge.rs`: each takes the state of one entity out of
the mirror and writes the local row that it stands for, through the same row writes as a local
edit.

A row id and the uid of its book stand for each other, so the functions take the uid. Annotations
and positions come with the `CHECK` constraints of their tables. `now` is the time that SQLite puts
in where a column defaults to it.

## Main definitions

* `TuxBooks.State.stringOrNone` and its like — one field of a state as a column.
* `TuxBooks.CoverSource` — where a cover comes from on the device that projects.
* `TuxBooks.Catalog.projectProgress`, `TuxBooks.Catalog.projectOpened`,
  `TuxBooks.Catalog.projectMetadata`, `TuxBooks.Catalog.projectMembership`,
  `TuxBooks.Catalog.projectAnnotation` — the projections.
-/

namespace TuxBooks

/-! ## Columns of a state -/

namespace State

variable (state : State) (field : String)

def stringOrNone : Option String := (state.lookup field).bind Value.asStr

def integerOrNone : Option ℤ := (state.lookup field).bind Value.asI64

def numberOrNone : Option ℚ := (state.lookup field).bind Value.asF64

/-- `.and_then(Value::as_bool).unwrap_or(false)`. -/
def boolOrFalse : Bool := ((state.lookup field).bind Value.asBool).getD false

def stringList : List String :=
  match (state.lookup field).bind Value.asArray with
  | some items => items.filterMap Value.asStr
  | none => []

end State

open State

/-! ## Covers -/

/-- `Path::join` with a file name. -/
def joinPath (dir name : String) : String :=
  if dir = "" ∨ dir.toList.getLast? = some '/' then dir ++ name else dir ++ "/" ++ name

/-- The sync folder and the covers directory of a device, with the error that the file system
reports for a copy, if any. -/
structure CoverSource where
  root : Folder := {}
  path : String
  names : List String := []
  io : Option AppError := none

/-- The local path of a cover that a state names; none while the cover is not there. -/
def CoverSource.localPath (source : CoverSource) (cover : Option String) :
    Except AppError (Option String) :=
  match cover with
  | none => .ok none
  | some name =>
    match (applyCoverBlob source.root source.io source.names name).2 with
    | .error e => .error e
    | .ok true => .ok (some (joinPath source.path name))
    | .ok false => .ok none

/-! ## Rows -/

/-- The row that a state of a position stands for. -/
def ProgressRow.ofState (state : State) (now : String) : ProgressRow where
  chapterHref := stringOrNone state "chapter_href"
  cfi := stringOrNone state "cfi"
  characterOffset := integerOrNone state "character_offset"
  pageNumber := integerOrNone state "page_number"
  scrollOffset := numberOrNone state "scroll_offset"
  progressPercent := numberOrNone state "progress_percent"
  locator := stringOrNone state "locator"
  progression := numberOrNone state "progression"
  locations := stringOrNone state "locations"
  engine := stringOrNone state "engine"
  schemaVersion := integerOrNone state "schema_version"
  updatedAt := now

/-- The override row that a state of metadata stands for, with the cover already in place. -/
def OverrideRow.ofState (state : State) (coverPath : Option String) : OverrideRow where
  title := stringOrNone state "title"
  subtitle := stringOrNone state "subtitle"
  publisher := stringOrNone state "publisher"
  language := stringOrNone state "language"
  isbn := stringOrNone state "isbn"
  description := stringOrNone state "description"
  publicationDate := stringOrNone state "publication_date"
  series := stringOrNone state "series"
  seriesIndex := numberOrNone state "series_index"
  coverPath := coverPath
  authorsCustomized := boolOrFalse state "authors_customized"
  subjectsCustomized := boolOrFalse state "subjects_customized"

/-- The row that a state of an annotation stands for. -/
def AnnotationRow.ofState (state : State) (bookUid uid now : String) : AnnotationRow where
  bookUid := bookUid
  syncUid := some uid
  kind := (stringOrNone state "kind").getD "bookmark"
  cfi := stringOrNone state "cfi"
  chapterHref := stringOrNone state "chapter_href"
  pageNumber := integerOrNone state "page_number"
  pageFraction := numberOrNone state "page_fraction"
  text := stringOrNone state "text"
  color := stringOrNone state "color"
  geometry := stringOrNone state "geometry"
  note := stringOrNone state "note"
  label := stringOrNone state "label"
  createdAt := (stringOrNone state "created_at").getD now

/-- The `CHECK` constraints of `reading_progress`. -/
def ProgressRow.Checked (r : ProgressRow) : Prop :=
  (∀ p ∈ r.progressPercent, 0 ≤ p ∧ p ≤ 100) ∧ ∀ p ∈ r.progression, 0 ≤ p ∧ p ≤ 1

instance (r : ProgressRow) : Decidable r.Checked := inferInstanceAs (Decidable (_ ∧ _))

/-- The `CHECK` constraints of `annotations`. -/
def AnnotationRow.Checked (r : AnnotationRow) : Prop :=
  (r.kind = "bookmark" ∨ r.kind = "highlight") ∧ (∀ n ∈ r.pageNumber, 1 ≤ n) ∧
    ∀ p ∈ r.pageFraction, 0 ≤ p ∧ p ≤ 1

instance (r : AnnotationRow) : Decidable r.Checked := inferInstanceAs (Decidable (_ ∧ _ ∧ _))

namespace Catalog

/-- The row of the annotation with a portable uid. -/
def localAnnotationId (c : Catalog) (uid : String) : Option ℤ :=
  (c.annotations.entries.find? fun e => e.2.syncUid == some uid).map (·.1)

/-! ## Projections -/

section

variable (jsonReal : ℚ → Value)

def projectProgress (c : Catalog) (bookUid : String) (state : State) (deleted : Bool)
    (now : String) : Catalog × Except AppError Unit :=
  if deleted then (c.deleteProgress jsonReal bookUid, .ok ())
  else if (ProgressRow.ofState state now).Checked then
    (c.putProgress jsonReal bookUid (ProgressRow.ofState state now), .ok ())
  else (c, .error (.database "CHECK constraint failed: reading_progress"))

def projectOpened (c : Catalog) (bookUid : String) (state : State) : Catalog :=
  c.setLastOpened bookUid (stringOrNone state "last_opened_at")

def projectMetadata (c : Catalog) (bookUid : String) (source : CoverSource) (state : State) :
    Catalog × Except AppError Unit :=
  match source.localPath (stringOrNone state "cover_path") with
  | .error e => (c, .error e)
  | .ok coverPath =>
    c.applySyncedOverrides jsonReal bookUid (OverrideRow.ofState state coverPath)
      (State.stringList state "authors") (State.stringList state "subjects")

/-- A state without a time keeps the time of the row there is. -/
def projectMembership (c : Catalog) (entityUid : String) (state : State) (now : String) : Catalog :=
  match splitOnce ':' entityUid with
  | none => c
  | some (collectionUid, bookUid) =>
    if ¬c.hasRecord bookUid then c
    else match c.localCollectionId collectionUid with
      | none => c
      | some id =>
        if boolOrFalse state "present" then
          c.putMembership bookUid id ((stringOrNone state "added_at").getD
            ((c.bookCollections.lookup (bookUid, id)).getD now))
        else c.deleteMembership bookUid id

/-- An annotation that is there keeps its row id and its time of creation. -/
def projectAnnotation (c : Catalog) (bookUid uid : String) (state : State) (deleted : Bool)
    (now : String) : Catalog × Except AppError Unit :=
  match c.localAnnotationId uid with
  | some id =>
    if deleted then (c.deleteAnnotation jsonReal id, .ok ())
    else
      let row := AnnotationRow.ofState state bookUid uid now
      if row.Checked then
        let createdAt := ((c.annotations.lookup id).map (·.createdAt)).getD row.createdAt
        (c.putAnnotation jsonReal id { row with createdAt := createdAt }, .ok ())
      else (c, .error (.database "CHECK constraint failed: annotations"))
  | none =>
    if deleted then (c, .ok ())
    else
      let row := AnnotationRow.ofState state bookUid uid now
      if row.Checked then
        let c := { c with annotationSeq := c.annotationSeq + 1 }
        (c.putAnnotation jsonReal c.annotationSeq row, .ok ())
      else (c, .error (.database "CHECK constraint failed: annotations"))

end

end Catalog

end TuxBooks
