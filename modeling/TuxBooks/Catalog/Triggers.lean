import TuxBooks.Catalog.Tables

set_option relaxedAutoImplicit false
set_option autoImplicit false

/-!
# Row writes and their capture triggers

One function for each kind of row write, doing the write and what its `sync_*` trigger does: it
stores a snapshot of the row as the dirty marker of the entity (migrations `0015_sync.sql`,
`0018_durable_state.sql`, `0019_durable_user_state.sql` and `0023_sync_book_forget.sql`).

A write that touches several rows of one entity keeps the last marker, as the conflict clause of
the trigger does. `jsonReal` is the number that `json_object` renders for a `REAL` column.

## Main definitions

* `TuxBooks.AnnotationRow.snapshot` and its like — the JSON object of a row.
* `TuxBooks.Catalog.putAnnotation`, `TuxBooks.Catalog.putProgress` and so on — the writes.
-/

namespace TuxBooks

/-! ## Snapshots -/

namespace Value

/-- A nullable text column in `json_object`. -/
def ofText : Option String → Value
  | some s => .str s
  | none => .null

/-- A nullable integer column in `json_object`. -/
def ofInt : Option ℤ → Value
  | some n => .int n
  | none => .null

/-- A nullable real column in `json_object`. -/
def ofReal (jsonReal : ℚ → Value) : Option ℚ → Value
  | some q => jsonReal q
  | none => .null

/-- `json_group_array` over names. -/
def ofNames (names : List String) : Value := .arr (names.map .str)

end Value

/-- `json_object`. -/
def jsonObject (entries : List (String × Value)) : Fields :=
  (entries.map fun e => (⟨e.1, e.2⟩ : Sigma fun _ : String => Value)).toAList

section

variable (jsonReal : ℚ → Value)

def AnnotationRow.snapshot (r : AnnotationRow) : Fields :=
  jsonObject [("book_uid", .str r.bookUid), ("sync_uid", .ofText r.syncUid),
    ("kind", .str r.kind), ("cfi", .ofText r.cfi), ("chapter_href", .ofText r.chapterHref),
    ("page_number", .ofInt r.pageNumber), ("page_fraction", .ofReal jsonReal r.pageFraction),
    ("text", .ofText r.text), ("color", .ofText r.color), ("geometry", .ofText r.geometry),
    ("note", .ofText r.note), ("label", .ofText r.label), ("created_at", .str r.createdAt)]

def ProgressRow.snapshot (r : ProgressRow) : Fields :=
  jsonObject [("chapter_href", .ofText r.chapterHref), ("cfi", .ofText r.cfi),
    ("character_offset", .ofInt r.characterOffset), ("page_number", .ofInt r.pageNumber),
    ("scroll_offset", .ofReal jsonReal r.scrollOffset),
    ("progress_percent", .ofReal jsonReal r.progressPercent), ("locator", .ofText r.locator),
    ("progression", .ofReal jsonReal r.progression), ("locations", .ofText r.locations),
    ("engine", .ofText r.engine), ("schema_version", .ofInt r.schemaVersion)]

def CollectionRow.snapshot (r : CollectionRow) : Fields :=
  jsonObject [("sync_uid", .ofText r.syncUid), ("name", .str r.name),
    ("created_at", .str r.createdAt)]

def membershipSnapshot (uid : String) (collection : ℤ) (present : Bool) (addedAt : String) :
    Fields :=
  jsonObject [("book_uid", .str uid), ("collection_id", .int collection),
    ("present", .bool present), ("added_at", .str addedAt)]

def openedSnapshot (lastOpenedAt : Option String) : Fields :=
  jsonObject [("last_opened_at", .ofText lastOpenedAt)]

/-- The view `sync_metadata_snapshot`: the override row with the user-owned lists. -/
def OverrideRow.snapshot (r : OverrideRow) (authors subjects : List String) : Fields :=
  jsonObject [("title", .ofText r.title), ("subtitle", .ofText r.subtitle),
    ("publisher", .ofText r.publisher), ("language", .ofText r.language),
    ("isbn", .ofText r.isbn), ("description", .ofText r.description),
    ("publication_date", .ofText r.publicationDate), ("series", .ofText r.series),
    ("series_index", .ofReal jsonReal r.seriesIndex), ("cover_path", .ofText r.coverPath),
    ("authors_customized", .bool r.authorsCustomized),
    ("authors", if r.authorsCustomized then .ofNames authors else .null),
    ("subjects_customized", .bool r.subjectsCustomized),
    ("subjects", if r.subjectsCustomized then .ofNames subjects else .null)]

end

/-- The snapshot of a reset: every override gone. -/
def resetSnapshot : Fields :=
  jsonObject [("title", .null), ("subtitle", .null), ("publisher", .null), ("language", .null),
    ("isbn", .null), ("description", .null), ("publication_date", .null), ("series", .null),
    ("series_index", .null), ("cover_path", .null), ("authors_customized", .bool false),
    ("authors", .null), ("subjects_customized", .bool false), ("subjects", .null)]

namespace Catalog

/-! ## Reading -/

/-- `list_book_authors` and `list_book_subjects`: authors in display order, subjects by name. -/
def listNames (c : Catalog) (list : BookList) (uid : String) : List String :=
  match list with
  | .authors => c.listOf .authors uid
  | .subjects => (c.listOf .subjects uid).insertionSort (· ≤ ·)

/-- `COALESCE((SELECT authors_customized ...), 0) = 1`, and the same for the subjects. -/
def customized (c : Catalog) (list : BookList) (uid : String) : Bool :=
  (c.overrides.lookup uid).any (·.customized list)

/-! ## Writes -/

/-- `INSERT INTO sync_dirty ... ON CONFLICT DO UPDATE`. -/
def mark (c : Catalog) (key : DirtyKey) (marker : Marker) : Catalog :=
  { c with dirty := c.dirty.insert key marker }

/-- A trigger with a `WHEN` clause. -/
def markWhen (c : Catalog) (cond : Bool) (key : DirtyKey) (marker : Marker) : Catalog :=
  if cond then c.mark key marker else c

section Writes

variable (jsonReal : ℚ → Value)

/-- Insert or update one annotation. -/
def putAnnotation (c : Catalog) (id : ℤ) (r : AnnotationRow) : Catalog :=
  { c with annotations := c.annotations.insert id r }.markWhen (c.hasRecord r.bookUid)
    (DirtyKey.annotation id) (.upsert (r.snapshot jsonReal))

def deleteAnnotation (c : Catalog) (id : ℤ) : Catalog :=
  match c.annotations.lookup id with
  | some r => { c with annotations := c.annotations.erase id }.markWhen (c.hasRecord r.bookUid)
      (DirtyKey.annotation id) (.delete (r.snapshot jsonReal))
  | none => c

/-- Insert or update the saved position of a book. -/
def putProgress (c : Catalog) (uid : String) (r : ProgressRow) : Catalog :=
  { c with progress := c.progress.insert uid r }.markWhen (c.hasRecord uid) (.progress uid)
    (.upsert (r.snapshot jsonReal))

def deleteProgress (c : Catalog) (uid : String) : Catalog :=
  match c.progress.lookup uid with
  | some r => { c with progress := c.progress.erase uid }.markWhen (c.hasRecord uid)
      (.progress uid) (.delete (r.snapshot jsonReal))
  | none => c

/-- Set `last_opened_at`; an unchanged value raises no marker. -/
def setLastOpened (c : Catalog) (uid : String) (lastOpenedAt : Option String) : Catalog :=
  match c.records.lookup uid with
  | some r =>
    { c with records := c.records.insert uid { r with lastOpenedAt := lastOpenedAt } }.markWhen
      (r.lastOpenedAt != lastOpenedAt) (.opened uid) (.upsert (openedSnapshot lastOpenedAt))
  | none => c

/-- `INSERT INTO sync_dirty SELECT ... FROM sync_metadata_snapshot`: nothing without an
override row. -/
def markMetadata (c : Catalog) (uid : String) : Catalog :=
  match c.overrides.lookup uid with
  | some r => c.mark (.metadata uid)
      (.upsert (r.snapshot jsonReal (c.listNames .authors uid) (c.listNames .subjects uid)))
  | none => c

/-- Insert or update the override row of a book. -/
def upsertOverrides (c : Catalog) (uid : String) (r : OverrideRow) : Catalog :=
  let c := { c with overrides := c.overrides.insert uid r }
  if c.hasRecord uid then c.markMetadata jsonReal uid else c

def clearOverrides (c : Catalog) (uid : String) : Catalog :=
  match c.overrides.lookup uid with
  | some _ => { c with overrides := c.overrides.erase uid }.markWhen (c.hasRecord uid)
      (.metadata uid) (.upsert resetSnapshot)
  | none => c

/-- The trigger on a row of a normalized list. -/
def markList (c : Catalog) (list : BookList) (uid : String) : Catalog :=
  if c.customized list uid then c.markMetadata jsonReal uid else c

/-- Delete every row of one list of a book. -/
def deleteList (c : Catalog) (list : BookList) (uid : String) : Catalog :=
  let c' := { c with bookLists := c.bookLists.erase (list, uid) }
  if (c.listOf list uid).isEmpty then c' else c'.markList jsonReal list uid

/-- Insert one row of a list: a name may occur once for each book, and the book must have its
record. -/
def insertName (list : BookList) (uid : String) (c : Catalog) (name : String) :
    Catalog × Except AppError Unit :=
  if name ∈ c.listOf list uid then (c, .error (.database "UNIQUE constraint failed"))
  else if ¬c.hasRecord uid then (c, .error (.database "FOREIGN KEY constraint failed"))
  else
    let c := { c with bookLists := c.bookLists.insert (list, uid) (c.listOf list uid ++ [name]) }
    (c.markList jsonReal list uid, .ok ())

/-- `UPDATE ... SET book_uid` on the rows of one list, for a winner without rows. -/
def moveList (c : Catalog) (list : BookList) (loser winner : String) : Catalog :=
  let names := c.listOf list loser
  let c' := { c with bookLists := (c.bookLists.erase (list, loser)).insert (list, winner) names }
  if names.isEmpty then c' else c'.markList jsonReal list winner

end Writes

/-- Insert or update one collection. -/
def putCollection (c : Catalog) (id : ℤ) (r : CollectionRow) : Catalog :=
  { c with collections := c.collections.insert id r }.mark (.collection id) (.upsert r.snapshot)

/-- Delete one collection. Its memberships go by cascade and raise no marker, since their
collection is gone by then. -/
def deleteCollection (c : Catalog) (id : ℤ) : Catalog :=
  match c.collections.lookup id with
  | some r =>
    { c with
      collections := c.collections.erase id
      bookCollections := c.bookCollections.filterRows fun k _ => k.2 != id }.mark
        (.collection id) (.delete r.snapshot)
  | none => c

/-- Insert a membership, or move its `added_at`, which raises no marker. -/
def putMembership (c : Catalog) (uid : String) (collection : ℤ) (addedAt : String) : Catalog :=
  let c' := { c with bookCollections := c.bookCollections.insert (uid, collection) addedAt }
  c'.markWhen ((c.bookCollections.lookup (uid, collection)).isNone && c.hasRecord uid &&
      (c.collections.lookup collection).isSome)
    (.membership uid collection) (.upsert (membershipSnapshot uid collection true addedAt))

def deleteMembership (c : Catalog) (uid : String) (collection : ℤ) : Catalog :=
  match c.bookCollections.lookup (uid, collection) with
  | some addedAt =>
    { c with bookCollections := c.bookCollections.erase (uid, collection) }.markWhen
      (c.hasRecord uid && (c.collections.lookup collection).isSome) (.membership uid collection)
      (.delete (membershipSnapshot uid collection false addedAt))
  | none => c

end Catalog

end TuxBooks
