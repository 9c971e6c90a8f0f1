import TuxBooks.Sync.Model

set_option relaxedAutoImplicit false
set_option autoImplicit false

/-!
# The local catalog

The tables of the library database that synchronization reads and writes (migrations
`0001_init.sql` to `0029_reid_zero_book_record_ids.sql`), with the dirty markers that their
triggers raise.

A durable book is named by its uid: the numeric `book_records.id` stands for the uid one to one
and is left out. Authors, subjects and series are named by their unique name. The ordered
authors of a book are a list, in place of rows with a `position`. Timestamps that nothing here
reads are left out.

## Main definitions

* `TuxBooks.FileRow`, `TuxBooks.RecordRow`, `TuxBooks.OverrideRow` — files, durable books and the
  user's metadata.
* `TuxBooks.AnnotationRow`, `TuxBooks.ProgressRow`, `TuxBooks.CollectionRow` — user state.
* `TuxBooks.DirtyKey`, `TuxBooks.Marker` — one row of `sync_dirty`.
* `TuxBooks.Catalog` — all the tables.
* `TuxBooks.Catalog.Schema` — the uniqueness constraints that are not primary keys.
-/

namespace TuxBooks

/-! ## Books -/

/-- A book's source-file truth: one row of `book_source_metadata` with its JSON lists read. -/
structure SourceMetadata where
  title : String := ""
  subtitle : Option String := none
  publisher : Option String := none
  language : Option String := none
  isbn : Option String := none
  description : Option String := none
  publicationDate : Option String := none
  series : Option String := none
  seriesIndex : Option ℚ := none
  coverPath : Option String := none
  authors : List String := []
  subjects : List String := []
  deriving DecidableEq

/-- One row of `books` with its `book_source_metadata` row, if there is one. -/
structure FileRow where
  bookUid : Option String
  modifiedAt : String
  title : String
  subtitle : Option String := none
  author : Option String := none
  publisher : Option String := none
  language : Option String := none
  isbn : Option String := none
  description : Option String := none
  publicationDate : Option String := none
  series : Option String := none
  seriesIndex : Option ℚ := none
  coverPath : Option String := none
  source : Option SourceMetadata := none
  deriving DecidableEq

/-- One row of `book_metadata_overrides`. `none` inherits the source value; an empty string
means "explicitly cleared". -/
structure OverrideRow where
  title : Option String := none
  subtitle : Option String := none
  publisher : Option String := none
  language : Option String := none
  isbn : Option String := none
  description : Option String := none
  publicationDate : Option String := none
  series : Option String := none
  seriesIndex : Option ℚ := none
  coverPath : Option String := none
  authorsCustomized : Bool := false
  subjectsCustomized : Bool := false
  deriving DecidableEq

/-- The effective metadata columns of `book_records`. -/
structure EffectiveValues where
  title : Option String := none
  subtitle : Option String := none
  author : Option String := none
  publisher : Option String := none
  language : Option String := none
  isbn : Option String := none
  description : Option String := none
  publicationDate : Option String := none
  series : Option String := none
  seriesIndex : Option ℚ := none
  coverPath : Option String := none
  deriving DecidableEq

/-- One row of `book_records`. -/
structure RecordRow where
  createdAt : String
  values : EffectiveValues := {}
  /-- The series row that `series_id` names. -/
  seriesId : Option String := none
  lastOpenedAt : Option String := none
  progressPercent : Option ℚ := none
  annotationCount : ℕ := 0
  /-- Whether `metadata_state` is `available`. -/
  available : Bool := false
  deriving DecidableEq

/-- The two normalized lists of a book. -/
inductive BookList where
  | authors
  | subjects
  deriving DecidableEq, Repr

/-- Whether the user owns a list, or it follows the file. -/
def OverrideRow.customized (r : OverrideRow) : BookList → Bool
  | .authors => r.authorsCustomized
  | .subjects => r.subjectsCustomized

/-- The list that a source file names. -/
def SourceMetadata.names (s : SourceMetadata) : BookList → List String
  | .authors => s.authors
  | .subjects => s.subjects

/-! ## User state -/

/-- One row of `annotations`. -/
structure AnnotationRow where
  bookUid : String
  syncUid : Option String
  kind : String
  cfi : Option String := none
  chapterHref : Option String := none
  pageNumber : Option ℤ := none
  pageFraction : Option ℚ := none
  text : Option String := none
  color : Option String := none
  geometry : Option String := none
  note : Option String := none
  label : Option String := none
  createdAt : String
  deriving DecidableEq

/-- One row of `reading_progress`. -/
structure ProgressRow where
  chapterHref : Option String := none
  cfi : Option String := none
  characterOffset : Option ℤ := none
  pageNumber : Option ℤ := none
  scrollOffset : Option ℚ := none
  progressPercent : Option ℚ := none
  locator : Option String := none
  progression : Option ℚ := none
  locations : Option String := none
  engine : Option String := none
  schemaVersion : Option ℤ := none
  updatedAt : String
  deriving DecidableEq

/-- One row of `collections`. -/
structure CollectionRow where
  syncUid : Option String
  name : String
  createdAt : String
  deriving DecidableEq

/-! ## Dirty markers -/

/-- The kind and the entity key of a row of `sync_dirty`. A numeric key is the row id that the
trigger casts to text. -/
inductive DirtyKey where
  | annotation (id : ℤ)
  | progress (bookUid : String)
  | metadata (bookUid : String)
  | collection (id : ℤ)
  | membership (bookUid : String) (collectionId : ℤ)
  | opened (bookUid : String)
  | bookIdentity (contentHash : String)
  | book (bookUid : String)
  deriving DecidableEq, Repr

inductive MarkerOp where
  | upsert
  | delete
  deriving DecidableEq, Repr

/-- The columns `op`, `old_json` and `new_json` of a row of `sync_dirty`. -/
structure Marker where
  op : MarkerOp
  oldJson : Option Fields
  newJson : Option Fields
  deriving DecidableEq

/-- The marker of an insert or an update: the snapshot after it. -/
def Marker.upsert (snapshot : Fields) : Marker := ⟨.upsert, none, some snapshot⟩

/-- The marker of a delete: the snapshot before it. -/
def Marker.delete (snapshot : Fields) : Marker := ⟨.delete, some snapshot, none⟩

/-- `snapshot_for`: a delete carries the old row, anything else the new one. -/
def Marker.snapshot (marker : Marker) : Option Fields :=
  match marker.op with
  | .delete => marker.oldJson
  | .upsert => marker.newJson

/-! ## The catalog -/

/-- The library tables. -/
structure Catalog where
  /-- `books` and `book_source_metadata`. -/
  files : Table ℤ FileRow := ∅
  /-- `book_records`. -/
  records : Table String RecordRow := ∅
  /-- `book_metadata_overrides`. -/
  overrides : Table String OverrideRow := ∅
  /-- `book_authors` and `book_subjects`: the rows of a book in the order of insertion. -/
  bookLists : Table (BookList × String) (List String) := ∅
  annotations : Table ℤ AnnotationRow := ∅
  /-- `reading_progress`. -/
  progress : Table String ProgressRow := ∅
  collections : Table ℤ CollectionRow := ∅
  /-- `book_collections`: book uid and collection id to `added_at`. -/
  bookCollections : Table (String × ℤ) String := ∅
  /-- `sync_dirty`. -/
  dirty : Table DirtyKey Marker := ∅
  /-- The last row id that `AUTOINCREMENT` gave to an annotation. -/
  annotationSeq : ℤ := 0
  /-- The last row id that `AUTOINCREMENT` gave to a collection. -/
  collectionSeq : ℤ := 0

namespace Catalog

/-- Whether a durable book has its record. -/
def hasRecord (c : Catalog) (uid : String) : Bool := (c.records.lookup uid).isSome

/-- The durable book that a file row points at. -/
def fileUid (c : Catalog) (file : ℤ) : Option String := (c.files.lookup file).bind (·.bookUid)

/-- The rows of one list of a book. -/
def listOf (c : Catalog) (list : BookList) (uid : String) : List String :=
  (c.bookLists.lookup (list, uid)).getD []

/-- The row of the collection with a portable uid. -/
def localCollectionId (c : Catalog) (uid : String) : Option ℤ :=
  (c.collections.entries.find? fun e => e.2.syncUid == some uid).map (·.1)

/-- The constraints of the schema that the tables do not carry: portable uids and collection
names are unique, list entries are unique for each book, row ids are below the sequence, and
user state refers to a record. -/
structure Schema (c : Catalog) : Prop where
  annotationUid : ∀ i j r s, c.annotations.lookup i = some r → c.annotations.lookup j = some s →
    r.syncUid = s.syncUid → r.syncUid.isSome → i = j
  collectionUid : ∀ i j r s, c.collections.lookup i = some r → c.collections.lookup j = some s →
    r.syncUid = s.syncUid → r.syncUid.isSome → i = j
  collectionName : ∀ i j r s, c.collections.lookup i = some r → c.collections.lookup j = some s →
    r.name = s.name → i = j
  list : ∀ k uid, (c.listOf k uid).Nodup
  annotationId : ∀ i r, c.annotations.lookup i = some r → i ≤ c.annotationSeq
  collectionId : ∀ i r, c.collections.lookup i = some r → i ≤ c.collectionSeq
  annotationBook : ∀ i r, c.annotations.lookup i = some r → c.hasRecord r.bookUid
  membership : ∀ uid i t, c.bookCollections.lookup (uid, i) = some t →
    c.hasRecord uid ∧ (c.collections.lookup i).isSome

end Catalog

end TuxBooks
