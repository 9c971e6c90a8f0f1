import TuxBooks.Device.Device
import TuxBooks.Lib.Routine

set_option relaxedAutoImplicit false
set_option autoImplicit false

/-!
# Reset, Forget and Restore

`sidecar/src/repository/lifecycle/` without `remote.rs`: a durable book goes to the 30-day trash as
a snapshot, and comes back from it. A command is a routine that asks the database one statement or
one transaction at a time, so that it can stop, or another command can run, between two of them.

The numeric `book_records.id` stands for the uid, as in `TuxBooks.Catalog`, and `snapshot_json` is
kept as the snapshot that the text stands for. The rows of `authors` and `subjects` are their names,
so the statements that insert them are left out.

## Main definitions

* `TuxBooks.Lifecycle.Db` — the library database with the tables around the trash.
* `TuxBooks.Lifecycle.BookSnapshot` — what a row of `book_trash` holds.
* `TuxBooks.Lifecycle.Req`, `TuxBooks.Lifecycle.exec` — the statements and the transactions.
* `TuxBooks.Lifecycle.forget`, `TuxBooks.Lifecycle.restore`, `TuxBooks.Lifecycle.reset` — the
  commands.
-/

namespace TuxBooks

namespace Lifecycle

/-! ## Rows -/

inductive ProviderReadingStatus where
  | wantToRead
  | reading
  | paused
  | finished
  | dropped
  deriving DecidableEq, Repr

/-- One row of `book_provider_links`. -/
structure LinkRow where
  remoteId : String
  status : Option ProviderReadingStatus := none
  statusUpdatedAt : Option String := none
  linkedAt : String
  updatedAt : String
  deriving DecidableEq

/-- One row of `book_provider_pending_progress`. -/
structure PendingRow where
  progressPercent : ℚ
  queuedAt : String
  deriving DecidableEq

/-- The row of `book_records`, with the series that `series_id` names. -/
structure BookRowSnapshot where
  uid : String
  createdAt : String
  values : EffectiveValues
  lastOpenedAt : Option String
  progressPercent : Option ℚ
  annotationCount : ℕ
  available : Bool
  deriving DecidableEq

/-- An annotation without its row id. -/
structure AnnotationSnapshot where
  row : AnnotationRow
  modifiedAt : String
  deriving DecidableEq

structure CollectionSnapshot where
  collectionId : ℤ
  addedAt : String
  collectionUid : Option String
  collectionName : Option String
  deriving DecidableEq

structure ProviderSnapshot where
  provider : String
  row : LinkRow
  deriving DecidableEq

/-- What Forget keeps of a book. -/
structure BookSnapshot where
  book : BookRowSnapshot
  progress : Option ProgressRow
  annotations : List AnnotationSnapshot
  collections : List CollectionSnapshot
  overrides : Option OverrideRow
  authors : List String
  subjects : List String
  providers : List ProviderSnapshot
  aliases : List String
  deriving DecidableEq

inductive Resolution where
  | restore
  | discard
  deriving DecidableEq, Repr

/-- One row of `book_trash`. -/
structure TrashEntry where
  bookUid : String
  replacement : Option String
  snapshot : BookSnapshot
  deletedAt : String
  expiresAt : String
  restoredAt : Option String := none
  resolution : Option Resolution := none
  deriving DecidableEq

/-- The library database. -/
structure Db extends Device where
  /-- `series`, by name. -/
  series : List String := []
  /-- The column `modified_at` of `annotations`. -/
  modifiedAt : Table ℤ String := ∅
  /-- `book_provider_links`: by book and provider. -/
  links : Table (String × String) LinkRow := ∅
  /-- `book_provider_pending_progress`. -/
  pending : Table (String × String) PendingRow := ∅
  /-- `book_edition_links`: both books to `linked_at`. -/
  editions : Table (String × String) String := ∅
  /-- `book_trash`. -/
  bookTrash : Table ℤ TrashEntry := ∅
  /-- The last row id that `AUTOINCREMENT` gave to a trash entry. -/
  trashSeq : ℤ := 0

/-- How the database renders JSON: a `REAL` column, and `snapshot_json`. -/
structure Codec where
  real : ℚ → Value
  snapshot : BookSnapshot → String

/-- What a command draws: the time, the end of the 30 days, and a random uid. -/
structure Drawn where
  now : String
  expiresAt : String
  fresh : String

namespace Db

/-! ## Reading -/

def bookRow (s : Db) (uid : String) : Option BookRowSnapshot :=
  (s.catalog.records.lookup uid).map fun r =>
    { uid := uid
      createdAt := r.createdAt
      values := { r.values with series := r.seriesId }
      lastOpenedAt := r.lastOpenedAt
      progressPercent := r.progressPercent
      annotationCount := r.annotationCount
      available := r.available }

/-- The annotations of a book, `ORDER BY id`. -/
def annotationRows (s : Db) (uid : String) : List AnnotationSnapshot :=
  ((s.catalog.annotations.entries.filter fun e => e.2.bookUid == uid).insertionSort
    fun e e' => e.1 ≤ e'.1).map fun e => ⟨e.2, (s.modifiedAt.lookup e.1).getD ""⟩

/-- The memberships of a book, `ORDER BY collection_id`. -/
def collectionRows (s : Db) (uid : String) : List CollectionSnapshot :=
  ((s.catalog.bookCollections.entries.filter fun e => e.1.1 == uid).insertionSort
    fun e e' => e.1.2 ≤ e'.1.2).map fun e =>
      { collectionId := e.1.2
        addedAt := e.2
        collectionUid := (s.catalog.collections.lookup e.1.2).bind (·.syncUid)
        collectionName := (s.catalog.collections.lookup e.1.2).map (·.name) }

/-- The provider links of a book, `ORDER BY provider`. -/
def providerRows (s : Db) (uid : String) : List ProviderSnapshot :=
  ((s.links.entries.filter fun e => e.1.1 == uid).insertionSort
    fun e e' => e.1.2 ≤ e'.1.2).map fun e => ⟨e.1.2, e.2⟩

def aliasRows (s : Db) (uid : String) : List String :=
  (s.mirror.aliases.entries.filter fun e => e.2 == uid).map (·.1)

/-- `(SELECT id FROM series WHERE name = ...)`. -/
def seriesNamed (s : Db) (name : Option String) : Option String := name.filter (· ∈ s.series)

/-- `SELECT COUNT(*) FROM books WHERE book_uid = ...`. -/
def fileCount (s : Db) (uid : String) : ℕ :=
  (s.catalog.files.entries.filter fun e => e.2.bookUid == some uid).length

/-- The open trash entry with an id that has not expired. -/
def openTrash (s : Db) (id : ℤ) (now : String) : Option TrashEntry :=
  (s.bookTrash.lookup id).filter fun row => row.restoredAt.isNone && decide (row.expiresAt > now)

/-! ## Statements of a transaction -/

def insertRecord (s : Db) (uid : String) (r : RecordRow) : Except AppError Db :=
  if s.catalog.hasRecord uid then .error (.database "UNIQUE constraint failed")
  else .ok { s with catalog := { s.catalog with records := s.catalog.records.insert uid r } }

/-- `UPDATE books SET book_uid` and `UPDATE sync_book_bindings SET book_uid`. -/
def moveFiles (s : Db) (old new : String) : Db :=
  { s with
    catalog := s.catalog.moveFiles old new
    mirror := { s.mirror with bindings := s.mirror.bindings.mapRows fun _ (b : BindingRow) =>
      if b.bookUid = old then { b with bookUid := new } else b } }

def deleteAliases (s : Db) (uid : String) : Db :=
  { s with mirror := { s.mirror with aliases := s.mirror.aliases.filterRows fun _ u => u != uid } }

/-- `INSERT INTO sync_book_aliases ... ON CONFLICT DO UPDATE` for each hash. -/
def putAliases (s : Db) (hashes : List String) (uid : String) : Db :=
  { s with mirror := { s.mirror with
      aliases := hashes.foldl (fun t hash => t.insert hash uid) s.mirror.aliases } }

/-- Delete a record with everything that refers to it. -/
def deleteRecord (s : Db) (uid : String) : Db :=
  { s with
    catalog := s.catalog.deleteRecord uid
    modifiedAt := s.modifiedAt.filterRows fun id _ =>
      (s.catalog.annotations.lookup id).all fun r => r.bookUid != uid
    links := s.links.filterRows fun k _ => k.1 != uid
    pending := s.pending.filterRows fun k _ => k.1 != uid
    editions := s.editions.filterRows fun k _ => k.1 != uid && k.2 != uid }

/-- Delete a provider link with its queued page turn. -/
def deleteLink (s : Db) (uid provider : String) : Db :=
  { s with
    links := s.links.erase (uid, provider)
    pending := s.pending.erase (uid, provider) }

/-- `INSERT OR IGNORE INTO book_provider_links`. -/
def insertLink (uid : String) (s : Db) (link : ProviderSnapshot) : Db :=
  if (s.links.lookup (uid, link.provider)).isSome ||
      s.links.entries.any fun e => e.1.2 == link.provider &&
        e.2.remoteId == link.row.remoteId then s
  else { s with links := s.links.insert (uid, link.provider) link.row }

/-- `INSERT OR IGNORE INTO book_collections ... WHERE EXISTS (SELECT 1 FROM collections ...)`. -/
def insertMembership (uid : String) (s : Db) (membership : CollectionSnapshot) : Db :=
  if (s.catalog.collections.lookup membership.collectionId).isNone ||
      (s.catalog.bookCollections.lookup (uid, membership.collectionId)).isSome then s
  else { s with
    catalog := s.catalog.putMembership uid membership.collectionId membership.addedAt }

/-- Another annotation has this portable uid. -/
def syncUidTaken (s : Db) (syncUid : Option String) : Bool :=
  syncUid.isSome && s.catalog.annotations.entries.any fun e => e.2.syncUid == syncUid

section

variable (codec : Codec)

/-- Insert an annotation under the next row id. -/
def putAnnotation (s : Db) (uid : String) (a : AnnotationSnapshot) : Db :=
  let id := s.catalog.annotationSeq + 1
  { s with
    catalog := Catalog.putAnnotation codec.real { s.catalog with annotationSeq := id } id
      { a.row with bookUid := uid }
    modifiedAt := s.modifiedAt.insert id a.modifiedAt }

/-- `INSERT OR IGNORE INTO annotations`. -/
def insertOrIgnoreAnnotation (uid : String) (s : Db) (a : AnnotationSnapshot) : Db :=
  if s.syncUidTaken a.row.syncUid then s else s.putAnnotation codec uid a

/-- `INSERT INTO annotations`. -/
def insertAnnotation (uid : String) (s : Db) (a : AnnotationSnapshot) : Except AppError Db :=
  if s.syncUidTaken a.row.syncUid then .error (.database "UNIQUE constraint failed")
  else .ok (s.putAnnotation codec uid a)

/-- `INSERT INTO reading_progress`. -/
def insertProgress (s : Db) (uid : String) (r : ProgressRow) : Except AppError Db :=
  if (s.catalog.progress.lookup uid).isSome then .error (.database "UNIQUE constraint failed")
  else .ok { s with catalog := s.catalog.putProgress codec.real uid r }

def putOverrides (s : Db) (uid : String) (r : Option OverrideRow) : Db :=
  match r with
  | some r => { s with catalog := s.catalog.upsertOverrides codec.real uid r }
  | none => s

/-- Replace one list of a book. -/
def replaceList (s : Db) (list : BookList) (uid : String) (names : List String) :
    Except AppError Db :=
  (s.catalog.replaceList codec.real list uid names).2.map fun _ =>
    { s with catalog := (s.catalog.replaceList codec.real list uid names).1 }

def restoreLists (s : Db) (uid : String) (authors subjects : List String) : Except AppError Db := do
  let s ← s.replaceList codec .authors uid authors
  s.replaceList codec .subjects uid subjects

def restoreProgress (s : Db) (uid : String) (progress : Option ProgressRow) : Except AppError Db :=
  match progress with
  | some progress => s.insertProgress codec uid progress
  | none => .ok s

/-- Replay a snapshot into the tables of a book. -/
def restoreState (s : Db) (uid : String) (snapshot : BookSnapshot) : Except AppError Db := do
  let s ← s.restoreProgress codec uid snapshot.progress
  let s := snapshot.annotations.foldl (fun s a => insertOrIgnoreAnnotation codec uid s a) s
  let s := snapshot.collections.foldl (insertMembership uid) s
  let s := s.putOverrides codec uid snapshot.overrides
  let s ← s.restoreLists codec uid snapshot.authors snapshot.subjects
  pure (snapshot.providers.foldl (insertLink uid) s)

/-- `INSERT INTO book_trash`: one open row for each identity. -/
def insertTrash (s : Db) (row : TrashEntry) : Except AppError (Db × ℤ) :=
  if s.bookTrash.entries.any fun e => e.2.bookUid == row.bookUid && e.2.restoredAt.isNone then
    .error (.database "UNIQUE constraint failed")
  else
    let id := s.trashSeq + 1
    .ok ({ s with
      trashSeq := id
      bookTrash := s.bookTrash.insert id row
      catalog := s.catalog.mark (.book row.bookUid) (.delete (jsonObject
        [("snapshot_json", .str (codec.snapshot row.snapshot)),
          ("replacement_book_uid", .ofText row.replacement)])) }, id)

/-- `mark_restored`. -/
def markRestored (s : Db) (id : ℤ) (now : String) (resolution : Resolution) : Db :=
  match s.bookTrash.lookup id with
  | none => s
  | some row => { s with
      bookTrash := s.bookTrash.insert id
        { row with restoredAt := some now, resolution := some resolution }
      catalog := s.catalog.markWhen row.restoredAt.isNone (.book row.bookUid) (.upsert (jsonObject
        [("action", .str (match resolution with | .restore => "restore" | .discard => "discard")),
          ("snapshot_json", .str (codec.snapshot row.snapshot)),
          ("replacement_book_uid", .ofText row.replacement)])) }

/-! ## Transactions -/

/-- The record of a fresh identity: the metadata of the old one. -/
def freshRecord (s : Db) (book : BookRowSnapshot) (now : String) : RecordRow where
  createdAt := now
  values := book.values
  seriesId := s.seriesNamed book.values.series
  available := book.available

/-- The file rows keep a library entry under a fresh identity. -/
def rebindFiles (s : Db) (snapshot : BookSnapshot) (drawn : Drawn) : Except AppError Db := do
  let s ← s.insertRecord drawn.fresh (s.freshRecord snapshot.book drawn.now)
  pure (((s.moveFiles snapshot.book.uid drawn.fresh).deleteAliases snapshot.book.uid).putAliases
    snapshot.aliases drawn.fresh)

/-- The trash row of a forgotten book, and the fresh identity of its files. -/
structure Retired where
  trashId : ℤ
  replacement : Option String

/-- The identity that takes over the files of a forgotten book, if it has any. -/
def replacementUid (s : Db) (uid : String) (drawn : Drawn) : Option String :=
  if s.fileCount uid = 0 then none else some drawn.fresh

/-- The files go to the fresh identity. Without files only the aliases go. -/
def handOver (s : Db) (snapshot : BookSnapshot) (drawn : Drawn) : Except AppError Db :=
  match s.replacementUid snapshot.book.uid drawn with
  | some _ => s.rebindFiles snapshot drawn
  | none => .ok (s.deleteAliases snapshot.book.uid)

/-- The transaction of `forget`. -/
def retire (s : Db) (snapshot : BookSnapshot) (drawn : Drawn) : Except AppError (Db × Retired) :=
  let replacement := s.replacementUid snapshot.book.uid drawn
  if ¬s.catalog.hasRecord snapshot.book.uid then .error .notFound
  else do
    let s ← s.handOver snapshot drawn
    let trashed ← s.insertTrash codec
      { bookUid := snapshot.book.uid
        replacement := replacement
        snapshot := snapshot
        deletedAt := drawn.now
        expiresAt := drawn.expiresAt }
    pure (trashed.1.deleteRecord snapshot.book.uid, ⟨trashed.2, replacement⟩)

/-- Take the files back from the fresh identity, which goes away. -/
def dropFresh (s : Db) (fresh old : String) : Db :=
  if s.catalog.hasRecord fresh ∧ fresh ≠ old then
    ((s.moveFiles fresh old).deleteAliases fresh).deleteRecord fresh
  else s

/-- The record that a snapshot holds. -/
def restoredRecord (s : Db) (snapshot : BookSnapshot) : RecordRow where
  createdAt := snapshot.book.createdAt
  values := snapshot.book.values
  seriesId := s.seriesNamed snapshot.book.values.series
  lastOpenedAt := snapshot.book.lastOpenedAt
  progressPercent := snapshot.book.progressPercent
  annotationCount := snapshot.annotations.length
  available := snapshot.book.available

/-- The transaction of `restore_replace`. -/
def replaceBook (s : Db) (snapshot : BookSnapshot) (replacement : Option String) :
    Except AppError Db := do
  let s := replacement.elim s fun fresh => s.dropFresh fresh snapshot.book.uid
  let s := s.deleteRecord snapshot.book.uid
  let s ← s.insertRecord snapshot.book.uid (s.restoredRecord snapshot)
  let s ← s.restoreState codec snapshot.book.uid snapshot
  pure (s.putAliases snapshot.aliases snapshot.book.uid)

/-- The newer saved position is the old one. -/
def mergeProgress (s : Db) (uid : String) (progress : Option ProgressRow) : Db :=
  match progress with
  | some progress => { s with catalog := s.catalog.putProgress codec.real uid progress }
  | none => s

/-- Insert the annotations that the book does not have by their portable uid. -/
def mergeAnnotations (s : Db) (uid : String) (annotations : List AnnotationSnapshot) :
    Except AppError Db :=
  let seen := (s.annotationRows uid).filterMap (·.row.syncUid)
  (annotations.filter fun a => !a.row.syncUid.any (seen.contains ·)).foldlM
    (fun s a => insertAnnotation codec uid s a) s

/-- The overrides and the lists of the snapshot, when the book has no overrides. -/
def mergeOverrides (s : Db) (uid : String) (snapshot : BookSnapshot) : Except AppError Db :=
  if (s.catalog.overrides.lookup uid).isSome then .ok s
  else (s.putOverrides codec uid snapshot.overrides).restoreLists codec uid snapshot.authors
    snapshot.subjects

/-- The transaction of `merge_into`. -/
def mergeBook (s : Db) (snapshot : BookSnapshot) (uid : String) (oldIsNewer : Bool) :
    Except AppError Db := do
  let s := s.mergeProgress codec uid (if oldIsNewer then snapshot.progress else none)
  let s ← s.mergeAnnotations codec uid snapshot.annotations
  let s := snapshot.collections.foldl (insertMembership uid) s
  let s ← s.mergeOverrides codec uid snapshot
  let s := snapshot.providers.foldl (insertLink uid) s
  pure { s with catalog := s.catalog.refreshRecord uid }

/-- Delete every annotation of a book. -/
def deleteNotes (c : Catalog) (uid : String) : Catalog :=
  (c.annotations.entries.filter fun e => e.2.bookUid == uid).foldl
    (fun c e => c.deleteAnnotation codec.real e.1) c

/-- Delete every membership of a book. -/
def deleteMemberships (c : Catalog) (uid : String) : Catalog :=
  (c.bookCollections.entries.filter fun e => e.1.1 == uid).foldl
    (fun c e => c.deleteMembership uid e.1.2) c

/-- The transaction of `reset`. -/
def clearState (s : Db) (uid : String) : Db :=
  let c := deleteNotes codec (s.catalog.deleteProgress codec.real uid) uid
  let c := (deleteMemberships c uid).clearOverrides uid
  let c := (c.deleteList codec.real .authors uid).deleteList codec.real .subjects uid
  { s with
    catalog := { c with records := c.records.mapRows fun u (r : RecordRow) =>
      if u = uid then { r with progressPercent := none, annotationCount := 0 } else r }
    modifiedAt := s.modifiedAt.filterRows fun id _ =>
      (s.catalog.annotations.lookup id).all fun r => r.bookUid != uid
    links := s.links.filterRows fun k _ => k.1 != uid
    pending := s.pending.filterRows fun k _ => k.1 != uid }

/-- `sweep_orphans`. -/
def sweepOrphans (s : Db) : Db :=
  { s with
    catalog := s.catalog.sweepOrphans
    series := s.series.filter fun name =>
      s.catalog.records.entries.any fun e => e.2.seriesId == some name }

end

end Db

end Lifecycle

end TuxBooks
