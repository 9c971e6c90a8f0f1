import TuxBooks.Library.Import
import TuxBooks.Library.Trashed

set_option relaxedAutoImplicit false
set_option autoImplicit false

/-!
# The artwork cache

Covers are files of a directory beside the database, under a name that their bytes give
(`sidecar/src/services/artwork_cache.rs`, `write_cover_bytes` in
`sidecar/src/services/book_importer.rs`). An import writes the file first and the row that names it
later. A sweep reads which covers the records and the file rows name, and deletes the other files.

The commands are routines over one store, each request one statement, one transaction or one
operation on the directory, so that any command may run between two requests of another. Reads
whose answer only goes to the client are left out, and so is the temporary file through which a
cover is written: a write either puts the whole file in its place or fails.

## Main definitions

* `TuxBooks.Artwork` — the library database with the cover files.
* `TuxBooks.Artwork.Req`, `TuxBooks.Artwork.exec` — the requests.
* `TuxBooks.Artwork.importFile`, `TuxBooks.Artwork.setBookCover`,
  `TuxBooks.Artwork.sweepUnreferencedCovers` — some of the commands.
* `TuxBooks.Artwork.Command`, `TuxBooks.Artwork.routine` — all of them.
-/

namespace TuxBooks

open Fallible Relink Import

/-- The library database, the places of its files, and the artwork cache. -/
structure Artwork extends Lifecycle.Db where
  places : Table ℤ Place := ∅
  /-- The files of the covers directory, by their path. -/
  covers : List String := []
  /-- The time of the last request. -/
  clock : String := ""

namespace Artwork

/-! ## The store -/

/-- An image with its media type. -/
structure Image where
  mediaType : String
  data : List UInt8

/-- FNV-1a. -/
def stableHash (data : List UInt8) : UInt64 :=
  data.foldl (fun hash byte => (hash ^^^ byte.toUInt64) * 0x100000001b3) 0xcbf29ce484222325

def extension (mediaType : String) : String :=
  if mediaType = "image/png" then "png"
  else if mediaType = "image/jpeg" then "jpg"
  else if mediaType = "image/gif" then "gif"
  else if mediaType = "image/webp" then "webp"
  else "img"

/-- The path of a cover in the cache. -/
def destination (coversDir : String) (image : Image) : String :=
  let digits := Nat.toDigits 16 (stableHash image.data).toNat
  coversDir ++ "/" ++ String.ofList (List.replicate (16 - digits.length) '0' ++ digits) ++ "." ++
    extension image.mediaType

/-- The image types that a cover may have, by the first bytes. -/
def detectImageMediaType (data : List UInt8) : Option String :=
  if [0x89, 0x50, 0x4e, 0x47, 0x0d, 0x0a, 0x1a, 0x0a].isPrefixOf data then some "image/png"
  else if [0xff, 0xd8, 0xff].isPrefixOf data then some "image/jpeg"
  else if [0x47, 0x49, 0x46, 0x38, 0x37, 0x61].isPrefixOf data ||
      [0x47, 0x49, 0x46, 0x38, 0x39, 0x61].isPrefixOf data then some "image/gif"
  else if data.length ≥ 12 ∧ [0x52, 0x49, 0x46, 0x46].isPrefixOf data ∧
      (data.drop 8).take 4 = [0x57, 0x45, 0x42, 0x50] then some "image/webp"
  else none

/-- A document that was parsed, with its cover. -/
inductive Document where
  | epub (metadata : Epub.EpubMetadata) (cover : Option Image)
  /-- The first page as a PNG, unless PDFium is not there or fails. -/
  | pdf (metadata : PdfMetadata) (rendered : Except String (Option (List UInt8)))

/-- `bibliographic_new_book`: the row of a parsed file under a given cover. -/
def bibliographicNewBook (stats : FileStats) (cover : Option String) : Document → NewBook
  | .epub metadata _ => toNewBook metadata cover stats
  | .pdf metadata _ => pdfToNewBook metadata cover stats

/-- The columns that the commands of a shelf read and write. -/
def shelf (s : Artwork) : Shelf := { device := s.toDevice, places := s.places }

def setShelf (s : Artwork) (sh : Shelf) : Artwork :=
  { s with mirror := sh.device.mirror, catalog := sh.device.catalog, places := sh.places }

def setCatalog (s : Artwork) (c : Catalog) : Artwork := { s with catalog := c }

/-- `upsert_source_metadata`. -/
def putSource (c : Catalog) (file : ℤ) (b : NewBook) : Catalog :=
  { c with files := c.files.mapRows fun i (f : FileRow) =>
      if i = file then { f with source := some b.sourceMetadata } else f }

/-- The effective cover of the book of a file row: `existing_cover`. -/
def existingCover (s : Artwork) (path : String) : Option String :=
  ((s.shelf.fileAt path).bind s.catalog.fileUid).bind fun uid =>
    (s.catalog.records.lookup uid).bind (·.values.coverPath)

/-- The active file of a book, with its effective cover. -/
def knownBook (s : Artwork) (uid : String) : Option (ℤ × Option String) :=
  (s.shelf.activeFile uid).map fun file =>
    (file, (s.catalog.records.lookup uid).bind (·.values.coverPath))

/-- The cover column of a file row, as `list_file_snapshots` reads it. -/
def snapshotCover (s : Artwork) (path : String) : Option String :=
  ((s.shelf.fileAt path).bind s.catalog.files.lookup).bind (·.coverPath)

/-- Delete file rows, with their source snapshots. -/
def deleteFiles (s : Artwork) (p : ℤ → FileRow → Bool) : Artwork :=
  { s with
    catalog := { s.catalog with files := s.catalog.files.filterRows fun i f => !p i f }
    places := s.places.filterRows fun i _ => (s.catalog.files.lookup i).all fun f => !p i f }

/-- `update_book_by_id`. -/
def moveRow (s : Shelf) (file : ℤ) (path : String) (b : NewBook) (now : String) :
    Shelf × Except AppError Unit :=
  if ¬b.Titled then (s, .error (.database "CHECK constraint failed"))
  else if (s.device.catalog.files.lookup file).isNone then (s, .error .notFound)
  else (updateBookById s file path b now, .ok ())

/-- The insert of `insert_file_for_book`. -/
def attachRow (s : Shelf) (uid path : String) (b : NewBook) (now : String) :
    Shelf × Except AppError ℤ :=
  if ¬s.device.catalog.hasRecord uid then (s, .error .notFound)
  else if ¬b.Titled then (s, .error (.database "CHECK constraint failed"))
  else
    let row : FileRow :=
      Relink.refresh { bookUid := some uid, modifiedAt := now, title := b.title } b now
    ({ s.setCatalog { s.device.catalog with
        files := s.device.catalog.files.insert s.nextFile row } with
      places := s.places.insert s.nextFile (seenAt path b) }, .ok s.nextFile)

def mapPlace (s : Artwork) (file : ℤ) (g : Place → Place) : Artwork :=
  { s with places := s.places.mapRows fun i (p : Place) => if i = file then g p else p }

/-! ## Requests -/

inductive Req where
  | life (q : Lifecycle.Req)
  | existingCover (path : String)
  | snapshotCover (path : String)
  | isCached (destination : String)
  | writeCover (destination : String)
  | findFile (path : String)
  | updateRow (path : String) (b : NewBook)
  | insertRow (path : String) (b : NewBook)
  | putSource (file : ℤ) (b : NewBook)
  | bookUid (file : ℤ)
  | durable (file : ℤ)
  | bindFile (file : ℤ) (onDisk : Except String Hashed)
  | waitForFile (file : ℤ) (onDisk : Except String Hashed)
  | knownBook (uid : String)
  | historyCover (uid : String)
  | moveRow (file : ℤ) (path : String) (b : NewBook)
  | checkAlias (uid : String) (hashed : Except String Hashed) (expectedUid : Option String)
  | attachRow (uid path : String) (b : NewBook)
  | bindNewFile (file : ℤ) (hashed : Except String Hashed)
  | markAvailable (uid : String)
  | expectRehash (file : ℤ)
  | updateSnapshot (file fileSize fileMtime : ℤ)
  | clearRehash (file : ℤ)
  | putOverrides (uid : String) (row : OverrideRow)
  | clearOverrides (uid : String)
  | fileIds (uid : String)
  | deleteBook (uid : String)
  | deleteFileRow (file : ℤ)
  | coverPaths
  | readDir
  | isFile (path : String)
  | removeFile (path : String)

abbrev Ans : Req → Type
  | .life q => Lifecycle.Ans q
  | .existingCover _ | .snapshotCover _ | .bookUid _ => Option String
  | .isCached _ | .durable _ | .deleteBook _ | .isFile _ => Bool
  | .findFile _ => Option ℤ
  | .insertRow _ _ | .attachRow .. => ℤ
  | .knownBook _ => Option (ℤ × Option String)
  | .historyCover _ => Option (Option String)
  | .fileIds _ => List ℤ
  | .coverPaths | .readDir => List String
  | _ => Unit

/-- What a request draws: time and a random uid, what the iteration over the directory yields,
which may be a file that comes or goes meanwhile, and whether an operation on a file fails. -/
structure Drawn extends Lifecycle.Drawn where
  entries : List String := []
  failure : Option String := none

inductive Failure where
  | app (err : AppError)
  | io (message : String)

/-- A hash pass over a file row that is still there. -/
def ensureIdentity (codec : Lifecycle.Codec) (e : Drawn) (s : Artwork) (file : ℤ)
    (onDisk : Except String Hashed) : Artwork :=
  if (s.catalog.files.lookup file).isNone then s
  else s.setShelf (ensureBookIdentity codec.real ⟨e.now, e.fresh⟩ s.shelf file onDisk)

/-- `wait_for_books`: a pending copy is hashed, or marked when there are no bytes to hash. -/
def settleFile (codec : Lifecycle.Codec) (e : Drawn) (s : Artwork) (file : ℤ)
    (onDisk : Except String Hashed) : Artwork :=
  match s.places.lookup file with
  | none => s
  | some place =>
    if place.hashState ≠ .pending then s
    else if place.available then s.ensureIdentity codec e file onDisk
    else s.setShelf (s.shelf.setHashState file .failed)

/-- A result on the shelf. -/
def onShelf {α : Type} (s : Artwork) (r : Shelf × Except AppError α) :
    Artwork × Except Failure α :=
  (s.setShelf r.1, r.2.mapError .app)

/-- A temporary file is written and takes its place, or the import fails. -/
def putCover (e : Drawn) (s : Artwork) (dest : String) : Artwork × Except Failure Unit :=
  match e.failure with
  | some message => (s, .error (.io message))
  | none => ({ s with covers := dest :: s.covers }, .ok ())

/-- `update_book_by_path`. -/
def updateRow (e : Drawn) (s : Artwork) (path : String) (b : NewBook) :
    Artwork × Except Failure Unit :=
  match s.shelf.fileAt path with
  | some file => s.onShelf (updateBookByPath s.shelf file b e.now)
  | none => (s, .ok ())

/-- A file that cannot be deleted is left for the next sweep. -/
def removeFile (e : Drawn) (s : Artwork) (path : String) : Artwork :=
  match e.failure with
  | some _ => s
  | none => { s with covers := s.covers.filter (· ≠ path) }

/-- One request at the time that is drawn. -/
def answer (codec : Lifecycle.Codec) (e : Drawn) (s : Artwork) :
    (q : Req) → Artwork × Except Failure (Ans q)
  | .life q =>
    let r := Lifecycle.exec codec e.toDrawn q s.toDb
    ({ s with toDb := r.1 }, r.2.mapError .app)
  | .existingCover path => (s, .ok (s.existingCover path))
  | .snapshotCover path => (s, .ok (s.snapshotCover path))
  | .isCached dest => (s, .ok (s.covers.contains dest))
  | .writeCover dest => s.putCover e dest
  | .findFile path => (s, .ok (s.shelf.fileAt path))
  | .updateRow path b => s.updateRow e path b
  | .insertRow path b => s.onShelf (insertFileRow s.shelf path b ⟨e.now, e.fresh⟩)
  | .putSource file b => (s.setCatalog (putSource s.catalog file b), .ok ())
  | .bookUid file => (s, .ok (s.catalog.fileUid file))
  | .durable file => (s, .ok (Import.durable s.shelf file))
  | .bindFile file onDisk => (s.ensureIdentity codec e file onDisk, .ok ())
  | .waitForFile file onDisk => (s.settleFile codec e file onDisk, .ok ())
  | .knownBook uid => (s, .ok (s.knownBook uid))
  | .historyCover uid => (s, .ok ((s.catalog.records.lookup uid).map (·.values.coverPath)))
  | .moveRow file path b => s.onShelf (moveRow s.shelf file path b e.now)
  | .checkAlias uid hashed expectedUid =>
    (s, (Relink.checkAlias s.mirror uid hashed expectedUid).mapError .app)
  | .attachRow uid path b => s.onShelf (attachRow s.shelf uid path b e.now)
  | .bindNewFile file hashed =>
    s.onShelf (Relink.bindNewFile codec.real ⟨e.now, e.fresh⟩ s.shelf file hashed)
  | .markAvailable uid => (s.setCatalog (markMetadataAvailable s.catalog uid), .ok ())
  | .expectRehash file =>
    (s.mapPlace file fun p => { p with rehashPending := true, hashState := .pending }, .ok ())
  | .updateSnapshot file fileSize fileMtime =>
    (s.mapPlace file fun p => { p with fileSize, fileMtime, hashState := .pending }, .ok ())
  | .clearRehash file => (s.mapPlace file fun p => { p with rehashPending := false }, .ok ())
  | .putOverrides uid row =>
    (s.setCatalog (s.catalog.upsertOverrides codec.real uid row), .ok ())
  | .clearOverrides uid => (s.setCatalog (s.catalog.clearOverrides uid), .ok ())
  | .fileIds uid => (s, .ok ((s.shelf.fileRows uid).insertionSort (· ≤ ·)))
  | .deleteBook uid =>
    (s.deleteFiles fun _ f => f.bookUid == some uid, .ok !(s.shelf.fileRows uid).isEmpty)
  | .deleteFileRow file => (s.deleteFiles fun i _ => i == file, .ok ())
  | .coverPaths => (s, .ok s.catalog.listCoverPaths)
  | .readDir => (s, .ok e.entries)
  | .isFile path => (s, .ok (s.covers.contains path))
  | .removeFile path => (s.removeFile e path, .ok ())

/-- One request. -/
def exec (codec : Lifecycle.Codec) (e : Drawn) (q : Req) (s : Artwork) :
    Artwork × Except Failure (Ans q) :=
  answer codec e { s with clock := e.now } q

/-! ## Commands -/

abbrev Cmd (α : Type) : Type := Routine Ans α

def ask (q : Req) : Cmd (Ans q) := Routine.request q

def stop {α : Type} (err : AppError) : Cmd α := Routine.ask (.life (.fail err)) fun e => e.elim

/-- A routine of the trash or of the metadata on this store. -/
def life {α : Type} : Lifecycle.Cmd α → Cmd α
  | .done a => .done a
  | .ask q next => .ask (.life q) fun a => life (next a)

/-- Write a cover under the name that its bytes give, unless it is there. -/
def writeCoverBytes (coversDir : String) (image : Image) : Cmd (Option String) := do
  let dest := destination coversDir image
  let cached : Bool ← ask (.isCached dest)
  if cached then pure (some dest)
  else do
    ask (.writeCover dest)
    pure (some dest)

def newBookFromParsed (coversDir : String) (stats : FileStats) (previousCover : Option String) :
    Document → Cmd NewBook
  | .epub metadata none => pure (bibliographicNewBook stats none (.epub metadata none))
  | .epub metadata (some image) => do
    let cover ← writeCoverBytes coversDir image
    pure (bibliographicNewBook stats cover (.epub metadata (some image)))
  | .pdf metadata (.ok (some png)) => do
    let cover ← writeCoverBytes coversDir ⟨"image/png", png⟩
    pure (bibliographicNewBook stats cover (.pdf metadata (.ok (some png))))
  | .pdf metadata rendered =>
    pure (bibliographicNewBook stats previousCover (.pdf metadata rendered))

def recordImportedSource (file : ℤ) (b : NewBook) : Cmd Unit := do
  ask (.putSource file b)
  let uid : Option String ← ask (.bookUid file)
  match uid with
  | some uid => life (Lifecycle.recomputeEffective uid file)
  | none => pure ()

def upsertFile (path : String) (b : NewBook) : Cmd ℤ := do
  let found : Option ℤ ← ask (.findFile path)
  match found with
  | some file => do
    ask (.updateRow path b)
    recordImportedSource file b
    let durable : Bool ← ask (.durable file)
    if durable then pure file else stop (.invalidInput "book row has no durable record")
  | none => do
    let file : ℤ ← ask (.insertRow path b)
    recordImportedSource file b
    let durable : Bool ← ask (.durable file)
    if durable then pure file else stop (.invalidInput "new book has no durable record")

/-- A parsed file: its cover, its row, its source snapshot and its identity. -/
def importParsed (coversDir path : String) (document : Document) (stats : FileStats)
    (onDisk : Except String Hashed) (previousCover : Option String) : Cmd Unit := do
  let b ← newBookFromParsed coversDir stats previousCover document
  let file ← upsertFile path b
  recordImportedSource file b
  ask (.bindFile file onDisk)
  let durable : Bool ← ask (.durable file)
  if durable then pure () else stop (.invalidInput "imported book has no durable record")

/-- `import_file`. A file that does not parse is left for a later event. -/
def importFile (coversDir path : String) (document : Option Document) (stats : FileStats)
    (onDisk : Except String Hashed) : Cmd Unit := do
  let previousCover : Option String ← ask (.existingCover path)
  match document with
  | some document => importParsed coversDir path document stats onDisk previousCover
  | none => pure ()

/-- One file of `import_directory`: the cover of its row is read before the parse. -/
def importListed (coversDir path : String) (document : Option Document) (stats : FileStats)
    (onDisk : Except String Hashed) : Cmd Unit := do
  let previousCover : Option String ← ask (.snapshotCover path)
  match document with
  | some document => importParsed coversDir path document stats onDisk previousCover
  | none => pure ()

/-- Explicitly reconnect a book to a file that the user located. -/
def reconnectBook (coversDir uid path : String) (document : Except AppError Document)
    (stats : FileStats) : Cmd Unit := do
  match document with
  | .error err => stop err
  | .ok document => do
    let known : Option (ℤ × Option String) ← ask (.knownBook uid)
    match known with
    | none => stop .notFound
    | some (file, previousCover) => do
      let b ← newBookFromParsed coversDir stats previousCover document
      let existing : Option ℤ ← ask (.findFile path)
      if existing.any (· ≠ file) then
        stop (.invalidInput "that file is already in the library")
      else do
        ask (.moveRow file path b)
        recordImportedSource file b

/-- Attach a new file row to the book, and bind the hash of the file. -/
def attachFile (uid path : String) (b : NewBook) (hashed : Except String Hashed)
    (expectedUid : Option String) : Cmd Unit := do
  ask (.checkAlias uid hashed expectedUid)
  let file : ℤ ← ask (.attachRow uid path b)
  recordImportedSource file b
  ask (.bindNewFile file hashed)
  ask (.markAvailable uid)

/-- Relink a Reading-history book to a file the user picked. -/
def relinkBook (coversDir uid path : String) (document : Except AppError Document)
    (stats : FileStats) (hashed : Except String Hashed) (expectedUid : Option String) :
    Cmd Unit := do
  let known : Option (Option String) ← ask (.historyCover uid)
  match known with
  | none => stop .notFound
  | some previousCover => do
    let files : List ℤ ← ask (.fileIds uid)
    let existing : Option ℤ ← ask (.findFile path)
    if !files.isEmpty then
      stop (.invalidInput "that book is still in the library; relink is for Reading history")
    else if existing.isSome then stop (.invalidInput "that file is already in the library")
    else match document with
      | .error err => stop err
      | .ok document => do
        let b ← newBookFromParsed coversDir stats previousCover document
        attachFile uid path b hashed expectedUid

/-- Write the cover override of a book and recompute its metadata. -/
def storeCover (uid : String) (file : ℤ) (cover : Option String) : Cmd Unit := do
  let row : Option OverrideRow ← ask (.life (.overrides uid))
  ask (.putOverrides uid { row.getD {} with coverPath := cover })
  life (Lifecycle.recomputeEffective uid file)

/-- The primary file of a book that has a record. -/
def sourceFile (uid : String) : Cmd ℤ := do
  let found : Bool ← ask (.life (.hasRecord uid))
  if found then do
    let file : Option ℤ ← ask (.life (.primaryFile uid))
    match file with
    | some file => pure file
    | none => stop .notFound
  else stop .notFound

/-- Replace the cover by an image that the user picked. -/
def setBookCover (coversDir uid : String) (data : Except AppError (List UInt8)) : Cmd Unit := do
  let file ← sourceFile uid
  match data with
  | .error err => stop err
  | .ok data =>
    match detectImageMediaType data with
    | none => stop (.invalidInput "that file is not a PNG, JPEG, GIF, or WebP image")
    | some mediaType => do
      let cover ← writeCoverBytes coversDir ⟨mediaType, data⟩
      storeCover uid file cover

/-- Remove a cover override. -/
def clearBookCoverOverride (uid : String) : Cmd Unit := do
  let file ← sourceFile uid
  storeCover uid file none

/-- What an edit form comes to against a source: the minimal overrides, and the two lists. -/
structure Edit where
  overrides : OverrideRow
  authors : List String
  subjects : List String

/-- Replace a list that the form customizes. -/
def customize (customized : Bool) (list : BookList) (uid : String) (names : List String) :
    Cmd Unit :=
  if customized then life (Lifecycle.replaceNames list uid names) else pure ()

/-- `apply_form`: the cover override stays. -/
def applyForm (uid : String) (form : SourceMetadata → Except AppError Edit) : Cmd Unit := do
  let file ← sourceFile uid
  let source : SourceMetadata ← ask (.life (.source file))
  let existing : Option OverrideRow ← ask (.life (.overrides uid))
  match form source with
  | .error err => stop err
  | .ok edit => do
    customize edit.overrides.authorsCustomized .authors uid edit.authors
    customize edit.overrides.subjectsCustomized .subjects uid edit.subjects
    ask (.putOverrides uid { edit.overrides with coverPath := (existing.getD {}).coverPath })
    life (Lifecycle.recomputeEffective uid file)
    ask (.life .sweepOrphans)

/-- The rewritten file is the new source, under the cover that was extracted before. -/
def refreshSource (file : ℤ) (rewritten : Document) (stats : FileStats) : Cmd Unit := do
  let source : SourceMetadata ← ask (.life (.source file))
  let b := bibliographicNewBook stats source.coverPath rewritten
  ask (.putSource file b)
  ask (.updateSnapshot file b.fileSize b.fileMtime)
  ask (.clearRehash file)

/-- `embed_book_metadata`: save the form, rewrite the file, and follow it. `saved` is the form of
the effective metadata. -/
def embedBookMetadata (uid : String) (form saved : SourceMetadata → Except AppError Edit)
    (rewritten : Except AppError Document) (stats : FileStats) : Cmd Unit := do
  let known : Option (ℤ × Option String) ← ask (.knownBook uid)
  match known with
  | none => stop .notFound
  | some (file, _) => do
    applyForm uid form
    ask (.expectRehash file)
    match rewritten with
    | .error err => stop err
    | .ok rewritten => do
      refreshSource file rewritten stats
      applyForm uid saved

/-- Drop every override. -/
def resetBookMetadata (uid : String) : Cmd Unit := do
  let file ← sourceFile uid
  ask (.clearOverrides uid)
  life (Lifecycle.recomputeEffective uid file)
  ask (.life .sweepOrphans)

/-- Delete the files of the directory that are not referenced. -/
def removeUnreferenced (referenced : List String) : List String → Cmd Unit
  | [] => pure ()
  | path :: entries => do
    let isFile : Bool ← ask (.isFile path)
    if isFile && !referenced.contains path then do
      ask (.removeFile path)
      removeUnreferenced referenced entries
    else removeUnreferenced referenced entries

def sweepUnreferencedCovers : Cmd Unit := do
  let referenced : List String ← ask .coverPaths
  let entries : List String ← ask .readDir
  removeUnreferenced referenced entries

/-- Settle the hashes of file rows that are about to go. -/
def waitForBooks (onDisk : ℤ → Except String Hashed) : List ℤ → Cmd Unit
  | [] => pure ()
  | file :: files => do
    ask (.waitForFile file (onDisk file))
    waitForBooks onDisk files

/-- The book that owns a file row now. -/
def ownerOf (uid : String) : Option ℤ → Cmd String
  | some file => do
    let owner : Option String ← ask (.bookUid file)
    pure (owner.getD uid)
  | none => pure uid

/-- Remove a book from the library, and sweep. -/
def removeBook (uid : String) (onDisk : ℤ → Except String Hashed) : Cmd Unit := do
  let files : List ℤ ← ask (.fileIds uid)
  waitForBooks onDisk files
  let owner ← ownerOf uid files.head?
  let removed : Bool ← ask (.deleteBook owner)
  if removed then sweepUnreferencedCovers else pure ()

/-- The file rows of the folders that the user stops watching. -/
def deleteFileRows (onDisk : ℤ → Except String Hashed) : List ℤ → Cmd Unit
  | [] => pure ()
  | file :: files => do
    ask (.waitForFile file (onDisk file))
    ask (.deleteFileRow file)
    deleteFileRows onDisk files

/-- The end of `unwatch`: the rows go, and one sweep follows. -/
def unwatch (doomed : List ℤ) (onDisk : ℤ → Except String Hashed) : Cmd Unit := do
  deleteFileRows onDisk doomed
  if doomed.isEmpty then pure () else sweepUnreferencedCovers

inductive Command where
  | importFile (path : String) (document : Option Document) (stats : FileStats)
      (onDisk : Except String Hashed)
  | importListed (path : String) (document : Option Document) (stats : FileStats)
      (onDisk : Except String Hashed)
  | reconnectBook (uid path : String) (document : Except AppError Document) (stats : FileStats)
  | relinkBook (uid path : String) (document : Except AppError Document) (stats : FileStats)
      (hashed : Except String Hashed) (expectedUid : Option String)
  | setBookCover (uid : String) (data : Except AppError (List UInt8))
  | clearBookCoverOverride (uid : String)
  | embedBookMetadata (uid : String) (form saved : SourceMetadata → Except AppError Edit)
      (rewritten : Except AppError Document) (stats : FileStats)
  | resetBookMetadata (uid : String)
  | removeBook (uid : String) (onDisk : ℤ → Except String Hashed)
  | unwatch (doomed : List ℤ) (onDisk : ℤ → Except String Hashed)
  | forget (uid : String)
  | restore (id : ℤ) (mode : Option Lifecycle.RestoreMode)
  | reset (uid : String)
  /-- The sweep after the start of the program. -/
  | sweep

def routine (coversDir : String) : Command → Cmd Unit
  | .importFile path document stats onDisk => importFile coversDir path document stats onDisk
  | .importListed path document stats onDisk => importListed coversDir path document stats onDisk
  | .reconnectBook uid path document stats => reconnectBook coversDir uid path document stats
  | .relinkBook uid path document stats hashed expectedUid =>
    relinkBook coversDir uid path document stats hashed expectedUid
  | .setBookCover uid data => setBookCover coversDir uid data
  | .clearBookCoverOverride uid => clearBookCoverOverride uid
  | .embedBookMetadata uid form saved rewritten stats =>
    embedBookMetadata uid form saved rewritten stats
  | .resetBookMetadata uid => resetBookMetadata uid
  | .removeBook uid onDisk => removeBook uid onDisk
  | .unwatch doomed onDisk => unwatch doomed onDisk
  | .forget uid => do let _ ← life (Lifecycle.forget uid)
  | .restore id mode => do let _ ← life (Lifecycle.restore id mode)
  | .reset uid => life (Lifecycle.reset uid)
  | .sweep => sweepUnreferencedCovers

end Artwork

end TuxBooks
