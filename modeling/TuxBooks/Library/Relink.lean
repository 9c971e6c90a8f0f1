import TuxBooks.Catalog.Recompute
import TuxBooks.Device.Device

set_option relaxedAutoImplicit false
set_option autoImplicit false

/-!
# Giving a book a file the user picked

Three commands attach a chosen file to a book that has lost its own:
`reconnect_book` and `relink_book` of `sidecar/src/services/library_reconciler.rs`, and
`attach_waiting_book` of `sidecar/src/sync/engine.rs`, which ends in `relink_book`. A later hash
pass (`ensure_book_identity` in `sidecar/src/sync/identity.rs`) binds the file row to the hash of
its bytes and unifies the row's book with the one that the hash already names.

`relink_book` looks the hash up before it writes the file row. `reconnect_book` does not, and
`relink_book` itself goes on without a hash when the bytes cannot be read at that moment.

What parses a file, draws its cover and reads its bytes is a parameter: a chosen file comes with
the outcomes. The file name, the availability and the hash bookkeeping of a file row are kept
beside the catalog, in `Shelf.places`.

## Main definitions

* `TuxBooks.Relink.reconnectBook`, `TuxBooks.Relink.relinkBook`,
  `TuxBooks.Relink.attachWaitingBook` — the commands.
* `TuxBooks.Relink.ensureBookIdentity` — one hash pass over a file row.
* `TuxBooks.Relink.KeepsApart` — the command fails and no book takes anything of the other.
* `TuxBooks.Relink.Refused` — a check before the first write stops the command.

## Main results

* `TuxBooks.Relink.keeps_apart_of_refused` — a refused command keeps the two books apart.
* `TuxBooks.Relink.keeps_apart_iff` — and no other command does.
-/

namespace TuxBooks

namespace Relink

open Fallible

/-! ## Files -/

/-- A parsed file: `NewBook` of `sidecar/src/domain/book.rs` without its path. -/
structure NewBook where
  title : String
  subtitle : Option String := none
  author : Option String := none
  authors : List String := []
  subjects : List String := []
  publisher : Option String := none
  language : Option String := none
  isbn : Option String := none
  description : Option String := none
  publicationDate : Option String := none
  series : Option String := none
  seriesIndex : Option ℚ := none
  coverPath : Option String := none
  fileSize : ℤ
  fileMtime : ℤ

/-- The parser keeps the first creator beside the list; the list is the normalized truth. -/
def NewBook.authorList (b : NewBook) : List String :=
  if b.authors.isEmpty then b.author.toList else b.authors

/-- The row that `upsert_source_metadata` writes. -/
def NewBook.sourceMetadata (b : NewBook) : SourceMetadata where
  title := b.title
  subtitle := b.subtitle
  publisher := b.publisher
  language := b.language
  isbn := b.isbn
  description := b.description
  publicationDate := b.publicationDate
  series := b.series
  seriesIndex := b.seriesIndex
  coverPath := b.coverPath
  authors := b.authorList
  subjects := b.subjects

/-- `CHECK (length(trim(title)) > 0)` of the `books` table: `trim` of SQL takes blanks only, and
`length` counts up to the first NUL. -/
def NewBook.Titled (b : NewBook) : Prop :=
  ((b.title.toList.dropWhile (· = ' ')).head?.any (· ≠ '\x00')) = true

instance (b : NewBook) : Decidable b.Titled := inferInstanceAs (Decidable (_ = true))

/-- What `hash_file` returns. -/
structure Hashed where
  contentHash : String
  size : ℤ
  mtime : ℤ

/-- A file that the user picked. While the command runs it may fail to read the bytes; if it reads
them it reads what is there. -/
structure Chosen where
  path : String
  isFile : Bool
  /-- `parse_book`, then `new_book_from_parsed` with the cover that is kept. -/
  scanned : Except String (Option String → Except AppError NewBook)
  contentHash : String
  hashed : Except String Hashed
  hashed_eq : ∀ h, hashed = .ok h → h.contentHash = contentHash

inductive HashState where
  | pending
  | hashed
  | failed
  deriving DecidableEq

/-- The columns of a row of `books` about its place on disk. -/
structure Place where
  path : String
  fileSize : ℤ
  fileMtime : ℤ
  available : Bool := true
  hashState : HashState := .pending
  rehashPending : Bool := false

/-- One machine with the places of its files, and what the sync settings say. -/
structure Shelf where
  device : Device
  places : Table ℤ Place
  /-- A sync folder is connected, and sync is turned on. -/
  connected : Bool := true
  enabled : Bool := true
  /-- `sync_ignored_books`. -/
  ignored : List String := []

namespace Shelf

/-- `find_file_id_by_path`. -/
def fileAt (s : Shelf) (path : String) : Option ℤ :=
  (s.places.entries.find? fun e => e.2.path == path).map (·.1)

/-- The file rows of a book. -/
def fileRows (s : Shelf) (uid : String) : List ℤ :=
  (s.device.catalog.files.entries.filter fun e => e.2.bookUid == some uid).map (·.1)

def isAvailable (s : Shelf) (file : ℤ) : Bool :=
  (s.places.lookup file).any (·.available)

/-- The active file of a book: the available copy with the lowest row id. -/
def activeFile (s : Shelf) (uid : String) : Option ℤ :=
  if s.device.catalog.hasRecord uid then
    ((s.fileRows uid).filter s.isAvailable).min?.or (s.fileRows uid).min?
  else none

/-- The row id of the next file. -/
def nextFile (s : Shelf) : ℤ :=
  (s.device.catalog.files.entries.map (·.1)).foldl max 0 + 1

def setCatalog (s : Shelf) (c : Catalog) : Shelf :=
  { s with device := { s.device with catalog := c } }

def setHashState (s : Shelf) (file : ℤ) (state : HashState) : Shelf :=
  { s with places := s.places.mapRows fun i (p : Place) =>
      if i = file then { p with hashState := state } else p }

end Shelf

/-- A row of `books` refreshed from a parsed file. -/
def refresh (f : FileRow) (b : NewBook) (now : String) : FileRow :=
  { f with
    title := b.title
    subtitle := b.subtitle
    author := b.author
    publisher := b.publisher
    language := b.language
    isbn := b.isbn
    description := b.description
    coverPath := b.coverPath
    modifiedAt := now }

/-- The place of a file that was just seen on disk. -/
def seenAt (path : String) (b : NewBook) : Place where
  path := path
  fileSize := b.fileSize
  fileMtime := b.fileMtime

/-! ## Commands -/

section

variable (jsonReal : ℚ → Value)

/-- `record_imported_source`: the parsed file becomes the source, then the effective view. -/
def recordImportedSource (c : Catalog) (file : ℤ) (b : NewBook) : Catalog × Except AppError Unit :=
  let c := { c with files := c.files.mapRows fun i (f : FileRow) =>
    if i = file then { f with source := some b.sourceMetadata } else f }
  match c.fileUid file with
  | some uid => c.recomputeEffective jsonReal uid b.sourceMetadata
  | none => (c, .ok ())

/-- `update_book_by_id`: path, metadata and snapshot of a file row, which waits for its hash. -/
def updateBookById (s : Shelf) (file : ℤ) (path : String) (b : NewBook) (now : String) : Shelf :=
  { s with
    device := { s.device with catalog := { s.device.catalog with
      files := s.device.catalog.files.mapRows fun i (f : FileRow) =>
        if i = file then refresh f b now else f } }
    places := s.places.mapRows fun i (p : Place) =>
      if i = file then { seenAt path b with rehashPending := p.rehashPending } else p }

/-- `update_book_by_id`, then `record_imported_source`. -/
def takeFile (s : Shelf) (file : ℤ) (path : String) (b : NewBook) (now : String) :
    Shelf × Except AppError Unit :=
  if ¬b.Titled then (s, .error (.database "CHECK constraint failed"))
  else if (s.device.catalog.files.lookup file).isNone then (s, .error .notFound)
  else
    let s := updateBookById s file path b now
    let recorded := recordImportedSource jsonReal s.device.catalog file b
    (s.setCatalog recorded.1, recorded.2)

/-- `insert_file_for_book`: a file row of an existing book, then `record_imported_source`. -/
def insertFileForBook (s : Shelf) (uid path : String) (b : NewBook) (now : String) :
    Shelf × Except AppError ℤ :=
  if ¬b.Titled then (s, .error (.database "CHECK constraint failed"))
  else
    let file := s.nextFile
    let row : FileRow := refresh { bookUid := some uid, modifiedAt := now, title := b.title } b now
    let s := { s.setCatalog { s.device.catalog with
        files := s.device.catalog.files.insert file row } with
      places := s.places.insert file (seenAt path b) }
    let recorded := recordImportedSource jsonReal s.device.catalog file b
    (s.setCatalog recorded.1, recorded.2.map fun _ => file)

def markMetadataAvailable (c : Catalog) (uid : String) : Catalog :=
  { c with records := c.records.mapRows fun u (r : RecordRow) =>
      if u = uid then { r with available := true } else r }

/-- What a command draws: the time, and the uid that a binding would mint. -/
structure Drawn where
  now : String
  fresh : String

variable (drawn : Drawn)

/-- Explicitly reconnect an unavailable book to a new file. -/
def reconnectBook (s : Shelf) (uid : String) (file : Chosen) : Shelf × Except AppError Unit :=
  if ¬file.isFile then (s, .error (.invalidInput ("no file exists at " ++ file.path)))
  else match file.scanned with
  | .error err => (s, .error (.invalidInput ("that file is not a readable book: " ++ err)))
  | .ok newBook =>
    match s.activeFile uid with
    | none => (s, .error .notFound)
    | some row =>
      match newBook ((s.device.catalog.records.lookup uid).bind (·.values.coverPath)) with
      | .error err => (s, .error err)
      | .ok b =>
        if (s.fileAt file.path).any (· ≠ row) then
          (s, .error (.invalidInput "that file is already in the library"))
        else takeFile jsonReal s row file.path b drawn.now

/-- Whether the bytes may be given to the book. -/
def checkAlias (m : Mirror) (uid : String) (hashed : Except String Hashed)
    (expectedUid : Option String) : Except AppError Unit :=
  match hashed, expectedUid with
  | .error err, some _ => .error (.invalidInput ("could not read that file: " ++ err))
  | .error _, none => .ok ()
  | .ok h, some expected =>
    match m.aliases.lookup h.contentHash with
    | none => .error (.invalidInput "those bytes do not match this book, so nothing was attached")
    | some known =>
      if m.canonicalBookUid known ≠ m.canonicalBookUid expected then
        .error (.invalidInput "those bytes belong to a different book, so nothing was attached")
      else .ok ()
  | .ok h, none =>
    match m.aliases.lookup h.contentHash with
    | none => .ok ()
    | some known =>
      if m.canonicalBookUid known ≠ uid then
        .error (.invalidInput "that file belongs to another book in the library")
      else .ok ()

/-- Bind the new file row to the hash, or say that it could not be hashed. -/
def bindNewFile (s : Shelf) (file : ℤ) (hashed : Except String Hashed) :
    Shelf × Except AppError Unit :=
  match hashed with
  | .ok h =>
    let bound := s.device.bindHash jsonReal file h.contentHash h.size h.mtime drawn.fresh drawn.now
    let s := { s with device := bound.1 }
    (match bound.2 with
      | .ok _ => s.setHashState file .hashed
      | .error _ => s, bound.2)
  | .error _ => (s.setHashState file .failed, .ok ())

/-- Relink a Reading-history book to a file the user picked. -/
def relinkBook (s : Shelf) (uid : String) (file : Chosen) (expectedUid : Option String) :
    Shelf × Except AppError Unit :=
  if ¬file.isFile then (s, .error (.invalidInput ("no file exists at " ++ file.path)))
  else match s.device.catalog.records.lookup uid with
  | none => (s, .error .notFound)
  | some known =>
    if s.fileRows uid ≠ [] then (s, .error (.invalidInput
      "that book is still in the library; relink is for Reading history"))
    else if (s.fileAt file.path).isSome then
      (s, .error (.invalidInput "that file is already in the library"))
    else match file.scanned with
    | .error err => (s, .error (.invalidInput ("that file is not a readable book: " ++ err)))
    | .ok newBook =>
      match newBook known.values.coverPath with
      | .error err => (s, .error err)
      | .ok b =>
        match checkAlias s.device.mirror uid file.hashed expectedUid with
        | .error err => (s, .error err)
        | .ok () =>
          andThen (insertFileForBook jsonReal s uid file.path b drawn.now) fun s row =>
          andThen (bindNewFile jsonReal drawn s row file.hashed) fun s _ =>
          (s.setCatalog (markMetadataAvailable s.device.catalog uid), .ok ())

/-- `is_waiting`: mirror state, no local binding, not hidden and not forgotten. -/
def isWaiting (s : Shelf) (uid : String) : Bool :=
  let rows := s.device.mirror.entities.entries.filter fun e => e.2.bookUid == some uid
  !rows.isEmpty && s.device.mirror.bindings.entries.all (fun e => e.2.bookUid != uid) &&
    !s.ignored.contains uid && !(rows.any fun e => e.1.1 == EntityKind.book && e.2.deleted)

/-- `ensure_durable_record`: the record, and whether this call inserted it. -/
def ensureDurableRecord (s : Shelf) (uid now : String) : Shelf × Bool :=
  if s.device.catalog.hasRecord uid then (s, false)
  else (s.setCatalog { s.device.catalog with
    records := s.device.catalog.records.insert uid { createdAt := now } }, true)

/-- `discard_empty_durable_record`: only while nothing points at it. -/
def discardEmptyDurableRecord (s : Shelf) (uid : String) : Shelf :=
  if s.fileRows uid = [] ∧ s.device.mirror.bindings.entries.all fun e => e.2.bookUid != uid then
    s.setCatalog { s.device.catalog with records := s.device.catalog.records.erase uid }
  else s

/-- Attach a waiting book to the file the user located. `finish` is what follows an attached
file: the projection of its shared state. -/
def attachWaitingBook (finish : Shelf → Shelf × Except AppError Unit) (s : Shelf) (uid : String)
    (file : Chosen) : Shelf × Except AppError Unit :=
  if ¬s.connected then
    (s, .error (.invalidInput "cloud sync is not connected on this device"))
  else if ¬s.enabled then
    (s, .error (.invalidInput "cloud sync is turned off on this device"))
  else
    let uid := s.device.mirror.canonicalBookUid uid
    if s.ignored.contains uid then
      (s, .error (.invalidInput "that waiting book is hidden on this device"))
    else if ¬isWaiting s uid then
      (s, .error (.invalidInput "that book is not waiting for a file"))
    else if ¬file.isFile then (s, .error (.invalidInput ("no file exists at " ++ file.path)))
    else if (s.fileAt file.path).isSome then
      (s, .error (.invalidInput "that file is already in the library"))
    else
      let ensured := ensureDurableRecord s uid drawn.now
      match relinkBook jsonReal drawn ensured.1 uid file (some uid) with
      | (s, .ok ()) => finish s
      | (s, .error err) =>
        (if ensured.2 then discardEmptyDurableRecord s uid else s, .error err)

/-! ## Hash passes -/

/-- `ensure_book_identity` as the hash pass calls it: skip a row whose bytes are known, else hash
what is on disk and bind it. A failed attempt stays visible on the row. -/
def ensureBookIdentity (s : Shelf) (file : ℤ) (onDisk : Except String Hashed) : Shelf :=
  match s.places.lookup file with
  | none => s
  | some place =>
    if ¬place.available then s
    else match (s.device.mirror.bindings.lookup file).filter fun b =>
        ¬place.rehashPending ∧ b.hashedSize = place.fileSize ∧ b.hashedMtime = place.fileMtime with
    | some b =>
      (s.setCatalog ((s.device.catalog.pointFile file b.bookUid).ensureBookRecord file
        drawn.now)).setHashState file .hashed
    | none =>
      match onDisk with
      | .error _ => s.setHashState file .failed
      | .ok h =>
        let bound := s.device.bindHash jsonReal file h.contentHash h.size h.mtime drawn.fresh
          drawn.now
        let s := { s with device := bound.1 }
        match bound.2 with
        | .ok _ => { s with places := s.places.mapRows fun i (p : Place) =>
            if i = file then { p with hashState := .hashed, rehashPending := false } else p }
        | .error _ => s.setHashState file .failed

/-! ## Keeping two books apart -/

/-- A command names a durable book: `reconnect_book` and `relink_book` by its record,
`attach_waiting_book` by its shared uid. -/
inductive Command where
  | reconnect (uid : String)
  | relink (uid : String)
  | attach (uid : String)

/-- The book that a command names; the attach follows merges before and inside `relink_book`. -/
def Command.names (m : Mirror) : Command → String
  | .reconnect uid => uid
  | .relink uid => uid
  | .attach uid => m.canonicalBookUid (m.canonicalBookUid uid)

/-- Run a command. -/
def runCommand (finish : Shelf → Shelf × Except AppError Unit) (s : Shelf) (file : Chosen) :
    Command → Shelf × Except AppError Unit
  | .reconnect uid => reconnectBook jsonReal drawn s uid file
  | .relink uid => relinkBook jsonReal drawn s uid file none
  | .attach uid => attachWaitingBook jsonReal drawn finish s uid file

end

/-- The user's state of a book. -/
structure BookState where
  progress : Option ProgressRow
  annotations : List (Sigma fun _ : ℤ => AnnotationRow)
  memberships : List (Sigma fun _ : String × ℤ => String)
  overrides : Option OverrideRow
  authors : Option (List String)
  subjects : Option (List String)

def stateOf (c : Catalog) (uid : String) : BookState where
  progress := c.progress.lookup uid
  annotations := c.annotations.entries.filter fun e => e.2.bookUid == uid
  memberships := c.bookCollections.entries.filter fun e => e.1.1 == uid
  overrides := c.overrides.lookup uid
  authors := c.bookLists.lookup (.authors, uid)
  subjects := c.bookLists.lookup (.subjects, uid)

/-- A book is merged into no other and keeps its state. -/
structure Kept (s s' : Shelf) (uid : String) : Prop where
  identity : s'.device.mirror.canonicalBookUid uid = s.device.mirror.canonicalBookUid uid
  state : stateOf s'.device.catalog uid = stateOf s.device.catalog uid

/-- The command left another file row than it found, or another place of it. -/
def Wrote (s s' : Shelf) (file : ℤ) : Prop :=
  s'.device.catalog.files.lookup file ≠ s.device.catalog.files.lookup file ∨
    s'.places.lookup file ≠ s.places.lookup file

/-- What the bytes of the chosen file give a later pass: their hash, or nothing. -/
def ReadsChosen (file : Chosen) (onDisk : Except String Hashed) : Prop :=
  ∀ h, onDisk = .ok h → h.contentHash = file.contentHash

/-- The command fails, and neither it nor a later hash pass over a row it wrote merges the two
books or changes the state of one. -/
structure KeepsApart (jsonReal : ℚ → Value) (file : Chosen) (s : Shelf)
    (result : Shelf × Except AppError Unit) (named other : String) : Prop where
  error : ∃ err, result.2 = .error err
  kept : Kept s result.1 named ∧ Kept s result.1 other
  later : ∀ row, Wrote s result.1 row → ∀ drawn onDisk, ReadsChosen file onDisk →
    Kept s (ensureBookIdentity jsonReal drawn result.1 row onDisk) named ∧
      Kept s (ensureBookIdentity jsonReal drawn result.1 row onDisk) other

/-- The hash of the chosen file names another book than the command. -/
def NamesOther (s : Shelf) (file : Chosen) (command : Command) (other : String) : Prop :=
  ∃ known, s.device.mirror.aliases.lookup file.contentHash = some known ∧
    s.device.mirror.canonicalBookUid known = other ∧ other ≠ command.names s.device.mirror

/-- What a command parses the chosen file into, if it can be read as a book. -/
def parsed (s : Shelf) (uid : String) (file : Chosen) : Option NewBook :=
  match file.scanned with
  | .error _ => none
  | .ok newBook =>
    (newBook ((s.device.catalog.records.lookup uid).bind (·.values.coverPath))).toOption

/-- A check before the first write stops the command. An attach asks for the hash; a relink asks
for it if the bytes can be read; a reconnect never does. -/
def Refused (s : Shelf) (file : Chosen) : Command → Prop
  | .attach _ => True
  | .relink uid => file.isFile = false ∨ ¬s.device.catalog.hasRecord uid ∨ s.fileRows uid ≠ [] ∨
      (s.fileAt file.path).isSome ∨ ¬(parsed s uid file).any (fun b => b.Titled) ∨
      file.hashed.isOk
  | .reconnect uid => file.isFile = false ∨ ¬(parsed s uid file).any (fun b => b.Titled) ∨
      ∀ row, s.activeFile uid = some row → (s.fileAt file.path).any (· ≠ row)

/-- The effective metadata of the book can be computed from the parsed file. -/
def Recordable (s : Shelf) (uid : String) (file : Chosen) : Prop :=
  ∀ b, parsed s uid file = some b → s.device.catalog.Recomputable uid
    ((s.device.catalog.overrides.lookup uid).getD {}) b.sourceMetadata

/-! ## Refused commands -/

section Refused

variable {jsonReal : ℚ → Value} {drawn : Drawn} {finish : Shelf → Shelf × Except AppError Unit}
  {s : Shelf} {file : Chosen} {uid other : String}

lemma Kept.refl (s : Shelf) (uid : String) : Kept s s uid := ⟨rfl, rfl⟩

/-- A command that fails and leaves rows, places, identities and user state alone. -/
lemma keepsApart_of_untouched {s' : Shelf} {err : AppError}
    {named other : String} (hmirror : s'.device.mirror = s.device.mirror)
    (hfiles : s'.device.catalog.files = s.device.catalog.files) (hplaces : s'.places = s.places)
    (hstate : ∀ uid, stateOf s'.device.catalog uid = stateOf s.device.catalog uid) :
    KeepsApart jsonReal file s (s', .error err) named other where
  error := ⟨err, rfl⟩
  kept := by
    refine ⟨⟨?_, hstate named⟩, ⟨?_, hstate other⟩⟩
    · rw [hmirror]
    · rw [hmirror]
  later row hwrote := by
    rcases hwrote with hwrote | hwrote
    · rw [hfiles] at hwrote
      exact absurd rfl hwrote
    · rw [hplaces] at hwrote
      exact absurd rfl hwrote

lemma keepsApart_of_unchanged {err : AppError} {named other : String} :
    KeepsApart jsonReal file s (s, .error err) named other :=
  keepsApart_of_untouched rfl rfl rfl fun _ => rfl

/-- The scan that a parsed file comes from. -/
lemma parsed_eq_none_of_error {err : String} (h : file.scanned = .error err) :
    parsed s uid file = none := by
  unfold parsed
  rw [h]

lemma parsed_of_ok {newBook : Option String → Except AppError NewBook}
    (h : file.scanned = .ok newBook) :
    parsed s uid file =
      (newBook ((s.device.catalog.records.lookup uid).bind (·.values.coverPath))).toOption := by
  unfold parsed
  rw [h]

lemma takeFile_of_not_titled {b : NewBook} (h : ¬b.Titled) (row : ℤ) (path now : String) :
    takeFile jsonReal s row path b now = (s, .error (.database "CHECK constraint failed")) :=
  if_pos h

variable (jsonReal drawn) in
/-- A refused reconnect writes nothing. -/
lemma reconnect_of_refused (h : Refused s file (.reconnect uid)) :
    ∃ err, reconnectBook jsonReal drawn s uid file = (s, .error err) := by
  unfold reconnectBook
  split
  · exact ⟨_, rfl⟩
  next hfile =>
  split
  · exact ⟨_, rfl⟩
  next newBook hscan =>
  split
  · exact ⟨_, rfl⟩
  next row hrow =>
  split
  · exact ⟨_, rfl⟩
  next b hb =>
  split
  · exact ⟨_, rfl⟩
  next hpath =>
  have hparsed : parsed s uid file = some b := by
    rw [parsed_of_ok hscan, hb]
    rfl
  rcases h with h | h | h
  · rw [h] at hfile
    exact absurd (by decide) hfile
  · rw [hparsed] at h
    refine ⟨_, takeFile_of_not_titled ?_ row file.path drawn.now⟩
    simpa using h
  · exact absurd (h row hrow) hpath

/-- A relink whose check of the hash fails writes nothing. -/
lemma relink_of_check {expected : Option String} {err : AppError}
    (h : checkAlias s.device.mirror uid file.hashed expected = .error err) :
    ∃ err, relinkBook jsonReal drawn s uid file expected = (s, .error err) := by
  unfold relinkBook
  split
  · exact ⟨_, rfl⟩
  split
  · exact ⟨_, rfl⟩
  split
  · exact ⟨_, rfl⟩
  split
  · exact ⟨_, rfl⟩
  split
  · exact ⟨_, rfl⟩
  split
  · exact ⟨_, rfl⟩
  · rw [h]
    exact ⟨_, rfl⟩

/-- The hash of the chosen file names another book: if it can be read, it is not given away. -/
lemma checkAlias_of_names {h : Hashed} {known : String} (hread : file.hashed = .ok h)
    (hknown : s.device.mirror.aliases.lookup file.contentHash = some known) :
    (s.device.mirror.canonicalBookUid known ≠ uid →
      ∃ err, checkAlias s.device.mirror uid file.hashed none = .error err) ∧
    ∀ expected, s.device.mirror.canonicalBookUid known ≠ s.device.mirror.canonicalBookUid expected →
      ∃ err, checkAlias s.device.mirror uid file.hashed (some expected) = .error err := by
  have hlookup : s.device.mirror.aliases.lookup h.contentHash = some known := by
    rw [file.hashed_eq h hread]
    exact hknown
  refine ⟨fun hne => ?_, fun expected hne => ?_⟩
  · rw [hread, checkAlias, hlookup]
    exact ⟨_, if_pos hne⟩
  · rw [hread, checkAlias, hlookup]
    exact ⟨_, if_pos hne⟩

variable (jsonReal drawn) in
/-- A refused relink writes nothing. -/
lemma relink_of_refused (hother : NamesOther s file (.relink uid) other)
    (h : Refused s file (.relink uid)) :
    ∃ err, relinkBook jsonReal drawn s uid file none = (s, .error err) := by
  obtain ⟨known, hknown, rfl, hne⟩ := hother
  by_cases hread : file.hashed.isOk
  · obtain ⟨hashed, hread⟩ : ∃ hashed, file.hashed = .ok hashed := by
      cases hhashed : file.hashed with
      | error err => rw [hhashed] at hread; cases hread
      | ok hashed => exact ⟨hashed, rfl⟩
    obtain ⟨err, herr⟩ := (checkAlias_of_names hread hknown).1 hne
    exact relink_of_check herr
  · unfold relinkBook
    split
    · exact ⟨_, rfl⟩
    next hfile =>
    split
    · exact ⟨_, rfl⟩
    next record hrecord =>
    split
    · exact ⟨_, rfl⟩
    next hrows =>
    split
    · exact ⟨_, rfl⟩
    next hpath =>
    split
    · exact ⟨_, rfl⟩
    next newBook hscan =>
    split
    · exact ⟨_, rfl⟩
    next b hb =>
    have hparsed : parsed s uid file = some b := by
      rw [parsed_of_ok hscan, hrecord, Option.bind_some, hb]
      rfl
    split
    · exact ⟨_, rfl⟩
    have htitled : ¬b.Titled := by
      rcases h with h | h | h | h | h | h
      · rw [h] at hfile
        exact absurd (by decide) hfile
      · unfold Catalog.hasRecord at h
        rw [hrecord] at h
        exact absurd rfl h
      · exact absurd h hrows
      · exact absurd h hpath
      · rw [hparsed] at h
        simpa using h
      · exact absurd h hread
    refine ⟨.database "CHECK constraint failed", ?_⟩
    rw [insertFileForBook, if_pos htitled, andThen_error]

/-- An attach of bytes that name another book fails and leaves at most what it found. -/
lemma attach_of_other (hother : NamesOther s file (.attach uid) other) {named other' : String} :
    KeepsApart jsonReal file s (attachWaitingBook jsonReal drawn finish s
      uid file) named other' := by
  obtain ⟨known, hknown, rfl, hne⟩ := hother
  unfold attachWaitingBook
  split
  · exact keepsApart_of_unchanged
  split
  · exact keepsApart_of_unchanged
  dsimp only
  split
  · exact keepsApart_of_unchanged
  split
  · exact keepsApart_of_unchanged
  split
  · exact keepsApart_of_unchanged
  split
  · exact keepsApart_of_unchanged
  generalize hensured : ensureDurableRecord s (s.device.mirror.canonicalBookUid uid) drawn.now = r
  -- the record that may have been added is all that differs
  have hrecords : ∃ records, r.1 = s.setCatalog { s.device.catalog with records := records } := by
    rw [← hensured]
    unfold ensureDurableRecord
    split
    · exact ⟨s.device.catalog.records, rfl⟩
    · exact ⟨_, rfl⟩
  obtain ⟨records, hrecords⟩ := hrecords
  have hrelink : ∃ err, relinkBook jsonReal drawn r.1 (s.device.mirror.canonicalBookUid uid) file
      (some (s.device.mirror.canonicalBookUid uid)) = (r.1, .error err) := by
    cases hread : file.hashed with
    | error err => exact relink_of_check (congrArg (checkAlias _ _ · _) hread)
    | ok hashed =>
      have hknown' : r.1.device.mirror.aliases.lookup file.contentHash = some known := by
        rw [hrecords]
        exact hknown
      have hne' : r.1.device.mirror.canonicalBookUid known ≠
          r.1.device.mirror.canonicalBookUid (s.device.mirror.canonicalBookUid uid) := by
        rw [hrecords]
        exact hne
      obtain ⟨err, herr⟩ := (checkAlias_of_names hread hknown').2 _ hne'
      exact relink_of_check herr
  obtain ⟨err, hrelink⟩ := hrelink
  rw [hrelink]
  dsimp only
  split
  · unfold discardEmptyDurableRecord
    split
    · rw [hrecords]
      exact keepsApart_of_untouched rfl rfl rfl fun _ => rfl
    · rw [hrecords]
      exact keepsApart_of_untouched rfl rfl rfl fun _ => rfl
  · rw [hrecords]
    exact keepsApart_of_untouched rfl rfl rfl fun _ => rfl

variable (jsonReal drawn finish) in
/-- **A refused command keeps the two books apart.** -/
theorem keeps_apart_of_refused {command : Command} (hother : NamesOther s file command other)
    (h : Refused s file command) :
    KeepsApart jsonReal file s (runCommand jsonReal drawn finish s file command)
      (command.names s.device.mirror) other := by
  cases command with
  | reconnect uid =>
    obtain ⟨err, herr⟩ := reconnect_of_refused jsonReal drawn h
    rw [runCommand, herr]
    exact keepsApart_of_unchanged
  | relink uid =>
    obtain ⟨err, herr⟩ := relink_of_refused jsonReal drawn hother h
    rw [runCommand, herr]
    exact keepsApart_of_unchanged
  | attach uid => exact attach_of_other hother

end Refused

/-! ## Accepted commands -/

section Accepted

variable {jsonReal : ℚ → Value} {drawn : Drawn} {s : Shelf} {file : Chosen} {uid : String}

/-- The active file of a book is one of its rows. -/
lemma fileUid_of_activeFile {row : ℤ} (h : s.activeFile uid = some row) :
    s.device.catalog.fileUid row = some uid ∧ s.device.catalog.hasRecord uid = true := by
  unfold Shelf.activeFile at h
  split at h
  next hrecord =>
    have hmem : row ∈ s.fileRows uid := by
      cases hfirst : ((s.fileRows uid).filter s.isAvailable).min? with
      | some i =>
        rw [hfirst, Option.some_or] at h
        cases h
        exact List.mem_of_mem_filter (List.min?_mem hfirst)
      | none =>
        rw [hfirst, Option.none_or] at h
        exact List.min?_mem h
    obtain ⟨e, he, rfl⟩ := List.mem_map.mp hmem
    obtain ⟨he, huid⟩ := List.mem_filter.mp he
    refine ⟨?_, hrecord⟩
    unfold Catalog.fileUid
    rw [Table.lookup_eq_some_iff.mpr he]
    exact eq_of_beq huid
  next => cases h

/-- Recording the source of a row succeeds when the effective metadata can be computed. -/
lemma recordImportedSource_ok (uid : String) {c : Catalog} {row : ℤ} {b : NewBook}
    (hrow : c.fileUid row = some uid)
    (h : c.Recomputable uid ((c.overrides.lookup uid).getD {}) b.sourceMetadata) :
    (recordImportedSource jsonReal c row b).2 = .ok () := by
  have huid : Catalog.fileUid { c with files := c.files.mapRows fun i (f : FileRow) =>
      if i = row then { f with source := some b.sourceMetadata } else f } row = some uid := by
    unfold Catalog.fileUid at hrow ⊢
    dsimp only
    rw [Table.lookup_mapRows]
    cases hf : c.files.lookup row with
    | none =>
      rw [hf] at hrow
      cases hrow
    | some f =>
      rw [hf] at hrow
      simpa using hrow
  unfold recordImportedSource
  dsimp only
  rw [huid]
  exact (Catalog.recomputeEffective_ok_iff jsonReal _ uid _).mpr ⟨h.lists, h.title⟩

/-- Refreshing a row leaves it with its book. -/
lemma fileUid_updateBookById {row : ℤ} (h : s.device.catalog.fileUid row = some uid) (path : String)
    (b : NewBook) (now : String) :
    (updateBookById s row path b now).device.catalog.fileUid row = some uid := by
  unfold Catalog.fileUid at h ⊢
  rw [updateBookById, Table.lookup_mapRows]
  cases hf : s.device.catalog.files.lookup row with
  | none =>
    rw [hf] at h
    cases h
  | some f =>
    rw [hf] at h
    simpa [refresh] using h

/-- What is left of a parsed file that is not refused. -/
lemma parsed_of_titled (h : ¬¬((parsed s uid file).any fun b => b.Titled) = true) :
    ∃ b, parsed s uid file = some b ∧ b.Titled := by
  rw [not_not] at h
  cases hparsed : parsed s uid file with
  | none =>
    rw [hparsed] at h
    cases h
  | some b =>
    rw [hparsed] at h
    exact ⟨b, rfl, by simpa using h⟩

/-- The scan and the parsed book behind it. -/
lemma scan_of_parsed {b : NewBook} (h : parsed s uid file = some b) :
    ∃ newBook, file.scanned = .ok newBook ∧
      newBook ((s.device.catalog.records.lookup uid).bind (·.values.coverPath)) = .ok b := by
  cases hscan : file.scanned with
  | error err =>
    rw [parsed_eq_none_of_error hscan] at h
    cases h
  | ok newBook =>
    refine ⟨newBook, rfl, ?_⟩
    rw [parsed_of_ok hscan] at h
    cases hb : newBook ((s.device.catalog.records.lookup uid).bind (·.values.coverPath)) with
    | error err =>
      rw [hb] at h
      cases h
    | ok b' =>
      rw [hb] at h
      cases h
      rfl

variable (jsonReal drawn) in
/-- A reconnect that no check stops succeeds. -/
lemma reconnect_ok (h : ¬Refused s file (.reconnect uid)) (hrecord : Recordable s uid file) :
    (reconnectBook jsonReal drawn s uid file).2 = .ok () := by
  unfold Refused at h
  simp only [not_or] at h
  obtain ⟨hfile, hparsed, hrow⟩ := h
  obtain ⟨b, hb, htitled⟩ := parsed_of_titled hparsed
  obtain ⟨newBook, hscan, hnew⟩ := scan_of_parsed hb
  obtain ⟨row, hactive, hpath⟩ : ∃ row, s.activeFile uid = some row ∧
      ¬(s.fileAt file.path).any (· ≠ row) := by
    simpa only [not_forall, exists_prop] using hrow
  obtain ⟨huid, -⟩ := fileUid_of_activeFile hactive
  unfold reconnectBook
  rw [if_neg (not_not.mpr (Bool.eq_true_of_not_eq_false hfile)), hscan]
  dsimp only
  rw [hactive]
  dsimp only
  rw [hnew]
  dsimp only
  rw [if_neg hpath, takeFile, if_neg (not_not.mpr htitled), if_neg]
  · refine recordImportedSource_ok uid (fileUid_updateBookById huid file.path b drawn.now) ?_
    obtain ⟨hlists, htitle⟩ := hrecord b hb
    exact ⟨hlists, htitle⟩
  · cases hf : s.device.catalog.files.lookup row with
    | none =>
      rw [Catalog.fileUid, hf] at huid
      cases huid
    | some f => simp

variable (jsonReal drawn) in
/-- A relink that no check stops succeeds without a hash. -/
lemma relink_ok (h : ¬Refused s file (.relink uid)) (hrecord : Recordable s uid file) :
    (relinkBook jsonReal drawn s uid file none).2 = .ok () := by
  unfold Refused at h
  simp only [not_or] at h
  obtain ⟨hfile, hhas, hrows, hpath, hparsed, hread⟩ := h
  obtain ⟨b, hb, htitled⟩ := parsed_of_titled hparsed
  obtain ⟨newBook, hscan, hnew⟩ := scan_of_parsed hb
  obtain ⟨known, hknown⟩ : ∃ known, s.device.catalog.records.lookup uid = some known := by
    unfold Catalog.hasRecord at hhas
    exact Option.isSome_iff_exists.mp (not_not.mp hhas)
  obtain ⟨readError, hread⟩ : ∃ err, file.hashed = .error err := by
    cases hhashed : file.hashed with
    | error err => exact ⟨err, rfl⟩
    | ok hashed =>
      rw [hhashed] at hread
      exact absurd rfl hread
  rw [hknown, Option.bind_some] at hnew
  unfold relinkBook
  rw [if_neg (not_not.mpr (Bool.eq_true_of_not_eq_false hfile)), hknown]
  dsimp only
  rw [if_neg hrows, if_neg hpath, hscan]
  dsimp only
  rw [hnew]
  dsimp only
  rw [hread, checkAlias]
  dsimp only
  obtain ⟨hlists, htitle⟩ := hrecord b hb
  have hinsert : (insertFileForBook jsonReal s uid file.path b drawn.now).2 = .ok s.nextFile := by
    unfold insertFileForBook
    rw [if_neg (not_not.mpr htitled)]
    dsimp only
    rw [recordImportedSource_ok uid]
    · rfl
    · unfold Catalog.fileUid
      dsimp only [Shelf.setCatalog]
      rw [AList.lookup_insert]
      rfl
    · exact ⟨hlists, htitle⟩
  rw [andThen_eq_ok]
  refine ⟨s.nextFile, hinsert, ?_⟩
  rw [bindNewFile, andThen_ok]

variable (jsonReal drawn) in
/-- **A command keeps the two books apart exactly when it is refused**: every refused command
does, and of the files whose metadata the book can take no other one does. -/
theorem keeps_apart_iff (finish : Shelf → Shelf × Except AppError Unit) {command : Command}
    {other : String} (hother : NamesOther s file command other) :
    (Refused s file command →
      KeepsApart jsonReal file s (runCommand jsonReal drawn finish s file command)
        (command.names s.device.mirror) other) ∧
    (Recordable s (command.names s.device.mirror) file →
      KeepsApart jsonReal file s (runCommand jsonReal drawn finish s file command)
        (command.names s.device.mirror) other → Refused s file command) := by
  refine ⟨keeps_apart_of_refused jsonReal drawn finish hother, fun hrecord hkeeps => ?_⟩
  obtain ⟨err, herr⟩ := hkeeps.error
  by_contra hrefused
  cases command with
  | reconnect uid =>
    rw [runCommand, reconnect_ok jsonReal drawn hrefused hrecord] at herr
    cases herr
  | relink uid =>
    rw [runCommand, relink_ok jsonReal drawn hrefused hrecord] at herr
    cases herr
  | attach uid => exact hrefused trivial

end Accepted

/-! ## A file of another book -/

/-- Two books with a file each, the first one missing, and a third in Reading history. -/
def sampleShelf : Shelf where
  device :=
    { mirror :=
        { aliases := (AList.singleton "g" "a").insert "h" "b"
          bindings := (AList.singleton (1 : ℤ) (⟨"a", "g", 1, 1⟩ : BindingRow)).insert 2
            ⟨"b", "h", 5, 5⟩ }
      catalog :=
        { files := (AList.singleton (1 : ℤ)
            ({ bookUid := some "a", modifiedAt := "", title := "A" } : FileRow)).insert 2
              { bookUid := some "b", modifiedAt := "", title := "B" }
          records := ((AList.singleton "a" ({ createdAt := "" } : RecordRow)).insert "b"
            { createdAt := "" }).insert "c" { createdAt := "" } } }
  places := (AList.singleton (1 : ℤ)
    ({ path := "/a", fileSize := 1, fileMtime := 1, available := false, hashState := .hashed } :
      Place)).insert 2 { path := "/b", fileSize := 5, fileMtime := 5, hashState := .hashed }

/-- A copy of the second book's file. -/
def sampleCopy : Chosen where
  path := "/copy"
  isFile := true
  scanned := .ok fun _ => .ok { title := "B", fileSize := 5, fileMtime := 7 }
  contentHash := "h"
  hashed := .ok ⟨"h", 5, 7⟩
  hashed_eq h hh := by
    cases hh
    rfl

/-- A relink asks for the hash and is refused. -/
theorem keeps_apart_iff_sample :
    KeepsApart (fun _ => .null) sampleCopy sampleShelf
      (runCommand (fun _ => .null) ⟨"", ""⟩ (fun s => (s, .ok ())) sampleShelf sampleCopy
        (.relink "c")) "c" "b" :=
  (keeps_apart_iff (fun _ => .null) ⟨"", ""⟩ (fun s => (s, .ok ()))
    (⟨"b", by decide, by decide, by decide⟩ :
      NamesOther sampleShelf sampleCopy (.relink "c") "b")).1
    (Or.inr (Or.inr (Or.inr (Or.inr (Or.inr rfl)))))

/-- A reconnect does not: it succeeds, and the next hash pass merges the two books. -/
theorem reconnect_merges_books :
    NamesOther sampleShelf sampleCopy (.reconnect "a") "b" ∧
    (reconnectBook (fun _ => .null) ⟨"", ""⟩ sampleShelf "a" sampleCopy).2 = .ok () ∧
    sampleShelf.device.mirror.canonicalBookUid "b" = "b" ∧
    (ensureBookIdentity (fun _ => .null) ⟨"", ""⟩
      (reconnectBook (fun _ => .null) ⟨"", ""⟩ sampleShelf "a" sampleCopy).1 1
      sampleCopy.hashed).device.mirror.canonicalBookUid "b" = "a" ∧
    ¬KeepsApart (fun _ => .null) sampleCopy sampleShelf
      (reconnectBook (fun _ => .null) ⟨"", ""⟩ sampleShelf "a" sampleCopy) "a" "b" := by
  have hok : (reconnectBook (fun _ => .null) ⟨"", ""⟩ sampleShelf "a" sampleCopy).2 = .ok () := by
    decide +kernel
  refine ⟨⟨"b", by decide, by decide, by decide⟩, hok, by decide, by decide +kernel, ?_⟩
  intro hkeeps
  obtain ⟨err, herr⟩ := hkeeps.error
  rw [hok] at herr
  cases herr

end Relink

end TuxBooks
