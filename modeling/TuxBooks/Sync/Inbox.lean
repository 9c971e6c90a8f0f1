import Mathlib.Data.List.Sort
import TuxBooks.Sync.Merge

set_option relaxedAutoImplicit false
set_option autoImplicit false

/-!
# Reading the sync folder

`sync_remote` of `sidecar/src/sync/engine.rs` with the cover functions of
`sidecar/src/sync/store.rs`: a pass lists the operation files, skips those that the
`sync_remote_files` table has as processed, reads at most 500 of the others and hands each
operation to `apply_op`; the files are marked processed when the pass ends.

A pass is a machine whose steps are the iterations of the loop, so that files and blobs can become
visible between two of them. A failure of the database, of the file system or of the projection
ends the pass where it stands. Of the projection only this is kept: for the operations read here
it writes none of the tables below.

## Main definitions

* `TuxBooks.OpFile`, `TuxBooks.Folder` — what the sync folder shows to a device.
* `TuxBooks.Inbox` — the tables of the device that reads it, and its pass.
* `TuxBooks.coverFileName`, `TuxBooks.applyCoverBlob` — the cover cache.
* `TuxBooks.Inbox.readNext` — one iteration of the loop.
* `TuxBooks.InboxEvent`, `TuxBooks.InboxEvent.run` — everything that can happen.
-/

namespace TuxBooks

/-! ## The folder -/

/-- An operation file, with what `read_op` returns for it. -/
structure OpFile where
  size : ℤ
  mtime : ℤ
  content : Except String Op

/-- The files below `ops/` by their relative path, and the sizes of those in `blobs/covers/`. -/
structure Folder where
  ops : Table String OpFile := ∅
  covers : Table String ℕ := ∅

/-- `Path::file_name`: the last component of a path, unless that is `..`. -/
def fileName (path : String) : Option String :=
  match ((path.toList.splitOn '/').filter fun c => c ≠ [] ∧ c ≠ ['.']).getLast? with
  | some name => if name = ['.', '.'] then none else some (String.ofList name)
  | none => none

/-- The files that `scan_ops` lists, by their path. -/
def isOpFile (path : String) : Bool :=
  match fileName path with
  | some name => decide (".json".toList <:+ name.toList) && name.toList.head? != some '.'
  | none => false

def Folder.scanOps (root : Folder) : List (String × OpFile) :=
  ((root.ops.entries.map fun e => (e.1, e.2)).filter fun f => isOpFile f.1).insertionSort
    fun a b => a.1 ≤ b.1

/-! ## Covers -/

/-- `is_ascii_hexdigit`. -/
def isAsciiHexDigit (c : Char) : Bool :=
  c.isDigit || ('a' ≤ c && c ≤ 'f') || ('A' ≤ c && c ≤ 'F')

/-- The name of a cover in the cache: hex digits and an image extension. -/
def coverFileName (path : String) : Option String :=
  match fileName path with
  | none => none
  | some name =>
    match rsplitOnce '.' name with
    | none => none
    | some (stem, extension) =>
      if ¬(8 ≤ stem.utf8ByteSize ∧ stem.utf8ByteSize ≤ 64 ∧ stem.toList.all isAsciiHexDigit) then
        none
      else if extension ∈ ["png", "jpg", "jpeg", "gif", "webp", "img"] then some name
      else none

/-- Copy a cover from the sync folder into the cache, unless the cache has it. `io` is the error
that the file system reports for the copy, if any. -/
def applyCoverBlob (root : Folder) (io : Option AppError) (coversDir : List String)
    (path : String) : List String × Except AppError Bool :=
  match coverFileName path with
  | none => (coversDir, .ok false)
  | some name =>
    if name ∈ coversDir then (coversDir, .ok true)
    else match root.covers.lookup name with
      | none => (coversDir, .ok false)
      | some size =>
        if size > 16 * 1024 * 1024 then
          (coversDir, .error (.invalidInput "cover blob is larger than the 16 MiB sync limit"))
        else match io with
          | some e => (coversDir, .error e)
          | none => (name :: coversDir, .ok true)

/-- The cover that a metadata edit names. -/
def Op.cover (op : Op) : Option String :=
  if op.kind = .metadata ∧ op.deleted = false then
    (op.fields.lookup "cover_path").bind Value.asStr
  else none

/-- The edit with its cover replaced by `null`. -/
def Op.withoutCover (op : Op) : Op :=
  { op with fields := op.fields.insert "cover_path" .null }

/-! ## The device -/

/-- One row of `sync_remote_files`. -/
structure RemoteFileRow where
  size : ℤ
  mtime : ℤ
  failures : ℕ
  /-- Whether `processed_at` is set. -/
  processedAt : Bool
  deriving DecidableEq

/-- A pass: the files it has still to look at and what it has collected for its end. -/
structure Pass where
  rest : List (String × OpFile)
  processed : ℕ := 0
  affected : List Affected := []
  identityBooks : List String := []
  /-- `mark_processed`. -/
  marks : List (String × OpFile) := []

/-- An operation that was read from a file. -/
structure Reading where
  op : Op
  /-- Whether the operation was applied as read: the cover that it names, if any, was there. -/
  intact : Bool

/-- What is handed to `apply_op`. -/
def Reading.handed (r : Reading) : Op := if r.intact then r.op else r.op.withoutCover

/-- The device that reads the folder. -/
structure Inbox where
  mirror : Mirror := {}
  /-- `sync_remote_files`. -/
  files : Table String RemoteFileRow := ∅
  /-- The names in the cover cache. -/
  coversDir : List String := []
  /-- The pass that is running, if any. -/
  pass : Option Pass := none
  /-- History variable: every operation read so far. Nothing depends on it. -/
  readings : List Reading := []

/-- `REMOTE_BATCH`. -/
def remoteBatch : ℕ := 500

/-- `FILE_RETRY_LIMIT`. -/
def fileRetryLimit : ℕ := 5

/-- The row is about this version of the file. -/
def RemoteFileRow.Matches (row : RemoteFileRow) (f : OpFile) : Prop :=
  row.size = f.size ∧ row.mtime = f.mtime

instance (row : RemoteFileRow) (f : OpFile) : Decidable (row.Matches f) :=
  inferInstanceAs (Decidable (_ ∧ _))

/-- What a pass keeps of a file whose operation it has applied. -/
def Pass.add (p : Pass) (m : Mirror) (path : String) (f : OpFile) (op : Op)
    (applied : List Affected) : Pass :=
  { p with
    processed := p.processed + 1
    affected := p.affected ++
      if applied.isEmpty then [⟨op.kind, op.entityUid, op.bookUid⟩] else applied
    identityBooks := if op.kind = .bookIdentity then
        p.identityBooks ++ [m.canonicalBookUid op.entityUid]
      else p.identityBooks
    marks := p.marks ++ [(path, f)] }

namespace Inbox

/-- Whether a pass skips the file. -/
def isProcessed (s : Inbox) (path : String) (f : OpFile) : Bool :=
  match s.files.lookup path with
  | some row => decide (row.Matches f) && row.processedAt
  | none => false

/-! ## One file -/

/-- Count a failed attempt to read the file, and give it up after the last one. -/
def recordFileFailure (s : Inbox) (path : String) (f : OpFile) : Inbox :=
  let failures := match s.files.lookup path with
    | some row => if row.Matches f then row.failures + 1 else 1
    | none => 1
  let giveUp : Bool := decide (failures ≥ fileRetryLimit)
  { s with
    files := s.files.insert path ⟨f.size, f.mtime, failures, giveUp⟩
    mirror := s.mirror.recordIssue ("file:" ++ path)
      (if giveUp then "operation_rejected" else "operation_retrying") }

/-- Fetch the cover that an edit names; an edit whose cover is not there goes on without it. -/
def resolveCover (s : Inbox) (root : Folder) (io : Option AppError) (op : Op) : Inbox × Reading :=
  match op.cover with
  | none => (s, ⟨op, true⟩)
  | some name =>
    match applyCoverBlob root io s.coversDir name with
    | (covers, .ok true) => ({ s with coversDir := covers }, ⟨op, true⟩)
    | (covers, _) =>
      ({ s with
        coversDir := covers
        mirror := s.mirror.recordIssue ("cover-missing:" ++ name) "cover_missing" }, ⟨op, false⟩)

section Pass

variable (fromStr : String → Option Value)

/-- Hand an operation to the merge. -/
def handOver (s : Inbox) (r : Reading) : Inbox × Except AppError (List Affected) :=
  let (mirror, result) := s.mirror.applyOp fromStr r.handed
  ({ s with mirror := mirror, readings := s.readings ++ [r] }, result)

/-- One iteration of the loop of `sync_remote`. -/
def readNext (s : Inbox) (root : Folder) (io : Option AppError) : Inbox :=
  match s.pass with
  | none => s
  | some p =>
    match p.rest with
    | [] => s
    | (path, f) :: rest =>
      let p := { p with rest := rest }
      if s.isProcessed path f then { s with pass := some p }
      else if p.processed ≥ remoteBatch then { s with pass := some { p with rest := [] } }
      else match f.content with
        | .error _ =>
          { s.recordFileFailure path f with pass := some { p with processed := p.processed + 1 } }
        | .ok op =>
          let (s, r) := s.resolveCover root io op
          match s.handOver fromStr r with
          | (s, .error _) => { s with pass := none }
          | (s, .ok applied) => { s with pass := some (p.add s.mirror path f r.handed applied) }

/-- A pass begins, unless one is running, with the list of all files. -/
def startPass (s : Inbox) (root : Folder) : Inbox :=
  match s.pass with
  | none => { s with pass := some { rest := root.scanOps } }
  | some _ => s

/-- `INSERT INTO sync_remote_files ... ON CONFLICT DO UPDATE`. -/
def markFile (files : Table String RemoteFileRow) (mark : String × OpFile) :
    Table String RemoteFileRow :=
  files.insert mark.1 ⟨mark.2.size, mark.2.mtime, 0, true⟩

/-- A pass that has no file left ends; at least the first `n` marks are written, all of them
unless the database fails. -/
def finishPass (s : Inbox) (n : ℕ) : Inbox :=
  match s.pass with
  | none => s
  | some p =>
    match p.rest with
    | [] => { s with files := (p.marks.take n).foldl markFile s.files, pass := none }
    | _ :: _ => s

end Pass

end Inbox

/-! ## Everything that can happen -/

/-- The sync folder and the device that reads it. -/
structure SyncState where
  root : Folder := {}
  inbox : Inbox := {}

inductive InboxEvent where
  /-- An operation file becomes visible; one that is visible is not replaced. -/
  | file (path : String) (f : OpFile)
  /-- A cover blob becomes visible. -/
  | blob (name : String) (size : ℕ)
  /-- The cover cache changes for other reasons. -/
  | cache (coversDir : List String)
  /-- A pass begins. -/
  | start
  /-- The pass looks at its next file. -/
  | next (io : Option AppError)
  /-- The pass ends and marks its files. -/
  | finish (marks : ℕ)
  /-- The pass fails. -/
  | fail

namespace InboxEvent

variable (fromStr : String → Option Value)

def step (s : SyncState) : InboxEvent → SyncState
  | file path f =>
    if path ∈ s.root.ops then s
    else { s with root := { s.root with ops := s.root.ops.insert path f } }
  | blob name size =>
    if name ∈ s.root.covers then s
    else { s with root := { s.root with covers := s.root.covers.insert name size } }
  | cache coversDir => { s with inbox := { s.inbox with coversDir := coversDir } }
  | start => { s with inbox := s.inbox.startPass s.root }
  | next io => { s with inbox := s.inbox.readNext fromStr s.root io }
  | finish marks => { s with inbox := s.inbox.finishPass marks }
  | fail => { s with inbox := { s.inbox with pass := none } }

def run (s : SyncState) (events : List InboxEvent) : SyncState :=
  events.foldl (step fromStr) s

end InboxEvent

/-- Nothing is left to do: every listed file is marked processed. -/
def SyncState.Settled (s : SyncState) : Prop :=
  ∀ f ∈ s.root.scanOps, s.inbox.isProcessed f.1 f.2 = true

instance (s : SyncState) : Decidable s.Settled :=
  inferInstanceAs (Decidable (∀ f ∈ _, _ = _))

end TuxBooks
