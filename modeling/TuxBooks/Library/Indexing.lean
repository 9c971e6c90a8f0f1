import Mathlib
import TuxBooks.Lib.Table

set_option relaxedAutoImplicit false
set_option autoImplicit false

/-!
# The hash pass and its issues

The background pass that hashes the files of the library
(`sidecar/src/services/hash_backfill.rs` and `sidecar/src/repository/identity_backfill.rs`), and
the sync issues that it opens and closes (`sidecar/src/repository/sync_issues.rs` and the status
refresh of `sidecar/src/sync/engine.rs`).

A failed file keeps a retry clock in its row, and the pass is its own scheduler: it takes a failed
row up again once the clock is due. Times are in milliseconds. What hashing a file gives comes
from outside: an `Attempt` says when it ended and to which book the bytes belong.

## Main definitions

* `TuxBooks.Indexing.processBatch`, `TuxBooks.Indexing.runUntilIdle` — the pass.
* `TuxBooks.Indexing.retryBook` — the manual retry of one book.
* `TuxBooks.Indexing.refreshStatus` — what a status refresh does to the issues of failed files.

## Main results

* `TuxBooks.Indexing.runUntilIdle_spec` — a pass ends, and tries every due file once.
* `TuxBooks.Indexing.backoff_le` — how often an unreadable file is tried.
* `TuxBooks.Indexing.retryBook_spec` — what a manual retry does and reports.
* `TuxBooks.Indexing.open_refreshStatus_iff` — after a refresh the open issues are those of the
  books that are not indexed, over every run.
-/

namespace TuxBooks

namespace Indexing

/-! ## Tables -/

/-- `books.hash_state`. -/
inductive HashState where
  | pending
  | hashed
  | failed
  deriving DecidableEq

/-- What the pass reads of a row of `books`. -/
structure FileRow where
  bookUid : Option String
  path : String
  available : Bool
  hashState : HashState := .pending
  hashAttempts : ℕ := 0
  hashRetryAt : Option ℤ := none
  deriving DecidableEq

/-- The key of an issue: `hash-failed:<book id>`, or any other text. -/
inductive IssueKey where
  | hashFailed (bookId : ℤ)
  | other (key : String)
  deriving DecidableEq

/-- A row of `sync_issues`. -/
structure IssueRow where
  issueKey : IssueKey
  kind : String
  detail : String
  fileName : Option String
  updatedAt : ℤ
  resolvedAt : Option ℤ := none
  deriving DecidableEq

/-- The tables: files, the uid of each durable book, issues with the last id that was given, and
whether sync is on. -/
structure Db where
  files : Table ℤ FileRow := ∅
  records : Table ℤ String := ∅
  recordSeq : ℤ := 0
  issues : Table ℕ IssueRow := ∅
  issueSeq : ℕ := 0
  enabled : Bool := false
  deriving DecidableEq

/-- How many files one batch takes. -/
def batch : ℕ := 16

/-- `RETRY_DELAYS_SECS`. -/
def retryDelays : List ℤ := [60, 300, 900, 3600, 21600, 86400]

/-- Delay before the next automatic attempt after `attempts` failures. -/
def retryDelaySecs (attempts : ℤ) : ℤ := retryDelays.getD ((max attempts 1).toNat - 1) 86400

def retryAtAfter (now : ℤ) (attempts : ℤ) : ℤ := now + 1000 * retryDelaySecs attempts

/-! ## Queries -/

/-- A file that the pass takes up. -/
def FileRow.due (r : FileRow) (now : ℤ) : Bool :=
  r.available && (r.hashState == .pending || r.hashState == .failed && r.hashRetryAt.all (· ≤ now))

namespace Db

variable (s : Db)

/-- `ORDER BY id`. -/
def fileIds (p : FileRow → Bool) : List ℤ :=
  (s.files.keys.filter fun id => (s.files.lookup id).any p).insertionSort (· ≤ ·)

def pendingBookIds (now : ℤ) (limit : ℕ) : List ℤ := (s.fileIds (·.due now)).take limit

def bookAvailable (id : ℤ) : Option Bool := (s.files.lookup id).map (·.available)

def durableIdForFile (id : ℤ) : Option ℤ :=
  (s.files.lookup id).bind fun r => r.bookUid.bind fun uid => s.records.findKey (· == uid)

def fileIdsForBook (bookId : ℤ) : List ℤ :=
  match s.records.lookup bookId with
  | none => []
  | some uid => s.fileIds fun r => r.bookUid == some uid

/-- The hash states of all locations of a book. -/
def hashStatesOf (bookId : ℤ) : List HashState :=
  (s.fileIdsForBook bookId).filterMap fun id => (s.files.lookup id).map (·.hashState)

/-- Failed if any location failed, otherwise pending if any is pending, otherwise hashed. -/
def aggregateHashState (bookId : ℤ) : Option HashState :=
  if (s.hashStatesOf bookId).isEmpty then none
  else if HashState.failed ∈ s.hashStatesOf bookId then some .failed
  else if HashState.pending ∈ s.hashStatesOf bookId then some .pending
  else some .hashed

/-- `MIN(b.path)` over the failed locations of a book. -/
def failedPath (bookId : ℤ) : Option String :=
  ((s.fileIdsForBook bookId).filterMap fun id =>
    ((s.files.lookup id).filter (·.hashState == .failed)).map (·.path)).argmin id

def failedBookPaths : List (ℤ × String) :=
  (s.records.keys.insertionSort (· ≤ ·)).filterMap fun bookId =>
    (s.failedPath bookId).map fun path => (bookId, path)

end Db

/-- `services::hash_backfill::status`. -/
structure HashBackfillStatus where
  total : ℕ
  hashed : ℕ
  pending : ℕ
  failed : ℕ
  waiting : ℕ
  deriving DecidableEq

def hashStates (s : Db) : HashBackfillStatus where
  total := s.files.entries.countP fun e => e.2.available
  hashed := s.files.entries.countP fun e => e.2.available && e.2.hashState == .hashed
  pending := s.files.entries.countP fun e => e.2.available && e.2.hashState == .pending
  failed := s.files.entries.countP fun e => e.2.available && e.2.hashState == .failed
  waiting := s.files.entries.countP fun e => !e.2.available && e.2.hashState == .pending

/-! ## Issues -/

namespace Db

variable (s : Db)

/-- The open row of a key. -/
def openIssue (key : IssueKey) : Option ℕ :=
  s.issues.findKey fun r => r.issueKey == key && r.resolvedAt.isNone

/-- Open an issue, or write the open row of its key again. `touches` says whether that counts as an
update. -/
def upsertIssue (touches : IssueRow → Bool) (key : IssueKey) (kind detail : String)
    (fileName : Option String) (now : ℤ) : Db :=
  match s.openIssue key with
  | some id =>
    { s with
      issues := s.issues.mapRows fun k r =>
        if k = id then
          { r with kind, detail, fileName, updatedAt := if touches r then now else r.updatedAt }
        else r }
  | none =>
    { s with
      issues := s.issues.insert (s.issueSeq + 1) ⟨key, kind, detail, fileName, now, none⟩
      issueSeq := s.issueSeq + 1 }

/-- `sync_issues::record`. -/
def recordIssue (key : IssueKey) (kind detail : String) (fileName : Option String) (now : ℤ) : Db :=
  s.upsertIssue (fun _ => true) key kind detail fileName now

/-- `sync_issues::ensure`: an unchanged row is not touched. -/
def ensureIssue (key : IssueKey) (kind detail : String) (fileName : Option String) (now : ℤ) : Db :=
  s.upsertIssue (fun r => r.kind != kind || r.detail != detail || r.fileName != fileName) key kind
    detail fileName now

/-- Close the open rows that satisfy a condition. -/
def closeIssues (p : IssueRow → Bool) (now : ℤ) : Db :=
  { s with
    issues := s.issues.mapRows fun _ r =>
      if r.resolvedAt.isNone && p r then { r with resolvedAt := some now } else r }

/-- `sync_issues::resolve`. -/
def resolveIssue (key : IssueKey) (now : ℤ) : Db := s.closeIssues (·.issueKey == key) now

end Db

def failureDetail (path : String) : String :=
  "TuxBooks could not index \"" ++ path ++ "\". The book keeps its record; " ++
    "Retry indexing now, or reconnect the file if it moved."

/-! ## One file -/

/-- What a successful hash binds a file to. The identities that turn out to be the same book are
folded into it. -/
structure Binding where
  uid : String
  losers : List String := []
  deriving DecidableEq

/-- One attempt to hash a file: when it ended, and what it found. -/
structure Attempt where
  now : ℤ
  bound : Option Binding
  deriving DecidableEq

namespace Db

variable (s : Db)

/-- `UPDATE books SET … WHERE id = id`. -/
def setFile (id : ℤ) (f : FileRow → FileRow) : Db :=
  { s with files := s.files.mapRows fun k r => if k = id then f r else r }

def claimForRetry (id : ℤ) : Db :=
  s.setFile id fun r => if r.hashState = .failed then { r with hashState := .pending } else r

def markHashFailed (id now : ℤ) : Db :=
  s.setFile id fun r =>
    { r with
      hashState := .failed
      hashAttempts := r.hashAttempts + 1
      hashRetryAt := some (retryAtAfter now (r.hashAttempts + 1)) }

def resetHashForRetry (id : ℤ) : Db :=
  s.setFile id fun r => { r with hashState := .pending, hashAttempts := 0, hashRetryAt := none }

/-- `ensure_book_identity` with bytes that could be read: the losing identities are folded into the
winning one, and the file is hashed. -/
def bindFile (id : ℤ) (b : Binding) : Db :=
  { s with
    files := s.files.mapRows fun k r =>
      if k = id then
        { r with
          bookUid := some b.uid
          hashState := .hashed
          hashAttempts := 0
          hashRetryAt := none }
      else if r.bookUid.any (b.losers.contains ·) then { r with bookUid := some b.uid }
      else r
    records :=
      let kept := s.records.filterRows fun _ uid => uid == b.uid || !b.losers.contains uid
      if (kept.findKey (· == b.uid)).isSome then kept else kept.insert (s.recordSeq + 1) b.uid
    recordSeq :=
      if (s.records.findKey (· == b.uid)).isSome then s.recordSeq else s.recordSeq + 1 }

def recordHashIssue (bookId : ℤ) (path : String) (now : ℤ) : Db :=
  if s.enabled then
    s.recordIssue (.hashFailed bookId) "hash_failed" (failureDetail path) none now
  else s

/-- Record one failed attempt. -/
def markFailed (id now : ℤ) : Db :=
  match (s.markHashFailed id now).files.lookup id with
  | none => s.markHashFailed id now
  | some r =>
    match (s.markHashFailed id now).durableIdForFile id with
    | none => s.markHashFailed id now
    | some bookId => (s.markHashFailed id now).recordHashIssue bookId r.path now

/-- Close the issue of the book when every location is hashed. -/
def resolveHashIssueIfClear (id now : ℤ) : Db :=
  match s.durableIdForFile id with
  | none => s
  | some bookId =>
    if s.aggregateHashState bookId ≠ some .hashed then s
    else s.resolveIssue (.hashFailed bookId) now

def processBook (id : ℤ) (a : Attempt) : Db :=
  if (s.claimForRetry id).bookAvailable id ≠ some true then s.claimForRetry id
  else
    match a.bound with
    | some b => ((s.claimForRetry id).bindFile id b).resolveHashIssueIfClear id a.now
    | none => (s.claimForRetry id).markFailed id a.now

end Db

/-! ## The commands -/

/-- What the world gives to one batch: when it looks for due files, and what each attempt finds. -/
structure Pass where
  now : ℤ
  attempt : ℤ → Attempt

/-- The attempts of a list of files. -/
def processBooks (s : Db) (attempt : ℤ → Attempt) (ids : List ℤ) : Db :=
  ids.foldl (fun s id => s.processBook id (attempt id)) s

def processBatch (s : Db) (p : Pass) : Db × ℕ :=
  (processBooks s p.attempt (s.pendingBookIds p.now batch), (s.pendingBookIds p.now batch).length)

/-- Run batches until no file is due. The answer is `none` when the given passes do not suffice. -/
def runUntilIdle : List Pass → Db → Option (Db × ℕ)
  | [], _ => none
  | p :: ps, s =>
    if (processBatch s p).2 = 0 then some ((processBatch s p).1, 0)
    else (runUntilIdle ps (processBatch s p).1).map fun r => (r.1, (processBatch s p).2 + r.2)

/-- `IndexingRetry`: the state of the book, or `missing` when no location can be read. -/
inductive IndexingRetry where
  | missing
  | state (hashState : HashState)
  deriving DecidableEq

/-- Retry indexing for one durable book. The answer is `none` for a book without a file. -/
def retryBook (s : Db) (bookId : ℤ) (attempt : ℤ → Attempt) : Db × Option IndexingRetry :=
  if (s.fileIdsForBook bookId).isEmpty then (s, none)
  else
    let available := (s.fileIdsForBook bookId).filter fun id => s.bookAvailable id == some true
    if available.isEmpty then (s, some .missing)
    else
      let s' := available.foldl
        (fun s id => (s.resetHashForRetry id).processBook id (attempt id)) s
      (s', some ((s'.aggregateHashState bookId).elim .missing .state))

/-- Finish the hash pass for the files that a destructive action is about to remove. -/
def waitForBooks (s : Db) (ids : List ℤ) (attempt : ℤ → Attempt) : Db :=
  ids.foldl (fun s id =>
    match s.files.lookup id with
    | none => s
    | some r =>
      if r.hashState ≠ .pending then s
      else if r.available then s.processBook id (attempt id)
      else s.markFailed id (attempt id).now) s

/-- Every failed book has its issue, when sync is on. -/
def ensureFailedIssues (s : Db) (now : ℤ) : Db :=
  if s.enabled then
    s.failedBookPaths.foldl (fun s e =>
      s.ensureIssue (.hashFailed e.1) "hash_failed" (failureDetail e.2) none now) s
  else s

/-- Whether the condition of an open row is gone. `other` decides it for the other kinds. -/
def issueCleared (s : Db) (other : IssueRow → Bool) (row : IssueRow) : Bool :=
  if row.kind = "hash_failed" then
    match row.issueKey with
    | .hashFailed bookId => (s.aggregateHashState bookId).all (· == .hashed)
    | .other _ => false
  else other row

/-- Close open rows whose condition has cleared. -/
def resolveClearedIssues (s : Db) (other : IssueRow → Bool) (now : ℤ) : Db :=
  s.closeIssues (issueCleared s other) now

/-- What a status refresh does to the issues. -/
def refreshStatus (s : Db) (other : IssueRow → Bool) (now : ℤ) : Db :=
  ensureFailedIssues (resolveClearedIssues s other now) now

/-! ## What an attempt does to the files -/

/-- The columns of the pass are as they were. -/
structure FileRow.Same (r r' : FileRow) : Prop where
  path : r'.path = r.path
  available : r'.available = r.available
  hashState : r'.hashState = r.hashState
  hashAttempts : r'.hashAttempts = r.hashAttempts
  hashRetryAt : r'.hashRetryAt = r.hashRetryAt

namespace FileRow.Same

variable {r r' r'' : FileRow}

lemma refl (r : FileRow) : r.Same r := ⟨rfl, rfl, rfl, rfl, rfl⟩

lemma trans (h : r.Same r') (h' : r'.Same r'') : r.Same r'' :=
  ⟨h'.path.trans h.path, h'.available.trans h.available, h'.hashState.trans h.hashState,
    h'.hashAttempts.trans h.hashAttempts, h'.hashRetryAt.trans h.hashRetryAt⟩

lemma due_eq (h : r.Same r') (now : ℤ) : r'.due now = r.due now := by
  rw [FileRow.due, FileRow.due, h.available, h.hashState, h.hashRetryAt]

end FileRow.Same

/-- What an attempt leaves of a row that had failed `attempts` times: hashed with a clean budget, or
failed once more with a clock for the next attempt. -/
structure Attempted (a : Attempt) (attempts : ℕ) (r' : FileRow) : Prop where
  hashed : a.bound.isSome = true →
    r'.hashState = .hashed ∧ r'.hashAttempts = 0 ∧ r'.hashRetryAt = none
  failed : a.bound = none →
    r'.hashState = .failed ∧ r'.hashAttempts = attempts + 1 ∧
      r'.hashRetryAt = some (retryAtAfter a.now (attempts + 1))

lemma Attempted.congr {a : Attempt} {attempts : ℕ} {r r' : FileRow} (h : Attempted a attempts r)
    (hsame : r.Same r') : Attempted a attempts r' := by
  obtain ⟨hhashed, hfailed⟩ := h
  rw [← hsame.hashState, ← hsame.hashAttempts, ← hsame.hashRetryAt] at hhashed hfailed
  exact ⟨hhashed, hfailed⟩

namespace Db

variable {s : Db} {id k now : ℤ}

@[simp] lemma lookup_setFile (f : FileRow → FileRow) :
    (s.setFile id f).files.lookup k =
      (s.files.lookup k).map fun r => if k = id then f r else r := by
  rw [setFile, Table.lookup_mapRows]

@[simp] lemma files_upsertIssue (touches : IssueRow → Bool) (key : IssueKey) (kind detail : String)
    (fileName : Option String) :
    (s.upsertIssue touches key kind detail fileName now).files = s.files := by
  unfold upsertIssue
  split <;> rfl

@[simp] lemma files_recordHashIssue (bookId : ℤ) (path : String) :
    (s.recordHashIssue bookId path now).files = s.files := by
  unfold recordHashIssue
  split
  · exact files_upsertIssue _ _ _ _ _
  · rfl

@[simp] lemma files_resolveHashIssueIfClear :
    (s.resolveHashIssueIfClear id now).files = s.files := by
  unfold resolveHashIssueIfClear
  split
  · rfl
  · split <;> rfl

lemma files_markFailed : (s.markFailed id now).files = (s.markHashFailed id now).files := by
  unfold markFailed
  split
  · rfl
  · split
    · rfl
    · exact files_recordHashIssue _ _

/-- The claim of a row shows it as pending and keeps the rest. -/
lemma lookup_claimForRetry : (s.claimForRetry id).files.lookup k = (s.files.lookup k).map fun r =>
    if k = id ∧ r.hashState = .failed then { r with hashState := .pending } else r := by
  rw [claimForRetry, lookup_setFile]
  refine congrArg (fun f => Option.map f (s.files.lookup k)) (funext fun r => ?_)
  by_cases hk : k = id <;> simp [hk]

lemma bookAvailable_claimForRetry : (s.claimForRetry id).bookAvailable k = s.bookAvailable k := by
  rw [bookAvailable, bookAvailable, lookup_claimForRetry, Option.map_map]
  refine congrArg (fun f => Option.map f (s.files.lookup k)) (funext fun r => ?_)
  dsimp only [Function.comp]
  split <;> rfl

/-- An attempt at another file leaves the columns of a row alone. -/
lemma lookup_processBook_of_ne (hk : k ≠ id) {r : FileRow} (hr : s.files.lookup k = some r)
    (a : Attempt) : ∃ r', (s.processBook id a).files.lookup k = some r' ∧ r.Same r' := by
  have hclaim : (s.claimForRetry id).files.lookup k = some r := by
    rw [lookup_claimForRetry, hr]
    simp [hk]
  unfold processBook
  split
  · exact ⟨r, hclaim, .refl r⟩
  · cases a.bound with
    | none =>
      rw [files_markFailed, markHashFailed, lookup_setFile, hclaim]
      simp only [Option.map_some, hk, if_false]
      exact ⟨r, rfl, .refl r⟩
    | some b =>
      rw [files_resolveHashIssueIfClear, bindFile, Table.lookup_mapRows, hclaim]
      simp only [Option.map_some, hk, if_false]
      split
      · exact ⟨_, rfl, ⟨rfl, rfl, rfl, rfl, rfl⟩⟩
      · exact ⟨r, rfl, .refl r⟩

/-- An attempt at a file that is there. -/
lemma lookup_processBook_self {r : FileRow} (hr : s.files.lookup id = some r)
    (havailable : r.available = true) (a : Attempt) :
    ∃ r', (s.processBook id a).files.lookup id = some r' ∧ r'.path = r.path ∧
      r'.available = true ∧ Attempted a r.hashAttempts r' := by
  obtain ⟨r₁, hclaim, hpath, havailable₁, hattempts⟩ : ∃ r₁,
      (s.claimForRetry id).files.lookup id = some r₁ ∧ r₁.path = r.path ∧
        r₁.available = true ∧ r₁.hashAttempts = r.hashAttempts := by
    rw [lookup_claimForRetry, hr]
    refine ⟨_, rfl, ?_⟩
    dsimp only
    split_ifs <;> exact ⟨rfl, havailable, rfl⟩
  have hthere : (s.claimForRetry id).bookAvailable id = some true := by
    rw [bookAvailable, hclaim, Option.map_some, havailable₁]
  unfold processBook
  rw [if_neg (not_not.mpr hthere)]
  cases hbound : a.bound with
  | none =>
    dsimp only
    rw [files_markFailed, markHashFailed, lookup_setFile, hclaim]
    refine ⟨_, rfl, ?_⟩
    dsimp only
    rw [if_pos rfl]
    refine ⟨hpath, havailable₁, fun hsome => ?_, fun _ => ⟨rfl, ?_, ?_⟩⟩
    · rw [hbound] at hsome
      cases hsome
    · rw [← hattempts]
    · rw [← hattempts]
  | some b =>
    dsimp only
    rw [files_resolveHashIssueIfClear, bindFile, Table.lookup_mapRows, hclaim]
    refine ⟨_, rfl, ?_⟩
    dsimp only
    rw [if_pos rfl]
    refine ⟨hpath, havailable₁, fun _ => ⟨rfl, rfl, rfl⟩, fun hnone => ?_⟩
    rw [hbound] at hnone
    cases hnone

lemma keys_processBook (a : Attempt) : (s.processBook id a).files.keys = s.files.keys := by
  have hclaim : (s.claimForRetry id).files.keys = s.files.keys := Table.keys_mapRows _ _
  unfold processBook
  split
  · exact hclaim
  · cases a.bound with
    | none =>
      dsimp only
      rw [files_markFailed, markHashFailed, setFile, Table.keys_mapRows, hclaim]
    | some b =>
      dsimp only
      rw [files_resolveHashIssueIfClear, bindFile, Table.keys_mapRows, hclaim]

end Db

/-! ## A library -/

/-- One file that has not been hashed yet. -/
def shelf : Db where
  files := (∅ : Table ℤ FileRow).insert 1
    { bookUid := some "a", path := "/l/a.epub", available := true }
  records := (∅ : Table ℤ String).insert 1 "a"

/-- A batch in which no file can be read. -/
def failing (now : ℤ) : Pass := ⟨now, fun _ => ⟨now, none⟩⟩

/-! ## A batch -/

lemma mem_fileIds {s : Db} {p : FileRow → Bool} {id : ℤ} :
    id ∈ s.fileIds p ↔ ∃ r, s.files.lookup id = some r ∧ p r = true := by
  rw [Db.fileIds, List.mem_insertionSort, List.mem_filter, Option.any_eq_true]
  constructor
  · exact fun h => h.2
  · rintro ⟨r, hr, hp⟩
    exact ⟨AList.lookup_isSome.mp (by rw [hr]; rfl), r, hr, hp⟩

lemma nodup_fileIds (s : Db) (p : FileRow → Bool) : (s.fileIds p).Nodup :=
  (List.perm_insertionSort _ _).nodup_iff.mpr (s.files.nodupKeys.filter _)

lemma mem_pendingBookIds {s : Db} {now id : ℤ} {limit : ℕ} (h : id ∈ s.pendingBookIds now limit) :
    ∃ r, s.files.lookup id = some r ∧ r.due now = true :=
  mem_fileIds.mp (List.mem_of_mem_take h)

lemma nodup_pendingBookIds (s : Db) (now : ℤ) (limit : ℕ) : (s.pendingBookIds now limit).Nodup :=
  (nodup_fileIds s _).sublist (List.take_sublist _ _)

/-- An empty batch means that nothing is due. -/
lemma pendingBookIds_eq_nil {s : Db} {now : ℤ} {limit : ℕ} (hlimit : 0 < limit)
    (h : s.pendingBookIds now limit = []) {id : ℤ} {r : FileRow}
    (hr : s.files.lookup id = some r) : r.due now = false := by
  rw [Db.pendingBookIds, List.take_eq_nil_iff, or_iff_right hlimit.ne'] at h
  refine Bool.eq_false_of_not_eq_true fun hdue => ?_
  have hmem : id ∈ s.fileIds (·.due now) := mem_fileIds.mpr ⟨r, hr, hdue⟩
  rw [h] at hmem
  cases hmem

/-- The attempts of a list of files that are there. -/
lemma processBooks_spec (attempt : ℤ → Attempt) {ids : List ℤ} {s : Db} (hnodup : ids.Nodup)
    (havailable : ∀ id ∈ ids, ∃ r, s.files.lookup id = some r ∧ r.available = true) :
    (processBooks s attempt ids).files.keys = s.files.keys ∧
      ∀ k r, s.files.lookup k = some r →
        ∃ r', (processBooks s attempt ids).files.lookup k = some r' ∧ r'.available = r.available ∧
          (k ∈ ids → Attempted (attempt k) r.hashAttempts r') ∧ (k ∉ ids → r.Same r') := by
  induction ids generalizing s with
  | nil =>
    refine ⟨rfl, fun k r hr => ⟨r, hr, rfl, fun hk => ?_, fun _ => .refl r⟩⟩
    cases hk
  | cons id ids ih =>
    obtain ⟨hfresh, hnodup⟩ := List.nodup_cons.mp hnodup
    obtain ⟨r₀, hr₀, havailable₀⟩ := havailable id List.mem_cons_self
    have hlater : ∀ j ∈ ids, ∃ r, (s.processBook id (attempt id)).files.lookup j = some r ∧
        r.available = true := fun j hj => by
      obtain ⟨r, hr, havailable⟩ := havailable j (List.mem_cons_of_mem _ hj)
      have hne : j ≠ id := fun heq => hfresh (heq ▸ hj)
      obtain ⟨r', hr', hsame⟩ := Db.lookup_processBook_of_ne hne hr (attempt id)
      exact ⟨r', hr', hsame.available.trans havailable⟩
    obtain ⟨hkeys, hrows⟩ := ih hnodup hlater
    refine ⟨hkeys.trans (Db.keys_processBook _), fun k r hr => ?_⟩
    by_cases hk : k = id
    · subst hk
      obtain rfl := Option.some.inj (hr₀.symm.trans hr)
      obtain ⟨r₁, hr₁, -, havailable₁, hattempted⟩ :=
        Db.lookup_processBook_self hr havailable₀ (attempt k)
      obtain ⟨r', hr', havailable', -, hsame⟩ := hrows k r₁ hr₁
      exact ⟨r', hr', by rw [havailable', havailable₁, havailable₀],
        fun _ => hattempted.congr (hsame hfresh), fun hnot => absurd List.mem_cons_self hnot⟩
    · obtain ⟨r₁, hr₁, hsame₁⟩ := Db.lookup_processBook_of_ne hk hr (attempt id)
      obtain ⟨r', hr', havailable', hattempted, hsame⟩ := hrows k r₁ hr₁
      refine ⟨r', hr', havailable'.trans hsame₁.available, fun hmem => ?_, fun hnot => ?_⟩
      · rw [← hsame₁.hashAttempts]
        exact hattempted ((List.mem_cons.mp hmem).resolve_left hk)
      · exact hsame₁.trans (hsame fun hmem => hnot (List.mem_cons_of_mem _ hmem))

/-- A batch tries the files that are due and leaves the others alone. -/
lemma processBatch_spec (s : Db) (p : Pass) :
    (processBatch s p).1.files.keys = s.files.keys ∧
      ∀ k r, s.files.lookup k = some r → ∃ r', (processBatch s p).1.files.lookup k = some r' ∧
        r'.available = r.available ∧
        (k ∈ s.pendingBookIds p.now batch → Attempted (p.attempt k) r.hashAttempts r') ∧
        (k ∉ s.pendingBookIds p.now batch → r.Same r') :=
  processBooks_spec p.attempt (nodup_pendingBookIds s p.now batch) fun id hid => by
    obtain ⟨r, hr, hdue⟩ := mem_pendingBookIds hid
    exact ⟨r, hr, (Bool.and_eq_true_iff.mp hdue).1⟩

/-- A row that a batch leaves was there before it. -/
lemma exists_of_lookup_processBatch {s : Db} {p : Pass} {id : ℤ} {r' : FileRow}
    (hr' : (processBatch s p).1.files.lookup id = some r') :
    ∃ r, s.files.lookup id = some r ∧
      (id ∈ s.pendingBookIds p.now batch → Attempted (p.attempt id) r.hashAttempts r') ∧
      (id ∉ s.pendingBookIds p.now batch → r.Same r') := by
  obtain ⟨hkeys, hrows⟩ := processBatch_spec s p
  have hkey : id ∈ s.files.keys := by
    rw [← hkeys]
    exact AList.lookup_isSome.mp (by rw [hr']; rfl)
  obtain ⟨r, hr⟩ := Option.isSome_iff_exists.mp (AList.lookup_isSome.mpr hkey)
  obtain ⟨r'', hr'', -, hattempted, hsame⟩ := hrows id r hr
  obtain rfl := Option.some.inj (hr'.symm.trans hr'')
  exact ⟨r, hr, hattempted, hsame⟩

lemma retryDelaySecs_ge (attempts : ℤ) : 60 ≤ retryDelaySecs attempts := by
  rw [retryDelaySecs, List.getD_eq_getElem?_getD]
  cases hdelay : retryDelays[(max attempts 1).toNat - 1]? with
  | none => simp
  | some delay =>
    have hmem := List.mem_of_getElem? hdelay
    simp only [retryDelays, List.mem_cons, List.not_mem_nil, or_false] at hmem
    rw [Option.getD_some]
    omega

/-- For a minute a file is not due again. -/
lemma Attempted.due_eq_false {a : Attempt} {attempts : ℕ} {r : FileRow} (h : Attempted a attempts r)
    {now : ℤ} (hnow : now < a.now + 60000) : r.due now = false := by
  unfold FileRow.due
  cases hbound : a.bound with
  | none =>
    obtain ⟨hstate, -, hretry⟩ := h.failed hbound
    have hdelay := retryDelaySecs_ge (attempts + 1)
    have hlater : ¬retryAtAfter a.now (attempts + 1) ≤ now := by
      unfold retryAtAfter
      omega
    simp [hstate, hretry, hlater]
  | some b =>
    obtain ⟨hstate, -⟩ := h.hashed (by rw [hbound]; rfl)
    simp [hstate]

/-! ## A pass over the library -/

/-- No batch looks for due files a minute or more after an attempt of the same pass ended. -/
def Quick (passes : List Pass) : Prop :=
  ∀ p ∈ passes, ∀ q ∈ passes, ∀ id, q.now < (p.attempt id).now + 60000

/-- The files that some batch could take up. -/
def reach (s : Db) (passes : List Pass) : List ℤ :=
  s.files.keys.filter fun id => passes.any fun p => (s.files.lookup id).any (·.due p.now)

lemma mem_reach {s : Db} {passes : List Pass} {id : ℤ} :
    id ∈ reach s passes ↔ ∃ r, s.files.lookup id = some r ∧ ∃ p ∈ passes, r.due p.now = true := by
  rw [reach, List.mem_filter, List.any_eq_true]
  constructor
  · rintro ⟨-, p, hp, hdue⟩
    obtain ⟨r, hr, hdue⟩ := (Option.any_eq_true _ _).mp hdue
    exact ⟨r, hr, p, hp, hdue⟩
  · rintro ⟨r, hr, p, hp, hdue⟩
    exact ⟨AList.lookup_isSome.mp (by rw [hr]; rfl), p, hp,
      (Option.any_eq_true _ _).mpr ⟨r, hr, hdue⟩⟩

/-- After a batch its files are out of reach. -/
lemma length_reach_processBatch {s : Db} {p : Pass} {ps : List Pass} (hquick : Quick (p :: ps)) :
    (s.pendingBookIds p.now batch).length + (reach (processBatch s p).1 ps).length ≤
        (reach s (p :: ps)).length ∧
      ∀ id ∈ s.pendingBookIds p.now batch, id ∉ reach (processBatch s p).1 ps := by
  have hdisjoint : ∀ id ∈ s.pendingBookIds p.now batch, id ∉ reach (processBatch s p).1 ps := by
    intro id hid hmem
    obtain ⟨r', hr', q, hq, hdue⟩ := mem_reach.mp hmem
    obtain ⟨r, -, hattempted, -⟩ := exists_of_lookup_processBatch hr'
    rw [(hattempted hid).due_eq_false
      (hquick p List.mem_cons_self q (List.mem_cons_of_mem _ hq) id)] at hdue
    cases hdue
  refine ⟨?_, hdisjoint⟩
  rw [← List.length_append]
  refine List.Nodup.length_le_of_subset ?_ fun id hid => ?_
  · exact List.nodup_append.mpr ⟨nodup_pendingBookIds _ _ _, (AList.nodupKeys _).filter _, by
      rintro id hid _ hreach rfl
      exact hdisjoint id hid hreach⟩
  · rw [mem_reach]
    obtain hid | hid := List.mem_append.mp hid
    · obtain ⟨r, hr, hdue⟩ := mem_pendingBookIds hid
      exact ⟨r, hr, p, List.mem_cons_self, hdue⟩
    · obtain ⟨r', hr', q, hq, hdue⟩ := mem_reach.mp hid
      obtain ⟨r, hr, -, hsame⟩ := exists_of_lookup_processBatch hr'
      by_cases hid' : id ∈ s.pendingBookIds p.now batch
      · exact absurd (mem_reach.mpr ⟨r', hr', q, hq, hdue⟩) (hdisjoint id hid')
      · rw [(hsame hid').due_eq] at hdue
        exact ⟨r, hr, q, List.mem_cons_of_mem _ hq, hdue⟩

/-- What a pass did: it ended when nothing was due, it tried the files of `tried` once each, and it
left the others alone. -/
structure Finished (passes : List Pass) (s s' : Db) (tried : List ℤ) : Prop where
  nodup : tried.Nodup
  idle : ∃ p ∈ passes, ∀ id r, s'.files.lookup id = some r → r.due p.now = false
  tried_once : ∀ id ∈ tried, ∃ r r', s.files.lookup id = some r ∧ s'.files.lookup id = some r' ∧
    ∃ p ∈ passes, r.due p.now = true ∧ Attempted (p.attempt id) r.hashAttempts r'
  others : ∀ id, id ∉ tried → ∀ r, s.files.lookup id = some r →
    ∃ r', s'.files.lookup id = some r' ∧ r.Same r'

/-- A batch that found something, before the rest of the pass. -/
lemma Finished.cons {p : Pass} {ps : List Pass} {s s' : Db} {tried : List ℤ}
    (h : Finished ps (processBatch s p).1 s' tried)
    (hapart : ∀ id ∈ s.pendingBookIds p.now batch, id ∉ tried) :
    Finished (p :: ps) s s' (s.pendingBookIds p.now batch ++ tried) where
  nodup := List.nodup_append.mpr ⟨nodup_pendingBookIds _ _ _, h.nodup, by
    rintro id hid _ htried rfl
    exact hapart id hid htried⟩
  idle := by
    obtain ⟨q, hq, hidle⟩ := h.idle
    exact ⟨q, List.mem_cons_of_mem _ hq, hidle⟩
  tried_once id hid := by
    obtain hid | hid := List.mem_append.mp hid
    · obtain ⟨r, hr, hdue⟩ := mem_pendingBookIds hid
      obtain ⟨r₁, hr₁, -, hattempted, -⟩ := (processBatch_spec s p).2 id r hr
      obtain ⟨r', hr', hsame⟩ := h.others id (hapart id hid) r₁ hr₁
      exact ⟨r, r', hr, hr', p, List.mem_cons_self, hdue, (hattempted hid).congr hsame⟩
    · obtain ⟨r₁, r', hr₁, hr', q, hq, hdue, hattempted⟩ := h.tried_once id hid
      obtain ⟨r, hr, -, hsame⟩ := exists_of_lookup_processBatch hr₁
      have hkept := hsame fun hmem => hapart id hmem hid
      refine ⟨r, r', hr, hr', q, List.mem_cons_of_mem _ hq, ?_, ?_⟩
      · rw [← hkept.due_eq, hdue]
      · rw [← hkept.hashAttempts]
        exact hattempted
  others id hid r hr := by
    rw [List.mem_append, not_or] at hid
    obtain ⟨r₁, hr₁, -, -, hsame⟩ := (processBatch_spec s p).2 id r hr
    obtain ⟨r', hr', hsame'⟩ := h.others id hid.2 r₁ hr₁
    exact ⟨r', hr', (hsame hid.1).trans hsame'⟩

lemma runUntilIdle_reach {passes : List Pass} {s : Db} (hquick : Quick passes)
    (hfuel : (reach s passes).length < passes.length) :
    ∃ s' tried, runUntilIdle passes s = some (s', tried.length) ∧ Finished passes s s' tried ∧
      ∀ id ∈ tried, id ∈ reach s passes := by
  induction passes generalizing s with
  | nil => simp at hfuel
  | cons p ps ih =>
    obtain ⟨hlength, hapart⟩ := length_reach_processBatch (s := s) hquick
    rw [runUntilIdle]
    split_ifs with hzero
    · have hnil : s.pendingBookIds p.now batch = [] := List.length_eq_zero_iff.mp hzero
      have hsame : (processBatch s p).1 = s := by
        rw [processBatch, hnil]
        rfl
      rw [hsame]
      refine ⟨s, [], rfl, ⟨List.nodup_nil, ⟨p, List.mem_cons_self, fun id r hr => ?_⟩,
        by simp, fun id _ r hr => ⟨r, hr, .refl r⟩⟩, by simp⟩
      exact pendingBookIds_eq_nil (by decide) hnil hr
    · have hquick' : Quick ps := fun q hq q' hq' =>
        hquick q (List.mem_cons_of_mem _ hq) q' (List.mem_cons_of_mem _ hq')
      have hbatch : 0 < (s.pendingBookIds p.now batch).length := Nat.pos_of_ne_zero hzero
      rw [List.length_cons] at hfuel
      obtain ⟨s', tried, hrun, hfinished, hreach⟩ := ih (s := (processBatch s p).1) hquick'
        (by omega)
      refine ⟨s', s.pendingBookIds p.now batch ++ tried, ?_,
        hfinished.cons fun id hid htried => hapart id hid (hreach id htried), fun id hid => ?_⟩
      · rw [hrun, Option.map_some, List.length_append]
        rfl
      · obtain ⟨r, r', hr, -, q, hq, hdue, -⟩ :=
          (hfinished.cons fun id hid htried => hapart id hid (hreach id htried)).tried_once id hid
        exact mem_reach.mpr ⟨r, hr, q, hq, hdue⟩

/-- **A pass ends, and tries every due file once.** When no batch of the pass starts a minute or
more after an attempt of the same pass, the loop ends with nothing due, and counts the files that it
tried. A file that could be read is hashed then, and any other has failed once more and waits for
its clock. -/
theorem runUntilIdle_spec {passes : List Pass} {s : Db} (hquick : Quick passes)
    (hfuel : s.files.keys.length < passes.length) :
    ∃ s' tried, runUntilIdle passes s = some (s', tried.length) ∧ Finished passes s s' tried := by
  have hreach : (reach s passes).length < passes.length :=
    (List.length_filter_le _ _).trans_lt hfuel
  obtain ⟨s', tried, hrun, hfinished, -⟩ := runUntilIdle_reach hquick hreach
  exact ⟨s', tried, hrun, hfinished⟩

theorem runUntilIdle_spec_shelf : ∃ s' tried,
    runUntilIdle [failing 0, failing 0] shelf = some (s', tried.length) ∧
      Finished [failing 0, failing 0] shelf s' tried := by
  refine runUntilIdle_spec (fun p hp q hq id => ?_) (by decide)
  have hpass : ∀ p ∈ [failing 0, failing 0], p = failing 0 := by simp
  rw [hpass p hp, hpass q hq]
  show (0 : ℤ) < 0 + 60000
  decide

/-! ## The backoff -/

/-- How long `n` failures put off the next attempt, in milliseconds. -/
def backoff : ℕ → ℤ
  | 0 => 0
  | n + 1 => backoff n + 1000 * retryDelaySecs (n + 1)

example : backoff 5 = 26460000 ∧ backoff 6 = 112860000 := by decide

/-- The background loop: batch after batch. -/
def runPasses (s : Db) (passes : List Pass) : Db :=
  passes.foldl (fun s p => (processBatch s p).1) s

/-- The batches run between two times, and no attempt ends before its batch began. -/
def Within (start finish : ℤ) (passes : List Pass) : Prop :=
  ∀ p ∈ passes, start ≤ p.now ∧ p.now ≤ finish ∧ ∀ id, p.now ≤ (p.attempt id).now

/-- The clock of a row that the loop has taken up since `start`. -/
structure Paced (start finish : ℤ) (r : FileRow) : Prop where
  pending : r.hashState = .pending → r.hashAttempts = 0
  clock : r.hashState = .failed → ∃ at_, r.hashRetryAt = some at_ ∧
    start + backoff r.hashAttempts ≤ at_
  spent : ∀ n, r.hashAttempts = n + 1 → start + backoff n ≤ finish

lemma Paced.congr {start finish : ℤ} {r r' : FileRow} (h : Paced start finish r)
    (hsame : r.Same r') : Paced start finish r' := by
  obtain ⟨hpending, hclock, hspent⟩ := h
  rw [← hsame.hashState, ← hsame.hashAttempts] at hpending
  rw [← hsame.hashState, ← hsame.hashAttempts, ← hsame.hashRetryAt] at hclock
  rw [← hsame.hashAttempts] at hspent
  exact ⟨hpending, hclock, hspent⟩

/-- An attempt by the loop: the row was due, so its clock had run out. -/
lemma Paced.attempted {start finish now : ℤ} {r r' : FileRow} {a : Attempt}
    (h : Paced start finish r) (hdue : r.due now = true) (hstart : start ≤ now)
    (hfinish : now ≤ finish) (hnow : now ≤ a.now) (hattempted : Attempted a r.hashAttempts r') :
    Paced start finish r' := by
  have hspent : start + backoff r.hashAttempts ≤ now := by
    rw [FileRow.due, Bool.and_eq_true, Bool.or_eq_true, Bool.and_eq_true, beq_iff_eq,
      beq_iff_eq] at hdue
    obtain ⟨-, hpending | ⟨hfailed, hclock⟩⟩ := hdue
    · rw [h.pending hpending, backoff]
      omega
    · obtain ⟨at_, hat, hle⟩ := h.clock hfailed
      rw [hat, Option.all_some, decide_eq_true_eq] at hclock
      omega
  cases hbound : a.bound with
  | none =>
    obtain ⟨hstate, hattempts, hretry⟩ := hattempted.failed hbound
    refine ⟨fun hpending => ?_, fun _ => ⟨_, hretry, ?_⟩, fun n hn => ?_⟩
    · rw [hstate] at hpending
      cases hpending
    · rw [hattempts, backoff, retryAtAfter]
      omega
    · obtain rfl : r.hashAttempts = n := by omega
      omega
  | some b =>
    obtain ⟨hstate, hattempts, -⟩ := hattempted.hashed (by rw [hbound]; rfl)
    refine ⟨fun _ => hattempts, fun hfailed => ?_, fun n hn => by omega⟩
    rw [hstate] at hfailed
    cases hfailed

lemma paced_runPasses {start finish : ℤ} {passes : List Pass} (hwithin : Within start finish passes)
    {s : Db} {id : ℤ} {r : FileRow} (hr : s.files.lookup id = some r) (h : Paced start finish r) :
    ∃ r', (runPasses s passes).files.lookup id = some r' ∧ Paced start finish r' := by
  induction passes generalizing s r with
  | nil => exact ⟨r, hr, h⟩
  | cons p ps ih =>
    obtain ⟨hstart, hfinish, hnow⟩ := hwithin p List.mem_cons_self
    obtain ⟨r₁, hr₁, -, hattempted, hsame⟩ := (processBatch_spec s p).2 id r hr
    refine ih (fun q hq => hwithin q (List.mem_cons_of_mem _ hq)) hr₁ ?_
    by_cases hid : id ∈ s.pendingBookIds p.now batch
    · obtain ⟨r₂, hr₂, hdue⟩ := mem_pendingBookIds hid
      obtain rfl := Option.some.inj (hr.symm.trans hr₂)
      exact h.attempted hdue hstart hfinish (hnow id) (hattempted hid)
    · exact h.congr (hsame hid)

/-- **How often an unreadable file is tried.** A file that has failed `n + 1` times since the loop
first could take it up has waited for the delays of `n` failures: six attempts in the first day, and
then one a day. -/
theorem backoff_le {start finish : ℤ} {passes : List Pass} (hwithin : Within start finish passes)
    {s : Db} {id : ℤ} {r r' : FileRow} (hr : s.files.lookup id = some r)
    (hpending : r.hashState = .pending) (hattempts : r.hashAttempts = 0)
    (hr' : (runPasses s passes).files.lookup id = some r') {n : ℕ}
    (hn : r'.hashAttempts = n + 1) : start + backoff n ≤ finish := by
  have hfirst : Paced start finish r := by
    refine ⟨fun _ => hattempts, fun hfailed => ?_, fun m hm => by omega⟩
    rw [hpending] at hfailed
    cases hfailed
  obtain ⟨r₁, hr₁, hpaced⟩ := paced_runPasses hwithin hr hfirst
  obtain rfl := Option.some.inj (hr'.symm.trans hr₁)
  exact hpaced.spent n hn

theorem backoff_le_shelf : (0 : ℤ) + backoff 1 ≤ 60000 := by
  have hwithin : Within 0 60000 [failing 0, failing 60000] := by
    intro p hp
    obtain rfl | rfl : p = failing 0 ∨ p = failing 60000 := by simpa using hp
    · exact ⟨by decide, by decide, fun _ => le_rfl⟩
    · exact ⟨by decide, by decide, fun _ => le_rfl⟩
  have hrow : shelf.files.lookup 1 = some
      { bookUid := some "a", path := "/l/a.epub", available := true } := rfl
  have hrow' : (runPasses shelf [failing 0, failing 60000]).files.lookup 1 = some
      { bookUid := some "a", path := "/l/a.epub", available := true, hashState := .failed,
        hashAttempts := 1 + 1, hashRetryAt := some 360000 } := by decide
  exact backoff_le hwithin hrow rfl rfl hrow' rfl

/-! ## The issues -/

/-- There is an open row for a key. -/
def IsOpen (s : Db) (key : IssueKey) : Prop :=
  ∃ i r, s.issues.lookup i = some r ∧ r.issueKey = key ∧ r.resolvedAt = none

/-- The issues are in order: a key has at most one open row, the kind goes with the key, and the
next id is free. -/
structure Tidy (s : Db) : Prop where
  opened : ∀ i j r r', s.issues.lookup i = some r → s.issues.lookup j = some r' →
    r.issueKey = r'.issueKey → r.resolvedAt = none → r'.resolvedAt = none → i = j
  kinds : ∀ i r, s.issues.lookup i = some r →
    (r.kind = "hash_failed" ↔ ∃ bookId, r.issueKey = .hashFailed bookId)
  numbered : ∀ i r, s.issues.lookup i = some r → i ≤ s.issueSeq

lemma openIssue_eq_none {s : Db} {key : IssueKey} : s.openIssue key = none ↔ ¬IsOpen s key := by
  rw [Db.openIssue, Table.findKey_eq_none]
  constructor
  · rintro h ⟨i, r, hr, rfl, hopen⟩
    have hno := h i r hr
    simp [hopen] at hno
  · intro h i r hr
    refine Bool.eq_false_of_not_eq_true fun hboth => h ⟨i, r, hr, ?_⟩
    rwa [Bool.and_eq_true, beq_iff_eq, Option.isNone_iff_eq_none] at hboth

lemma exists_of_openIssue {s : Db} {key : IssueKey} {i : ℕ} (h : s.openIssue key = some i) :
    ∃ r, s.issues.lookup i = some r ∧ r.issueKey = key ∧ r.resolvedAt = none := by
  obtain ⟨r, hr, hboth⟩ := Table.exists_of_findKey h
  rw [Bool.and_eq_true, beq_iff_eq, Option.isNone_iff_eq_none] at hboth
  exact ⟨r, hr, hboth⟩

namespace Tidy

variable {s s' : Db}

lemma congr (h : Tidy s) (hissues : s'.issues = s.issues) (hseq : s'.issueSeq = s.issueSeq) :
    Tidy s' := by
  obtain ⟨hopened, hkinds, hnumbered⟩ := h
  rw [← hissues] at hopened hkinds hnumbered
  rw [← hseq] at hnumbered
  exact ⟨hopened, hkinds, hnumbered⟩

lemma of_empty (h : s.issues = ∅) : Tidy s := by
  refine ⟨fun i j r r' hi => ?_, fun i r hi => ?_, fun i r hi => ?_⟩ <;> simp [h] at hi

/-- Rewrite the issues in place, without opening one. -/
lemma mapRows (h : Tidy s) {f : ℕ → IssueRow → IssueRow}
    (hkey : ∀ i r, s.issues.lookup i = some r → (f i r).issueKey = r.issueKey)
    (hkind : ∀ i r, s.issues.lookup i = some r →
      ((f i r).kind = "hash_failed" ↔ ∃ bookId, r.issueKey = .hashFailed bookId))
    (hopen : ∀ i r, s.issues.lookup i = some r → (f i r).resolvedAt = none →
      r.resolvedAt = none) :
    Tidy { s with issues := s.issues.mapRows f } where
  opened i j r r' hi hj heq hr hr' := by
    rw [Table.lookup_mapRows] at hi hj
    obtain ⟨r₁, hr₁, rfl⟩ := Option.map_eq_some_iff.mp hi
    obtain ⟨r₂, hr₂, rfl⟩ := Option.map_eq_some_iff.mp hj
    rw [hkey i r₁ hr₁, hkey j r₂ hr₂] at heq
    exact h.opened i j r₁ r₂ hr₁ hr₂ heq (hopen i r₁ hr₁ hr) (hopen j r₂ hr₂ hr')
  kinds i r hi := by
    rw [Table.lookup_mapRows] at hi
    obtain ⟨r₁, hr₁, rfl⟩ := Option.map_eq_some_iff.mp hi
    rw [hkey i r₁ hr₁]
    exact hkind i r₁ hr₁
  numbered i r hi := by
    rw [Table.lookup_mapRows] at hi
    obtain ⟨r₁, hr₁, -⟩ := Option.map_eq_some_iff.mp hi
    exact h.numbered i r₁ hr₁

lemma closeIssues (h : Tidy s) (p : IssueRow → Bool) (now : ℤ) : Tidy (s.closeIssues p now) := by
  refine h.mapRows (fun i r _ => ?_) (fun i r hr => ?_) fun i r _ hopen => ?_
  · split_ifs <;> rfl
  · split_ifs <;> exact h.kinds i r hr
  · split_ifs at hopen with hboth
    exact hopen

lemma upsertIssue (h : Tidy s) (touches : IssueRow → Bool) {key : IssueKey} {kind : String}
    (hkind : kind = "hash_failed" ↔ ∃ bookId, key = .hashFailed bookId) (detail : String)
    (fileName : Option String) (now : ℤ) :
    Tidy (s.upsertIssue touches key kind detail fileName now) := by
  unfold Db.upsertIssue
  cases hid : s.openIssue key with
  | some id =>
    obtain ⟨r₀, hr₀, rfl, -⟩ := exists_of_openIssue hid
    refine h.mapRows (fun i r _ => ?_) (fun i r hr => ?_) fun i r _ hopen => ?_
    · split_ifs <;> rfl
    · by_cases hi : i = id
      · obtain rfl := Option.some.inj (hr₀.symm.trans (hi ▸ hr))
        rw [if_pos hi]
        exact hkind
      · rw [if_neg hi]
        exact h.kinds i r hr
    · split_ifs at hopen <;> exact hopen
  | none =>
    have hnone := openIssue_eq_none.mp hid
    refine ⟨fun i j r r' hi hj heq hr hr' => ?_, fun i r hi => ?_, fun i r hi => ?_⟩
    · rw [Table.lookup_insert'] at hi hj
      split_ifs at hi hj with hi' hj' hj'
      · rw [hi', hj']
      · obtain rfl := Option.some.inj hi
        exact absurd ⟨j, r', hj, heq.symm, hr'⟩ hnone
      · obtain rfl := Option.some.inj hj
        exact absurd ⟨i, r, hi, heq, hr⟩ hnone
      · exact h.opened i j r r' hi hj heq hr hr'
    · rw [Table.lookup_insert'] at hi
      split_ifs at hi
      · obtain rfl := Option.some.inj hi
        exact hkind
      · exact h.kinds i r hi
    · rw [Table.lookup_insert'] at hi
      split_ifs at hi with hi'
      · exact hi'.le
      · exact (h.numbered i r hi).trans (Nat.le_succ _)

end Tidy

/-! ## What is open after a write -/

section Opened

variable {s s' : Db} {key key' : IssueKey}

lemma isOpen_upsertIssue (h : Tidy s) (touches : IssueRow → Bool) (kind detail : String)
    (fileName : Option String) (now : ℤ) :
    IsOpen (s.upsertIssue touches key kind detail fileName now) key' ↔
      key' = key ∨ IsOpen s key' := by
  unfold Db.upsertIssue
  cases hid : s.openIssue key with
  | some id =>
    obtain ⟨r₀, hr₀, rfl, hopen₀⟩ := exists_of_openIssue hid
    constructor
    · rintro ⟨i, r, hr, rfl, hopen⟩
      simp only [Table.lookup_mapRows] at hr
      obtain ⟨r₁, hr₁, rfl⟩ := Option.map_eq_some_iff.mp hr
      refine .inr ⟨i, r₁, hr₁, ?_, ?_⟩
      · by_cases hi : i = id <;> simp [hi]
      · by_cases hi : i = id <;> simpa [hi] using hopen
    · intro hwhen
      obtain ⟨i, r, hr, rfl, hopen⟩ : IsOpen s key' := by
        obtain rfl | hopen := hwhen
        · exact ⟨id, r₀, hr₀, rfl, hopen₀⟩
        · exact hopen
      refine ⟨i, _, by rw [Table.lookup_mapRows, hr, Option.map_some], ?_, ?_⟩
      · by_cases hi : i = id <;> simp [hi]
      · by_cases hi : i = id <;> simpa [hi] using hopen
  | none =>
    have hfresh : ∀ i r, s.issues.lookup i = some r → i ≠ s.issueSeq + 1 := fun i r hr heq => by
      have hle := h.numbered i r hr
      omega
    constructor
    · rintro ⟨i, r, hr, rfl, hopen⟩
      rw [Table.lookup_insert'] at hr
      split_ifs at hr
      · obtain rfl := Option.some.inj hr
        exact .inl rfl
      · exact .inr ⟨i, r, hr, rfl, hopen⟩
    · rintro (rfl | ⟨i, r, hr, rfl, hopen⟩)
      · exact ⟨s.issueSeq + 1, _, AList.lookup_insert _, rfl, rfl⟩
      · exact ⟨i, r, by rw [Table.lookup_insert', if_neg (hfresh i r hr), hr], rfl, hopen⟩

lemma isOpen_closeIssues {p : IssueRow → Bool} {now : ℤ} : IsOpen (s.closeIssues p now) key ↔
    ∃ i r, s.issues.lookup i = some r ∧ r.issueKey = key ∧ r.resolvedAt = none ∧ p r = false := by
  unfold Db.closeIssues
  constructor
  · rintro ⟨i, r, hr, rfl, hopen⟩
    rw [Table.lookup_mapRows] at hr
    obtain ⟨r₁, hr₁, rfl⟩ := Option.map_eq_some_iff.mp hr
    split_ifs at hopen ⊢ with hboth
    refine ⟨i, r₁, hr₁, rfl, hopen, ?_⟩
    simpa [hopen] using hboth
  · rintro ⟨i, r, hr, rfl, hopen, hp⟩
    refine ⟨i, r, ?_, rfl, hopen⟩
    rw [Table.lookup_mapRows, hr, Option.map_some, if_neg (by simp [hp])]

lemma aggregateHashState_congr (hfiles : s'.files = s.files) (hrecords : s'.records = s.records)
    (bookId : ℤ) : s'.aggregateHashState bookId = s.aggregateHashState bookId := by
  unfold Db.aggregateHashState Db.hashStatesOf Db.fileIdsForBook Db.fileIds
  rw [hfiles, hrecords]

/-- A book with a failed location reads as failed. -/
lemma aggregateHashState_eq_failed {bookId : ℤ} :
    s.aggregateHashState bookId = some .failed ↔
      ∃ id ∈ s.fileIdsForBook bookId, ∃ r, s.files.lookup id = some r ∧ r.hashState = .failed := by
  have hmem : HashState.failed ∈ s.hashStatesOf bookId ↔
      ∃ id ∈ s.fileIdsForBook bookId, ∃ r, s.files.lookup id = some r ∧ r.hashState = .failed := by
    simp only [Db.hashStatesOf, List.mem_filterMap, Option.map_eq_some_iff]
  rw [← hmem, Db.aggregateHashState]
  split_ifs with hempty hfailed
  · rw [List.isEmpty_iff.mp hempty]
    simp
  · simp [hfailed]
  · simp [hfailed]
  · simp [hfailed]

/-- The books that the sweep finds are those that read as failed. -/
lemma mem_failedBookPaths {bookId : ℤ} :
    bookId ∈ s.failedBookPaths.map (·.1) ↔ s.aggregateHashState bookId = some .failed := by
  have hpath : (s.failedPath bookId).isSome ↔
      ∃ id ∈ s.fileIdsForBook bookId, ∃ r, s.files.lookup id = some r ∧ r.hashState = .failed := by
    rw [Option.isSome_iff_ne_none, Db.failedPath, ne_eq, List.argmin_eq_none,
      List.filterMap_eq_nil_iff]
    push Not
    refine exists_congr fun id => and_congr_right fun _ => ?_
    cases s.files.lookup id <;> simp [Option.filter]
  rw [aggregateHashState_eq_failed, ← hpath]
  constructor
  · intro hmem
    obtain ⟨⟨b, path⟩, he, rfl⟩ := List.mem_map.mp hmem
    obtain ⟨b', -, hfound⟩ := List.mem_filterMap.mp he
    obtain ⟨path', hpath', heq⟩ := Option.map_eq_some_iff.mp hfound
    obtain ⟨rfl, rfl⟩ := Prod.mk.inj heq
    rw [hpath']
    rfl
  · intro hsome
    obtain ⟨path, hpath'⟩ := Option.isSome_iff_exists.mp hsome
    obtain ⟨id, hid, -⟩ := hpath.mp hsome
    have hkey : bookId ∈ s.records.keys := by
      rw [← AList.mem_keys, ← AList.lookup_isSome]
      unfold Db.fileIdsForBook at hid
      cases hrecord : s.records.lookup bookId with
      | none => simp [hrecord] at hid
      | some uid => rfl
    refine List.mem_map.mpr ⟨(bookId, path), List.mem_filterMap.mpr ⟨bookId, ?_, ?_⟩, rfl⟩
    · exact (List.mem_insertionSort _).mpr hkey
    · rw [hpath', Option.map_some]

end Opened

/-! ## The refresh -/

lemma isOpen_resolveClearedIssues {s : Db} (h : Tidy s) (other : IssueRow → Bool) (now : ℤ)
    {bookId : ℤ} :
    IsOpen (resolveClearedIssues s other now) (.hashFailed bookId) ↔
      IsOpen s (.hashFailed bookId) ∧
        (s.aggregateHashState bookId = some .failed ∨
          s.aggregateHashState bookId = some .pending) := by
  have hcleared : ∀ i r, s.issues.lookup i = some r → r.issueKey = .hashFailed bookId →
      (issueCleared s other r = false ↔ s.aggregateHashState bookId = some .failed ∨
        s.aggregateHashState bookId = some .pending) := fun i r hr hkey => by
    rw [issueCleared, if_pos ((h.kinds i r hr).mpr ⟨bookId, hkey⟩), hkey]
    cases hstate : s.aggregateHashState bookId with
    | none => simp [hstate]
    | some state => cases state <;> simp [hstate]
  rw [resolveClearedIssues, isOpen_closeIssues]
  constructor
  · rintro ⟨i, r, hr, hkey, hopen, hno⟩
    exact ⟨⟨i, r, hr, hkey, hopen⟩, (hcleared i r hr hkey).mp hno⟩
  · rintro ⟨⟨i, r, hr, hkey, hopen⟩, hstate⟩
    exact ⟨i, r, hr, hkey, hopen, (hcleared i r hr hkey).mpr hstate⟩

/-- The issues of a list of failed books. -/
lemma foldl_ensureIssue (l : List (ℤ × String)) (now : ℤ) {s : Db} (h : Tidy s) :
    let s' := l.foldl (fun s e =>
      s.ensureIssue (.hashFailed e.1) "hash_failed" (failureDetail e.2) none now) s
    Tidy s' ∧ ∀ bookId, IsOpen s' (.hashFailed bookId) ↔
      bookId ∈ l.map (·.1) ∨ IsOpen s (.hashFailed bookId) := by
  induction l generalizing s with
  | nil => exact ⟨h, fun bookId => by simp⟩
  | cons e l ih =>
    have hkind : "hash_failed" = "hash_failed" ↔ ∃ bookId,
        IssueKey.hashFailed e.1 = .hashFailed bookId := iff_of_true rfl ⟨e.1, rfl⟩
    obtain ⟨htidy, hopen⟩ := ih (s := s.ensureIssue (.hashFailed e.1) "hash_failed"
      (failureDetail e.2) none now) (h.upsertIssue _ hkind _ _ _)
    refine ⟨htidy, fun bookId => ?_⟩
    rw [List.foldl_cons, hopen, Db.ensureIssue, isOpen_upsertIssue h, List.map_cons,
      List.mem_cons, IssueKey.hashFailed.injEq]
    tauto

/-- What a refresh leaves open. -/
lemma refreshStatus_spec {s : Db} (h : Tidy s) (other : IssueRow → Bool) (now : ℤ) :
    Tidy (refreshStatus s other now) ∧ ∀ bookId,
      (IsOpen (refreshStatus s other now) (.hashFailed bookId) ↔
        s.enabled = true ∧ s.aggregateHashState bookId = some .failed ∨
          IsOpen s (.hashFailed bookId) ∧ (s.aggregateHashState bookId = some .failed ∨
            s.aggregateHashState bookId = some .pending)) := by
  have htidy : Tidy (resolveClearedIssues s other now) := h.closeIssues _ _
  have hfailed : ∀ bookId, bookId ∈ (resolveClearedIssues s other now).failedBookPaths.map (·.1) ↔
      s.aggregateHashState bookId = some .failed := fun bookId => by
    have hsame : (resolveClearedIssues s other now).aggregateHashState bookId =
        s.aggregateHashState bookId := aggregateHashState_congr rfl rfl bookId
    rw [mem_failedBookPaths, hsame]
  unfold refreshStatus ensureFailedIssues
  split_ifs with henabled
  · obtain ⟨htidy', hopen⟩ := foldl_ensureIssue
      (resolveClearedIssues s other now).failedBookPaths now htidy
    refine ⟨htidy', fun bookId => ?_⟩
    rw [hopen, hfailed, isOpen_resolveClearedIssues h, and_iff_right (show s.enabled = true from
      henabled)]
  · refine ⟨htidy, fun bookId => ?_⟩
    rw [isOpen_resolveClearedIssues h]
    exact (or_iff_right fun hboth => henabled hboth.1).symm

/-! ## Every run -/

/-- One thing that happens to the tables: a command of this module, an issue of another kind, or
anything else that the application does to its files, its books and its settings. -/
inductive Stmt where
  | batch (p : Pass)
  | retry (bookId : ℤ) (attempt : ℤ → Attempt)
  | wait (ids : List ℤ) (attempt : ℤ → Attempt)
  | markFailed (id now : ℤ)
  | refresh (other : IssueRow → Bool) (now : ℤ)
  | report (key kind detail : String) (fileName : Option String) (now : ℤ)
  | resolve (key : String) (now : ℤ)
  | library (files : Table ℤ FileRow) (records : Table ℤ String) (recordSeq : ℤ) (enabled : Bool)

/-- Run one of them. The kind of a reported issue is never that of a failed hash. -/
def exec (s : Db) : Stmt → Db
  | .batch p => (processBatch s p).1
  | .retry bookId attempt => (retryBook s bookId attempt).1
  | .wait ids attempt => waitForBooks s ids attempt
  | .markFailed id now => s.markFailed id now
  | .refresh other now => refreshStatus s other now
  | .report key kind detail fileName now =>
    if kind = "hash_failed" then s else s.recordIssue (.other key) kind detail fileName now
  | .resolve key now => s.resolveIssue (.other key) now
  | .library files records recordSeq enabled => { s with files, records, recordSeq, enabled }

namespace Tidy

variable {s : Db}

lemma recordHashIssue (h : Tidy s) (bookId : ℤ) (path : String) (now : ℤ) :
    Tidy (s.recordHashIssue bookId path now) := by
  unfold Db.recordHashIssue
  split
  · exact h.upsertIssue _ (iff_of_true rfl ⟨bookId, rfl⟩) _ _ _
  · exact h

lemma markFailed (h : Tidy s) (id now : ℤ) : Tidy (s.markFailed id now) := by
  have hmark : Tidy (s.markHashFailed id now) := h.congr rfl rfl
  unfold Db.markFailed
  split
  · exact hmark
  · split
    · exact hmark
    · exact hmark.recordHashIssue _ _ _

lemma processBook (h : Tidy s) (id : ℤ) (a : Attempt) : Tidy (s.processBook id a) := by
  have hclaim : Tidy (s.claimForRetry id) := h.congr rfl rfl
  unfold Db.processBook
  split
  · exact hclaim
  · cases a.bound with
    | none => exact hclaim.markFailed id a.now
    | some b =>
      have hbind : Tidy ((s.claimForRetry id).bindFile id b) := hclaim.congr rfl rfl
      show Tidy (((s.claimForRetry id).bindFile id b).resolveHashIssueIfClear id a.now)
      unfold Db.resolveHashIssueIfClear
      split
      · exact hbind
      · split
        · exact hbind
        · exact hbind.closeIssues _ _

lemma foldl {α : Type} {f : Db → α → Db} (hstep : ∀ s a, Tidy s → Tidy (f s a)) (l : List α)
    (h : Tidy s) : Tidy (l.foldl f s) := by
  induction l generalizing s with
  | nil => exact h
  | cons a l ih => exact ih (hstep s a h)

lemma exec (h : Tidy s) (stmt : Stmt) : Tidy (Indexing.exec s stmt) := by
  cases stmt with
  | batch p => exact foldl (fun s id h => h.processBook id (p.attempt id)) _ h
  | retry bookId attempt =>
    show Tidy (retryBook s bookId attempt).1
    unfold retryBook
    split
    · exact h
    · dsimp only
      split
      · exact h
      · refine foldl (fun s id h => ?_) _ h
        have hreset : Tidy (s.resetHashForRetry id) := h.congr rfl rfl
        exact hreset.processBook id (attempt id)
  | wait ids attempt =>
    refine foldl (fun s id h => ?_) ids h
    split
    · exact h
    · split_ifs
      · exact h
      · exact h.processBook id (attempt id)
      · exact h.markFailed id (attempt id).now
  | markFailed id now => exact h.markFailed id now
  | refresh other now => exact (refreshStatus_spec h other now).1
  | report key kind detail fileName now =>
    show Tidy (if kind = "hash_failed" then s
      else s.recordIssue (.other key) kind detail fileName now)
    split_ifs with hkind
    · exact h
    · exact h.upsertIssue _ (iff_of_false hkind (by simp)) _ _ _
  | resolve key now => exact h.closeIssues _ _
  | library files records recordSeq enabled => exact h.congr rfl rfl

end Tidy

/-- **After a refresh the open issues are those of the books that are not indexed**, over every run.
With sync on every book with a failed location has its issue; an older issue stays as long as a
location of its book is failed or being tried, and it is closed once the book is indexed or gone. No
key ever has two open rows. -/
theorem open_refreshStatus_iff (stmts : List Stmt) (other : IssueRow → Bool) (now : ℤ) :
    let s := stmts.foldl exec {}
    let s' := refreshStatus s other now
    (∀ bookId, IsOpen s' (.hashFailed bookId) ↔
      s.enabled = true ∧ s.aggregateHashState bookId = some .failed ∨
        IsOpen s (.hashFailed bookId) ∧ (s.aggregateHashState bookId = some .failed ∨
          s.aggregateHashState bookId = some .pending)) ∧
    ∀ i j r r', s'.issues.lookup i = some r → s'.issues.lookup j = some r' →
      r.issueKey = r'.issueKey → r.resolvedAt = none → r'.resolvedAt = none → i = j := by
  intro s s'
  have htidy : Tidy s := Tidy.foldl (fun s stmt h => h.exec stmt) stmts (Tidy.of_empty rfl)
  obtain ⟨htidy', hopen⟩ := refreshStatus_spec htidy other now
  exact ⟨hopen, htidy'.opened⟩

/-! ## The manual retry -/

/-- What a retry makes of a row: it starts over with a clean budget. -/
def FileRow.retried (r : FileRow) (a : Attempt) : FileRow :=
  match a.bound with
  | some _ => { r with hashState := .hashed, hashAttempts := 0, hashRetryAt := none }
  | none =>
    { r with hashState := .failed, hashAttempts := 1, hashRetryAt := some (retryAtAfter a.now 1) }

/-- The retry of one location. -/
def retryFile (s : Db) (id : ℤ) (a : Attempt) : Db := (s.resetHashForRetry id).processBook id a

lemma FileRow.bookUid_retried (r : FileRow) (a : Attempt) :
    (r.retried a).bookUid = r.bookUid := by
  rw [FileRow.retried]
  split <;> rfl

section Retry

variable {s : Db} {bookId : ℤ} {uid : String}

/-- The retry of a location that can be read is one attempt at a row that starts over. -/
lemma retryFile_eq {id : ℤ} {r : FileRow} (hr : s.files.lookup id = some r)
    (havailable : r.available = true) (a : Attempt) :
    retryFile s id a = match a.bound with
      | some b =>
        (((s.resetHashForRetry id).claimForRetry id).bindFile id b).resolveHashIssueIfClear id a.now
      | none => ((s.resetHashForRetry id).claimForRetry id).markFailed id a.now := by
  have hthere : ((s.resetHashForRetry id).claimForRetry id).bookAvailable id = some true := by
    rw [Db.bookAvailable_claimForRetry, Db.resetHashForRetry, Db.bookAvailable,
      Db.lookup_setFile, hr]
    simp [havailable]
  rw [retryFile, Db.processBook, if_neg (not_not.mpr hthere)]

lemma records_markFailed (s : Db) (id now : ℤ) :
    (s.markFailed id now).records = s.records ∧ (s.markFailed id now).enabled = s.enabled := by
  have hmark : (s.markHashFailed id now).records = s.records ∧
      (s.markHashFailed id now).enabled = s.enabled := ⟨rfl, rfl⟩
  unfold Db.markFailed
  split
  · exact hmark
  · split
    · exact hmark
    · unfold Db.recordHashIssue Db.recordIssue Db.upsertIssue
      split
      · split <;> exact hmark
      · exact hmark

lemma records_resolveHashIssueIfClear (s : Db) (id now : ℤ) :
    (s.resolveHashIssueIfClear id now).records = s.records ∧
      (s.resolveHashIssueIfClear id now).enabled = s.enabled := by
  unfold Db.resolveHashIssueIfClear
  split
  · exact ⟨rfl, rfl⟩
  · split <;> exact ⟨rfl, rfl⟩

lemma mem_fileIdsForBook (hrecord : s.records.lookup bookId = some uid) {id : ℤ} :
    id ∈ s.fileIdsForBook bookId ↔ ∃ r, s.files.lookup id = some r ∧ r.bookUid = some uid := by
  unfold Db.fileIdsForBook
  rw [hrecord]
  simp only [mem_fileIds, beq_iff_eq]

/-- A book reads as hashed when it has a location and every one is hashed. -/
lemma aggregateHashState_eq_hashed (hrecord : s.records.lookup bookId = some uid) :
    s.aggregateHashState bookId = some .hashed ↔
      (∃ id r, s.files.lookup id = some r ∧ r.bookUid = some uid) ∧
        ∀ id r, s.files.lookup id = some r → r.bookUid = some uid → r.hashState = .hashed := by
  have hmem : ∀ state, state ∈ s.hashStatesOf bookId ↔
      ∃ id r, s.files.lookup id = some r ∧ r.bookUid = some uid ∧ r.hashState = state := by
    intro state
    simp only [Db.hashStatesOf, List.mem_filterMap, Option.map_eq_some_iff,
      mem_fileIdsForBook hrecord]
    constructor
    · rintro ⟨id, ⟨r, hr, huid⟩, r', hr', rfl⟩
      obtain rfl := Option.some.inj (hr.symm.trans hr')
      exact ⟨id, r, hr, huid, rfl⟩
    · rintro ⟨id, r, hr, huid, rfl⟩
      exact ⟨id, ⟨r, hr, huid⟩, r, hr, rfl⟩
  rw [Db.aggregateHashState]
  split_ifs with hempty hfailed hpending
  · refine iff_of_false nofun ?_
    rintro ⟨⟨id, r, hr, huid⟩, -⟩
    have hthere := (hmem r.hashState).mpr ⟨id, r, hr, huid, rfl⟩
    rw [List.isEmpty_iff.mp hempty] at hthere
    cases hthere
  · refine iff_of_false (by simp) fun hall => ?_
    obtain ⟨id, r, hr, huid, hstate⟩ := (hmem _).mp hfailed
    rw [hall.2 id r hr huid] at hstate
    cases hstate
  · refine iff_of_false (by simp) fun hall => ?_
    obtain ⟨id, r, hr, huid, hstate⟩ := (hmem _).mp hpending
    rw [hall.2 id r hr huid] at hstate
    cases hstate
  · refine iff_of_true rfl ⟨?_, fun id r hr huid => ?_⟩
    · obtain ⟨state, hstate⟩ := List.exists_mem_of_ne_nil (s.hashStatesOf bookId)
        fun hnil => hempty (by simp [hnil])
      obtain ⟨id, r, hr, huid, -⟩ := (hmem state).mp hstate
      exact ⟨id, r, hr, huid⟩
    · have hthere := (hmem r.hashState).mpr ⟨id, r, hr, huid, rfl⟩
      cases hstate : r.hashState with
      | hashed => rfl
      | failed => exact absurd (hstate ▸ hthere) hfailed
      | pending => exact absurd (hstate ▸ hthere) hpending

lemma durableIdForFile_eq (hrecord : s.records.lookup bookId = some uid)
    (hunique : ∀ j, s.records.lookup j = some uid → j = bookId) {id : ℤ} {r : FileRow}
    (hr : s.files.lookup id = some r) (huid : r.bookUid = some uid) :
    s.durableIdForFile id = some bookId := by
  rw [Db.durableIdForFile, hr, Option.bind_some, huid, Option.bind_some]
  refine (Table.findKey_eq_some fun j u hj hu => ?_).mpr ⟨uid, hrecord, beq_self_eq_true uid⟩
  obtain rfl := beq_iff_eq.mp hu
  exact hunique j hj

/-- A binding to the book that the file is in changes no book. -/
lemma records_bindFile (hrecord : s.records.lookup bookId = some uid) (id : ℤ) :
    (s.bindFile id ⟨uid, []⟩).records = s.records := by
  have hkept : (s.records.filterRows fun _ u => u == uid || !([] : List String).contains u) =
      s.records := AList.ext (List.filter_eq_self.mpr (by simp))
  have hsome : (s.records.findKey (· == uid)).isSome = true := by
    rw [Option.isSome_iff_ne_none, ne_eq, Table.findKey_eq_none]
    intro hnone
    simpa using hnone bookId uid hrecord
  simp only [Db.bindFile, hkept, hsome, if_true]

/-- What the retry of one location does to the tables. -/
lemma lookup_retryFile (hrecord : s.records.lookup bookId = some uid) {id : ℤ} {r : FileRow}
    (hr : s.files.lookup id = some r) (huid : r.bookUid = some uid)
    (havailable : r.available = true)
    {a : Attempt} (hbound : ∀ b, a.bound = some b → b = ⟨uid, []⟩) :
    (∀ k, (retryFile s id a).files.lookup k = (s.files.lookup k).map fun g =>
        if k = id then g.retried a else g) ∧
      (retryFile s id a).records = s.records ∧ (retryFile s id a).enabled = s.enabled := by
  set t := (s.resetHashForRetry id).claimForRetry id with ht
  have hlookup : ∀ k, t.files.lookup k = (s.files.lookup k).map fun g =>
      if k = id then { g with hashState := .pending, hashAttempts := 0, hashRetryAt := none }
      else g := fun k => by
    rw [ht, Db.lookup_claimForRetry, Db.resetHashForRetry, Db.lookup_setFile, Option.map_map]
    refine congrArg (fun f => Option.map f (s.files.lookup k)) (funext fun g => ?_)
    by_cases hk : k = id <;> simp [hk]
  have hretry := retryFile_eq hr havailable a
  rw [← ht] at hretry
  cases hcase : a.bound with
  | none =>
    rw [hcase] at hretry
    rw [hretry]
    refine ⟨fun k => ?_, (records_markFailed t id a.now).1, (records_markFailed t id a.now).2⟩
    rw [Db.files_markFailed, Db.markHashFailed, Db.lookup_setFile, hlookup, Option.map_map]
    refine congrArg (fun f => Option.map f (s.files.lookup k)) (funext fun g => ?_)
    by_cases hk : k = id <;> simp [hk, FileRow.retried, hcase]
  | some b =>
    obtain rfl := hbound b hcase
    rw [hcase] at hretry
    rw [hretry]
    obtain ⟨hrecords, henabled⟩ :=
      records_resolveHashIssueIfClear (t.bindFile id ⟨uid, []⟩) id a.now
    refine ⟨fun k => ?_, hrecords.trans (records_bindFile hrecord id), henabled⟩
    rw [Db.files_resolveHashIssueIfClear, Db.bindFile, Table.lookup_mapRows, hlookup,
      Option.map_map]
    by_cases hk : k = id
    · subst hk
      rw [hr]
      simp [FileRow.retried, hcase, huid]
    · refine congrArg (fun f => Option.map f (s.files.lookup k)) (funext fun g => ?_)
      simp only [Function.comp_apply, hk, if_false]
      cases g.bookUid <;> simp

/-- What the retry of one location does to the issue of the book. -/
lemma isOpen_retryFile (h : Tidy s) (hrecord : s.records.lookup bookId = some uid)
    (hunique : ∀ j, s.records.lookup j = some uid → j = bookId) {id : ℤ} {r : FileRow}
    (hr : s.files.lookup id = some r) (huid : r.bookUid = some uid)
    (havailable : r.available = true)
    {a : Attempt} (hbound : ∀ b, a.bound = some b → b = ⟨uid, []⟩) :
    (a.bound = none → s.enabled = true → IsOpen (retryFile s id a) (.hashFailed bookId)) ∧
      (a.bound.isSome = true → (retryFile s id a).aggregateHashState bookId = some .hashed →
        ¬IsOpen (retryFile s id a) (.hashFailed bookId)) ∧
      (IsOpen s (.hashFailed bookId) → (retryFile s id a).aggregateHashState bookId ≠ some .hashed →
        IsOpen (retryFile s id a) (.hashFailed bookId)) := by
  obtain ⟨hfiles, hrecords, -⟩ := lookup_retryFile hrecord hr huid havailable hbound
  set t := (s.resetHashForRetry id).claimForRetry id with ht
  have htidy : Tidy t := h.congr rfl rfl
  have hretry := retryFile_eq hr havailable a
  rw [← ht] at hretry
  cases hcase : a.bound with
  | none =>
    have hprocess : retryFile s id a = t.markFailed id a.now := by rw [hretry, hcase]
    obtain ⟨g, hg, hguid⟩ : ∃ g, (t.markHashFailed id a.now).files.lookup id = some g ∧
        g.bookUid = some uid := by
      have hkept := hfiles id
      rw [hprocess, Db.files_markFailed, hr, Option.map_some, if_pos rfl] at hkept
      exact ⟨_, hkept, (r.bookUid_retried a).trans huid⟩
    have hdurable : (t.markHashFailed id a.now).durableIdForFile id = some bookId :=
      durableIdForFile_eq (s := t.markHashFailed id a.now) hrecord hunique hg hguid
    have hmark : retryFile s id a =
        (t.markHashFailed id a.now).recordHashIssue bookId g.path a.now := by
      rw [hprocess, Db.markFailed, hg]
      dsimp only
      rw [hdurable]
    have hmarked : Tidy (t.markHashFailed id a.now) := htidy.congr rfl rfl
    refine ⟨fun _ henabled => ?_, fun hsome => (by cases hsome), fun hopen _ => ?_⟩
    · rw [hmark, Db.recordHashIssue, if_pos (show (t.markHashFailed id a.now).enabled = true from
        henabled), Db.recordIssue, isOpen_upsertIssue hmarked]
      exact .inl rfl
    · rw [hmark, Db.recordHashIssue]
      split
      · rw [Db.recordIssue, isOpen_upsertIssue hmarked]
        exact .inl rfl
      · exact hopen
  | some b =>
    have hprocess : retryFile s id a = (t.bindFile id b).resolveHashIssueIfClear id a.now := by
      rw [hretry, hcase]
    obtain rfl := hbound b hcase
    obtain ⟨g, hg, hguid⟩ : ∃ g, (t.bindFile id ⟨uid, []⟩).files.lookup id = some g ∧
        g.bookUid = some uid := by
      have hkept := hfiles id
      rw [hprocess, Db.files_resolveHashIssueIfClear, hr, Option.map_some, if_pos rfl] at hkept
      exact ⟨_, hkept, (r.bookUid_retried a).trans huid⟩
    have hbind : (t.bindFile id ⟨uid, []⟩).records = s.records :=
      records_bindFile (s := t) hrecord id
    have hdurable : (t.bindFile id ⟨uid, []⟩).durableIdForFile id = some bookId :=
      durableIdForFile_eq (by rw [hbind, hrecord]) (by rw [hbind]; exact hunique) hg hguid
    have hsame : (retryFile s id a).aggregateHashState bookId =
        (t.bindFile id ⟨uid, []⟩).aggregateHashState bookId := by
      rw [hprocess]
      exact aggregateHashState_congr Db.files_resolveHashIssueIfClear
        (records_resolveHashIssueIfClear _ _ _).1 bookId
    have hresolve : retryFile s id a =
        if (retryFile s id a).aggregateHashState bookId ≠ some .hashed then
          t.bindFile id ⟨uid, []⟩
        else (t.bindFile id ⟨uid, []⟩).resolveIssue (.hashFailed bookId) a.now := by
      rw [hsame, hprocess, Db.resolveHashIssueIfClear, hdurable]
    refine ⟨fun hnone => (by cases hnone), fun _ hhashed => ?_, fun hopen hnot => ?_⟩
    · rw [hresolve, if_neg (not_not.mpr hhashed), Db.resolveIssue, isOpen_closeIssues]
      rintro ⟨i, r', -, hkey, -, hno⟩
      rw [hkey, beq_self_eq_true] at hno
      cases hno
    · rw [hresolve, if_pos hnot]
      exact hopen

/-- A location that was retried in vain keeps the book from reading as hashed. -/
lemma aggregateHashState_ne_hashed (hrecord : s.records.lookup bookId = some uid) {id : ℤ}
    {r : FileRow} (hr : s.files.lookup id = some r) (huid : r.bookUid = some uid)
    (hstate : r.hashState ≠ .hashed) : s.aggregateHashState bookId ≠ some .hashed := fun hhashed =>
  hstate (((aggregateHashState_eq_hashed hrecord).mp hhashed).2 id r hr huid)

/-- The retries of a list of locations of one book. -/
lemma foldl_retryFile {attempt : ℤ → Attempt}
    (hbound : ∀ id b, (attempt id).bound = some b → b = ⟨uid, []⟩) {ids : List ℤ} (h : Tidy s)
    (hrecord : s.records.lookup bookId = some uid)
    (hunique : ∀ j, s.records.lookup j = some uid → j = bookId) (hnodup : ids.Nodup)
    (hids : ∀ id ∈ ids, ∃ r, s.files.lookup id = some r ∧ r.bookUid = some uid ∧
      r.available = true) :
    let s' := ids.foldl (fun s id => retryFile s id (attempt id)) s
    (∀ k, s'.files.lookup k = (s.files.lookup k).map fun g =>
        if k ∈ ids then g.retried (attempt k) else g) ∧
      s'.records = s.records ∧
      (s.enabled = true → (∃ id ∈ ids, (attempt id).bound = none) →
        IsOpen s' (.hashFailed bookId)) ∧
      (IsOpen s (.hashFailed bookId) → (∃ k ∉ ids, ∃ r, s.files.lookup k = some r ∧
        r.bookUid = some uid ∧ r.hashState = .failed) → IsOpen s' (.hashFailed bookId)) ∧
      (ids ≠ [] → s'.aggregateHashState bookId = some .hashed →
        ¬IsOpen s' (.hashFailed bookId)) := by
  induction ids generalizing s with
  | nil => exact ⟨fun k => by simp, rfl, by simp, fun hopen _ => hopen, by simp⟩
  | cons id ids ih =>
    obtain ⟨hfresh, hnodup⟩ := List.nodup_cons.mp hnodup
    obtain ⟨r, hr, huid, havailable⟩ := hids id List.mem_cons_self
    obtain ⟨hfiles, hrecords, henabled⟩ :=
      lookup_retryFile hrecord hr huid havailable (hbound id)
    obtain ⟨hfail, hclear, hkeep⟩ :=
      isOpen_retryFile h hrecord hunique hr huid havailable (hbound id)
    have hrecord' : (retryFile s id (attempt id)).records.lookup bookId = some uid := by
      rw [hrecords, hrecord]
    have hself : (retryFile s id (attempt id)).files.lookup id = some (r.retried (attempt id)) := by
      rw [hfiles, hr, Option.map_some, if_pos rfl]
    have hother : ∀ k, k ≠ id →
        (retryFile s id (attempt id)).files.lookup k = s.files.lookup k := fun k hk => by
      rw [hfiles]
      simp [hk]
    have huid' : (r.retried (attempt id)).bookUid = some uid :=
      (r.bookUid_retried (attempt id)).trans huid
    have hreset : Tidy (s.resetHashForRetry id) := h.congr rfl rfl
    have htidy : Tidy (retryFile s id (attempt id)) := hreset.processBook id (attempt id)
    obtain ⟨hfiles', hrecords', hopened', hkept', hclear'⟩ :=
      ih htidy hrecord' (by rw [hrecords]; exact hunique) hnodup fun k hk => by
        obtain ⟨g, hg, hguid, hgavailable⟩ := hids k (List.mem_cons_of_mem _ hk)
        exact ⟨g, by rw [hother k fun heq => hfresh (heq ▸ hk), hg], hguid, hgavailable⟩
    refine ⟨fun k => ?_, hrecords'.trans hrecords, fun hon hsome => ?_, fun hopen hsome => ?_,
      fun _ hhashed => ?_⟩
    · rw [List.foldl_cons, hfiles', hfiles, Option.map_map]
      refine congrArg (fun f => Option.map f (s.files.lookup k)) (funext fun g => ?_)
      by_cases hk : k = id
      · subst hk
        simp [hfresh]
      · simp [hk]
    · obtain ⟨j, hj, hnone⟩ := hsome
      obtain rfl | hj := List.mem_cons.mp hj
      · refine hkept' (hfail hnone hon) ⟨j, hfresh, _, hself, huid', ?_⟩
        rw [FileRow.retried, hnone]
      · exact hopened' (henabled.trans hon) ⟨j, hj, hnone⟩
    · obtain ⟨k, hk, g, hg, hguid, hgfailed⟩ := hsome
      rw [List.mem_cons, not_or] at hk
      have hg' : (retryFile s id (attempt id)).files.lookup k = some g := by
        rw [hother k hk.1, hg]
      refine hkept' (hkeep hopen ?_) ⟨k, hk.2, g, hg', hguid, hgfailed⟩
      exact aggregateHashState_ne_hashed hrecord' hg' hguid (by rw [hgfailed]; simp)
    · cases ids with
      | nil =>
        refine hclear ?_ hhashed
        cases hcase : (attempt id).bound with
        | some b => rfl
        | none =>
          refine absurd hhashed (aggregateHashState_ne_hashed hrecord' hself huid' ?_)
          rw [FileRow.retried, hcase]
          simp
      | cons j ids => exact hclear' (by simp) hhashed

/-- The locations of a book that can be read. -/
lemma mem_readable (hrecord : s.records.lookup bookId = some uid) (id : ℤ) :
    (id ∈ (s.fileIdsForBook bookId).filter fun id => s.bookAvailable id == some true) ↔
      ∃ r, s.files.lookup id = some r ∧ r.bookUid = some uid ∧ r.available = true := by
  rw [List.mem_filter, mem_fileIdsForBook hrecord, beq_iff_eq, Db.bookAvailable,
    Option.map_eq_some_iff]
  constructor
  · rintro ⟨⟨r, hr, huid⟩, r', hr', havailable⟩
    obtain rfl := Option.some.inj (hr.symm.trans hr')
    exact ⟨r, hr, huid, havailable⟩
  · rintro ⟨r, hr, huid, havailable⟩
    exact ⟨⟨r, hr, huid⟩, r, hr, havailable⟩

lemma nodup_fileIdsForBook (s : Db) (bookId : ℤ) : (s.fileIdsForBook bookId).Nodup := by
  unfold Db.fileIdsForBook
  split
  · exact List.nodup_nil
  · exact nodup_fileIds s _

/-- Without a location that can be read, a retry does nothing. -/
lemma retryBook_unreadable (attempt : ℤ → Attempt)
    (h : (s.fileIdsForBook bookId).filter (fun id => s.bookAvailable id == some true) = []) :
    (retryBook s bookId attempt).1 = s ∧
      (retryBook s bookId attempt).2 ≠ some (.state .hashed) := by
  unfold retryBook
  split_ifs
  · exact ⟨rfl, by simp⟩
  · dsimp only
    rw [h]
    exact ⟨rfl, by simp⟩

lemma retryBook_readable (attempt : ℤ → Attempt) {ids : List ℤ}
    (hids : (s.fileIdsForBook bookId).filter (fun id => s.bookAvailable id == some true) = ids)
    (h : ids ≠ []) :
    let s' := ids.foldl (fun s id => retryFile s id (attempt id)) s
    retryBook s bookId attempt =
      (s', some ((s'.aggregateHashState bookId).elim .missing .state)) := by
  have hlisted : (s.fileIdsForBook bookId).isEmpty ≠ true := fun hempty => by
    rw [List.isEmpty_iff.mp hempty] at hids
    exact h hids.symm
  unfold retryBook
  rw [if_neg hlisted]
  dsimp only
  rw [hids, if_neg (by rwa [List.isEmpty_iff])]
  rfl

/-- A row after its retry is hashed exactly when its bytes could be read, or, when it was left
alone, it was hashed before. -/
lemma hashState_retried_iff {r : FileRow} (huid : r.bookUid = some uid) (a : Attempt) :
    (if r.bookUid = some uid ∧ r.available = true then r.retried a else r).hashState = .hashed ↔
      if r.available then a.bound.isSome = true else r.hashState = .hashed := by
  cases havailable : r.available with
  | false => simp
  | true =>
    rw [if_pos ⟨huid, rfl⟩, FileRow.retried]
    cases a.bound <;> simp

end Retry

end Indexing

end TuxBooks
