import TuxBooks.Sync.Mirror

set_option relaxedAutoImplicit false
set_option autoImplicit false

/-!
# Conflict review

The tables `sync_conflicts` and `sync_issues` with their ids, and the operations of
`sidecar/src/sync/conflict.rs`, `merge.rs` and `engine.rs` that write them. A conflict that is not
about progress has an issue that is open as long as one conflict with its key is unresolved; the
operations close issues by SQL predicates on the keys.

The text of an issue and the times of its columns are not kept, except for the time at which a
conflict was recorded, by which it expires.

## Main definitions

* `TuxBooks.Review` — the two tables, and the entity rows that decide whether a conflict is live.
* `TuxBooks.Review.recordConflict`, `TuxBooks.Review.recordTombstoneConflict`,
  `TuxBooks.Review.settle`, `TuxBooks.Review.reconcile`, `TuxBooks.Review.expire`,
  `TuxBooks.Review.dismissIssue`, `TuxBooks.Review.dismissAllIssues`,
  `TuxBooks.Review.resolveConflict` — the operations.
* `TuxBooks.ReviewEvent`, `TuxBooks.Review.Reachable` — every sequence of them.
-/

namespace TuxBooks

/-! ## Rows -/

/-- One row of `sync_conflicts` with its id and its `created_at`. -/
structure ConflictEntry where
  id : ℕ
  createdAt : String
  row : ConflictRow

/-- One row of `sync_issues` with its id. -/
structure IssueEntry where
  id : ℕ
  row : IssueRow

/-- The key of the issue of a conflict, as `NO_LIVE_CONFLICT` builds it. -/
def ConflictRow.issueKey (c : ConflictRow) : String := conflictIssueKey c.kind c.entityUid c.field

/-- The arguments of `record_conflict`, and the time. -/
structure Recording where
  createdAt : String
  kind : EntityKind
  entityUid : String
  field : String
  winner : Value
  loser : Value
  winnerHlc : Hlc
  loserHlc : Hlc

def Recording.row (r : Recording) : ConflictRow :=
  ⟨r.kind, r.entityUid, r.field, r.winner, r.loser, r.winnerHlc, r.loserHlc, false⟩

/-- The row a resolution works from. -/
structure OpenConflict where
  kind : EntityKind
  entityUid : String
  field : String
  bookUid : Option String
  loser : Value

def OpenConflict.issueKey (c : OpenConflict) : String := conflictIssueKey c.kind c.entityUid c.field

/-- The user's choice. -/
inductive Resolution where
  | keepWinner
  | applyLoser
  deriving DecidableEq

def Resolution.parse (value : String) : Option Resolution :=
  if value = "keep_winner" then some .keepWinner
  else if value = "apply_loser" then some .applyLoser
  else none

/-- What the user can do about an issue. -/
inductive SyncIssueAction where
  | retry
  | openFolder
  | copyDetails
  | dismiss
  deriving DecidableEq

def SyncIssueAction.forKind (kind : String) : SyncIssueAction :=
  if kind ∈ ["projection_failed", "identity_failed", "reprojection_failed",
      "book_lifecycle_failed", "sync_failed", "operation_retrying", "cover_missing",
      "cover_blob_failed", "hash_failed"] then .retry
  else if kind = "operation_rejected" then .openFolder
  else if kind = "invalid_dirty_kind" then .dismiss
  else .copyDetails

def SyncIssueAction.isInformational (action : SyncIssueAction) : Bool :=
  action = .copyDetails ∨ action = .dismiss

/-- The kinds of issue for which `issue_cleared` has a condition. -/
def clearableKinds : List String :=
  ["duplicate_book", "operation_retrying", "operation_rejected", "cover_missing",
    "cover_blob_failed", "projection_failed", "identity_failed", "hash_failed",
    "reprojection_failed", "book_lifecycle_failed"]

/-- `LIKE 'text%'`: a prefix test that ignores the case of ASCII letters. -/
def likePrefix (text value : String) : Bool :=
  (text.toList.map Char.toLower).isPrefixOf (value.toList.map Char.toLower)

/-- Why the loser of a conflict cannot be applied, if it cannot. -/
def applyBlockedReason (kind : EntityKind) : Option String :=
  if kind = .bookIdentity then
    some "book identity merges are deterministic and cannot be replayed"
  else none

/-! ## Operations -/

/-- The tables that the review reads and writes, with the counters of their ids. -/
structure Review where
  entities : Table (EntityKind × String) EntityRow := ∅
  conflicts : List ConflictEntry := []
  issues : List IssueEntry := []
  lastConflict : ℕ := 0
  lastIssue : ℕ := 0

namespace Review

/-- Whether an open issue has this key. -/
def issueOpen (s : Review) (key : String) : Bool :=
  s.issues.any fun i => i.row.issueKey == key && !i.row.resolvedAt

def insertIssue (s : Review) (key kind : String) : Review :=
  { s with
    issues := s.issues ++ [⟨s.lastIssue + 1, key, kind, false⟩]
    lastIssue := s.lastIssue + 1 }

/-- Keep the losing side of a merge. -/
def recordConflict (s : Review) (r : Recording) : Review :=
  if r.winner = r.loser then s
  else
    let key := conflictIssueKey r.kind r.entityUid r.field
    let s := if r.kind ≠ .progress then
        if s.issueOpen key then s else s.insertIssue key "conflict"
      else s
    { s with
      conflicts := s.conflicts ++ [⟨s.lastConflict + 1, r.createdAt, r.row⟩]
      lastConflict := s.lastConflict + 1 }

/-- Keep a local edit that arrived after the entity was deleted on another machine. -/
def recordTombstoneConflict (s : Review) (createdAt : String) (kind : EntityKind) (uid : String)
    (loser : State) (loserHlc : Hlc) : Review × Except AppError Unit :=
  match s.entities.lookup (kind, uid) with
  | none => (s, .ok ())
  | some row =>
    if row.deleted = false then (s, .ok ())
    else match row.deletedClock with
      | none => (s, .error (.database "unexpected null"))
      | some deleteHlc =>
        (s.recordConflict ⟨createdAt, kind, uid, "__deleted__", .str "deleted", loser.toValue,
          deleteHlc, loserHlc⟩, .ok ())

/-- Whether the winner of a conflict still describes the mirror. -/
def isLive (s : Review) (c : ConflictRow) : Except AppError Bool :=
  match s.entities.lookup (c.kind, c.entityUid) with
  | none => .ok false
  | some row =>
    if c.field = "__entity__" then .ok (decide (row.hlc = c.winnerHlc))
    else if c.field = "__deleted__" ∨ c.field = "__restore__" then
      match row.deletedClock with
      | none => .error (.database "unexpected null")
      | some deleteHlc => .ok (row.deleted && decide (deleteHlc = c.winnerHlc))
    else match row.fields.lookup c.field with
      | none => .ok false
      | some r => .ok (decide (r.value = c.winner ∧ r.hlc = c.winnerHlc))

/-- The open issues. -/
def openIssues (s : Review) : List IssueEntry := s.issues.filter fun i => !i.row.resolvedAt

/-- The unresolved conflicts. -/
def openConflicts (s : Review) : List ConflictEntry :=
  s.conflicts.filter fun c => !c.row.resolvedAt

/-- `NOT NO_LIVE_CONFLICT`: some unresolved conflict has this key. -/
def hasConflict (s : Review) (key : String) : Bool :=
  s.conflicts.any fun c => !c.row.resolvedAt && c.row.issueKey == key

/-- An open issue that no unresolved conflict is behind, or one about progress. -/
def isStale (s : Review) (i : IssueRow) : Bool :=
  i.kind == "conflict" && !i.resolvedAt &&
    (likePrefix "conflict:progress:" i.issueKey || !s.hasConflict i.issueKey)

/-- Close the issues for which `p` holds. -/
def closeIssues (s : Review) (p : IssueEntry → Bool) : Review :=
  { s with
    issues := s.issues.map fun i =>
      if p i then { i with row := { i.row with resolvedAt := true } } else i }

def closeConflictIssues (s : Review) : Review := s.closeIssues fun i => s.isStale i.row

def staleIssueCount (s : Review) : ℕ := s.issues.countP fun i => s.isStale i.row

/-- Mark the conflicts whose id is in the list as resolved. -/
def resolveRows (s : Review) (ids : List ℕ) : Review :=
  { s with
    conflicts := s.conflicts.map fun c =>
      if c.id ∈ ids ∧ c.row.resolvedAt = false then
        { c with row := { c.row with resolvedAt := true } }
      else c }

/-- The ids of the unresolved conflicts that are not live; the first error ends the search. -/
def settledIds (s : Review) : List ConflictEntry → Except AppError (List ℕ)
  | [] => .ok []
  | c :: rest =>
    if c.row.resolvedAt then s.settledIds rest
    else match s.isLive c.row with
      | .error e => .error e
      | .ok live =>
        match s.settledIds rest with
        | .error e => .error e
        | .ok ids => .ok (if live then ids else c.id :: ids)

/-- Close every conflict whose winner has moved, then the issues without a conflict. -/
def reconcile (s : Review) : Review × Except AppError ℕ :=
  match s.settledIds s.conflicts with
  | .error e => (s, .error e)
  | .ok settled =>
    if settled.isEmpty ∧ s.staleIssueCount = 0 then (s, .ok 0)
    else ((s.resolveRows settled).closeConflictIssues, .ok settled.length)

/-- Drop the unresolved conflicts from before `cutoff`, then close the issues without one. -/
def expire (s : Review) (cutoff : String) : Review × ℕ :=
  let expired (c : ConflictEntry) : Bool := !c.row.resolvedAt && decide (c.createdAt < cutoff)
  let n := s.conflicts.countP expired
  if n = 0 ∧ s.staleIssueCount = 0 then (s, 0)
  else
    let s := { s with conflicts := s.conflicts.filter fun c => !expired c }
    (s.closeConflictIssues, n)

/-- Load one unresolved conflict. -/
def openConflict (s : Review) (id : ℕ) : Option OpenConflict :=
  match s.conflicts.find? fun c => c.id == id && !c.row.resolvedAt with
  | none => none
  | some c =>
    let bookUid := if c.row.kind = .book then some c.row.entityUid
      else (s.entities.lookup (c.row.kind, c.row.entityUid)).bind (·.bookUid)
    some ⟨c.row.kind, c.row.entityUid, c.row.field, bookUid, c.row.loser⟩

/-- Settle one row and close its issue if no unresolved conflict with the key remains. -/
def settle (s : Review) (id : ℕ) (conflict : OpenConflict) : Review × Bool :=
  let updated := s.conflicts.any fun c => c.id == id && !c.row.resolvedAt
  let s := s.resolveRows [id]
  (s.closeIssues fun i => i.row.kind == "conflict" && !i.row.resolvedAt &&
    i.row.issueKey == conflict.issueKey && !s.hasConflict i.row.issueKey, updated)

/-- `sync_issues::record`: open an issue, or refresh the open one with this key. -/
def recordIssue (s : Review) (key kind : String) : Review :=
  if s.issueOpen key then
    { s with
      issues := s.issues.map fun i =>
        if i.row.issueKey = key ∧ i.row.resolvedAt = false then
          { i with row := { i.row with kind := kind } }
        else i }
  else s.insertIssue key kind

/-- What a status refresh finds: the time before which a conflict has expired, which conditions
have cleared, and the books whose hash has failed. -/
structure Refresh where
  cutoff : String
  cleared : IssueRow → Bool
  hashFailed : List String

/-- `refresh_status`, as far as it writes. -/
def refreshStatus (s : Review) (env : Refresh) : Review :=
  let s := s.reconcile.1
  let s := (s.expire env.cutoff).1
  let s := s.closeIssues fun i =>
    !i.row.resolvedAt && decide (i.row.kind ∈ clearableKinds) && env.cleared i.row
  env.hashFailed.foldl (fun s book => s.recordIssue ("hash-failed:" ++ book) "hash_failed") s

def dismissIssue (s : Review) (id : ℕ) (env : Refresh) : Review × Except AppError Bool :=
  match s.issues.find? fun i => i.id == id && !i.row.resolvedAt with
  | none => (s, .ok false)
  | some i =>
    if i.row.kind = "conflict" then (s, .ok false)
    else if (SyncIssueAction.forKind i.row.kind).isInformational = false then
      (s, .error (.invalidInput
        "this sync issue has an action; retry it or fix it in the sync folder"))
    else
      let s := s.closeIssues fun i => i.id == id && !i.row.resolvedAt
      (s.refreshStatus env, .ok true)

def dismissAllIssues (s : Review) (env : Refresh) : Review × ℕ :=
  let ids := (s.issues.filter fun i => !i.row.resolvedAt && i.row.kind != "conflict" &&
    (SyncIssueAction.forKind i.row.kind).isInformational).map (·.id)
  if ids.isEmpty then (s, 0)
  else
    let s := s.closeIssues fun i => decide (i.id ∈ ids) && !i.row.resolvedAt
    (s.refreshStatus env, ids.length)

/-- What `apply_loser` and the projection after it did: the operation that was published left
these entity rows and recorded these conflicts, before both succeeded or one failed. -/
structure Publication where
  entities : Table (EntityKind × String) EntityRow
  recordings : List Recording
  outcome : Except AppError Unit

def publish (s : Review) (p : Publication) : Review :=
  p.recordings.foldl recordConflict { s with entities := p.entities }

/-- Settle one conflict by the user's choice. `publication` is what publishing the loser does, if
sync is connected. -/
def resolveConflict (s : Review) (id : ℕ) (resolution cutoff : String)
    (publication : Option Publication) (env : Refresh) : Review × Except AppError Bool :=
  match Resolution.parse resolution with
  | none =>
    (s, .error (.invalidInput ("unknown conflict resolution \"" ++ resolution ++ "\"")))
  | some resolution =>
    let s := (s.expire cutoff).1
    match s.openConflict id with
    | none => (s, .ok false)
    | some c =>
      match resolution with
      | .keepWinner =>
        let (s, settled) := s.settle id c
        (s.refreshStatus env, .ok settled)
      | .applyLoser =>
        match applyBlockedReason c.kind with
        | some reason => (s, .error (.invalidInput reason))
        | none =>
          match publication with
          | none => (s, .error (.invalidInput
              "sync is not connected; re-apply the value from its original screen"))
          | some p =>
            let s := s.publish p
            match p.outcome with
            | .error e => (s, .error e)
            | .ok () => (((s.settle id c).1).refreshStatus env, .ok true)

end Review

/-! ## Sequences of operations -/

/-- The issue keys of conflicts begin with this; no other condition has such a key. -/
def isConflictKey (key : String) : Bool := "conflict:".toList.isPrefixOf key.toList

/-- What can happen to the tables. -/
inductive ReviewEvent where
  | recordConflict (r : Recording)
  | recordTombstoneConflict (createdAt : String) (kind : EntityKind) (uid : String)
      (loser : State) (loserHlc : Hlc)
  | settle (id : ℕ) (conflict : OpenConflict)
  | reconcile
  | expire (cutoff : String)
  | dismissIssue (id : ℕ) (env : Review.Refresh)
  | dismissAllIssues (env : Review.Refresh)
  | resolveConflict (id : ℕ) (resolution cutoff : String)
      (publication : Option Review.Publication) (env : Review.Refresh)
  /-- The merge writes entity rows. -/
  | merge (entities : Table (EntityKind × String) EntityRow)
  /-- Another condition is reported. -/
  | report (key kind : String)
  /-- Another condition is over. -/
  | repair (key : String)

namespace Review

def step (s : Review) : ReviewEvent → Review
  | .recordConflict r => s.recordConflict r
  | .recordTombstoneConflict createdAt kind uid loser loserHlc =>
    (s.recordTombstoneConflict createdAt kind uid loser loserHlc).1
  | .settle id conflict => (s.settle id conflict).1
  | .reconcile => s.reconcile.1
  | .expire cutoff => (s.expire cutoff).1
  | .dismissIssue id env => (s.dismissIssue id env).1
  | .dismissAllIssues env => (s.dismissAllIssues env).1
  | .resolveConflict id resolution cutoff publication env =>
    (s.resolveConflict id resolution cutoff publication env).1
  | .merge entities => { s with entities := entities }
  | .report key kind => s.recordIssue key kind
  | .repair key => s.closeIssues fun i => i.row.issueKey == key && !i.row.resolvedAt

/-- A conflict is settled with the row that `openConflict` found under its id, now or earlier;
other conditions have keys and a kind of their own. -/
def Allows (s : Review) : ReviewEvent → Prop
  | .settle id conflict => ∀ c ∈ s.conflicts, c.id = id → c.row.issueKey = conflict.issueKey
  | .report key kind => isConflictKey key = false ∧ kind ≠ "conflict"
  | .repair key => isConflictKey key = false
  | _ => True

/-- The states that the operations reach. -/
inductive Reachable : Review → Prop
  | empty : Reachable {}
  | step {s : Review} (e : ReviewEvent) : Reachable s → s.Allows e → Reachable (s.step e)

end Review

end TuxBooks
