import TuxBooks.Lib.MergeForest
import TuxBooks.Sync.Model

set_option relaxedAutoImplicit false
set_option autoImplicit false

/-!
# The shared-state mirror

The `sync_*` tables of the catalog database (migrations `0015_sync.sql`,
`0023_sync_book_forget.sql` and `0027_sync_conflict_resolution.sql`) as one record of tables,
with the small readers and writers that the merge code uses on them.

The field rows of an entity are stored inside its entity row: the code creates the entity row
before it writes a field and deletes both together, so a field row without its entity does not
occur. Wall-clock columns are kept only as far as they are read: `restored_at` and `resolved_at`
as "is it set", the other timestamps not at all.

## Main definitions

* `TuxBooks.EntityRow`, `TuxBooks.FieldRow` — one row of `sync_state_entities` with its rows of
  `sync_state_fields`.
* `TuxBooks.BookTrashRow` — one row of `sync_book_trash`.
* `TuxBooks.Mirror` — all the tables.
* `TuxBooks.Mirror.canonicalBookUid`, `TuxBooks.Mirror.forgottenReplacement` — the identity
  lookups.
* `TuxBooks.Mirror.loadState`, `TuxBooks.Mirror.recordConflict`, `TuxBooks.Mirror.observeHlc`.
-/

namespace TuxBooks

/-! ## Rows -/

/-- One row of `sync_state_fields`: the value and the clock that last wrote it. -/
structure FieldRow where
  value : Value
  hlc : Hlc
  deriving DecidableEq

/-- One row of `sync_state_entities` with the fields of the entity. The defaults are those of
the table; field-level kinds leave `hlc` at zero. -/
structure EntityRow where
  bookUid : Option String := none
  hlc : Hlc := Hlc.zero
  deleted : Bool := false
  deletedClock : Option Hlc := none
  restoredClock : Option Hlc := none
  fields : Table String FieldRow := ∅

namespace EntityRow

/-- The delete clock that `load_entity` reads: absent when its wall is zero. -/
def deletedHlc (row : EntityRow) : Option Hlc := row.deletedClock.bind Hlc.stored

/-- The restore clock that `load_entity` reads: absent when its wall is zero. -/
def restoredHlc (row : EntityRow) : Option Hlc := row.restoredClock.bind Hlc.stored

end EntityRow

/-- One row of `sync_book_trash`. -/
structure BookTrashRow where
  replacement : Option String
  snapshot : Option String
  deletedClock : Hlc
  /-- Whether `restored_at` is set. -/
  restoredAt : Bool
  /-- The user chose Keep or Merge: only the trash entry is closed. -/
  discarded : Bool
  restoredClock : Hlc
  deriving DecidableEq

/-- One row of `sync_book_bindings`, keyed by the local file row. -/
structure BindingRow where
  bookUid : String
  contentHash : String
  hashedSize : ℤ
  hashedMtime : ℤ
  deriving DecidableEq

/-- One row of `sync_trash`. -/
structure TrashRow where
  kind : EntityKind
  entityUid : String
  bookUid : Option String
  prior : State
  deletedClock : Hlc
  /-- Whether `restored_at` is set. -/
  restoredAt : Bool

/-- One row of `sync_conflicts`. -/
structure ConflictRow where
  kind : EntityKind
  entityUid : String
  field : String
  winner : Value
  loser : Value
  winnerHlc : Hlc
  loserHlc : Hlc
  /-- Whether `resolved_at` is set. -/
  resolvedAt : Bool
  deriving DecidableEq

/-- One row of `sync_issues`. -/
structure IssueRow where
  issueKey : String
  kind : String
  /-- Whether `resolved_at` is set. -/
  resolvedAt : Bool
  deriving DecidableEq

/-- The `sync_*` tables. -/
structure Mirror where
  /-- The `hlc` entry of `sync_meta`. -/
  clock : Option (ℤ × ℕ) := none
  /-- `sync_applied_ops`. -/
  appliedOps : List String := []
  /-- `sync_state_entities` and `sync_state_fields`. -/
  entities : Table (EntityKind × String) EntityRow := ∅
  /-- `sync_book_aliases`: content hash to book uid. -/
  aliases : Table String String := ∅
  /-- `sync_book_bindings`. -/
  bindings : Table ℤ BindingRow := ∅
  /-- `sync_book_merges`: loser to winner. -/
  merges : Table String String := ∅
  /-- `sync_entity_merges`: kind and loser to winner. -/
  entityMerges : Table (EntityKind × String) String := ∅
  /-- `sync_book_trash`. -/
  bookTrash : Table String BookTrashRow := ∅
  /-- `sync_trash`. -/
  trash : List TrashRow := []
  /-- `sync_conflicts`. -/
  conflicts : List ConflictRow := []
  /-- `sync_issues`. -/
  issues : List IssueRow := []

/-- An entity whose final mirror state has to be projected into the local catalog. -/
structure Affected where
  kind : EntityKind
  entityUid : String
  bookUid : Option String
  deriving DecidableEq, Repr

namespace Mirror

/-! ## Identity lookups -/

/-- Follow `sync_book_merges` for at most 32 hops. -/
def canonicalBookUid (m : Mirror) (uid : String) : String :=
  MergeForest.find (fun u => m.merges.lookup u) 32 uid

/-- Follow `sync_entity_merges` for at most 32 hops. -/
def canonicalEntityUid (m : Mirror) (kind : EntityKind) (uid : String) : String :=
  MergeForest.find (fun u => m.entityMerges.lookup (kind, u)) 32 uid

/-- Whether `uid` (after identity merges) has an open shared Forget. `none` means the identity
is live; `some replacement` means it was forgotten, with the fresh identity if there is one. -/
def forgottenReplacement (m : Mirror) (uid : String) : Option (Option String) :=
  match m.bookTrash.lookup (m.canonicalBookUid uid) with
  | some row => if row.restoredAt then none else some row.replacement
  | none => none

/-- A candidate identity for alias selection: a forgotten uid is replaced by its fresh
identity, or is no candidate at all. -/
def resolveIdentity (m : Mirror) (uid : String) : Option String :=
  let uid := m.canonicalBookUid uid
  match m.forgottenReplacement uid with
  | some (some replacement) => some replacement
  | some none => none
  | none => some uid

/-! ## Entity state -/

/-- The row of an entity, with the table's defaults when there is none. -/
def row (m : Mirror) (kind : EntityKind) (uid : String) : EntityRow :=
  (m.entities.lookup (kind, uid)).getD {}

def setRow (m : Mirror) (kind : EntityKind) (uid : String) (r : EntityRow) : Mirror :=
  { m with entities := m.entities.insert (kind, uid) r }

/-- `load_state_tx`: every syncable field, `null` where the mirror has none. -/
def loadStateTx (m : Mirror) (kind : EntityKind) (uid : String) : State :=
  Table.ofKeys (fieldNames kind) fun field =>
    match (m.row kind uid).fields.lookup field with
    | some r => r.value
    | none => .null

/-- `load_state`: the state and whether the entity is a tombstone. -/
def loadState (m : Mirror) (kind : EntityKind) (uid : String) : State × Bool :=
  (m.loadStateTx kind uid, (m.row kind uid).deleted)

/-! ## Bookkeeping -/

/-- Move the local clock forward when a remote writer is ahead. -/
def observeHlc (m : Mirror) (remote : Hlc) : Mirror :=
  { m with
    clock := match m.clock with
      | none => some (remote.wall, remote.counter)
      | some (wall, counter) =>
        if remote.wall > wall then some (remote.wall, remote.counter)
        else if remote.wall = wall ∧ remote.counter > counter then
          some (remote.wall, remote.counter)
        else some (wall, counter) }

/-- `INSERT OR IGNORE INTO sync_applied_ops`. -/
def markApplied (m : Mirror) (op : Op) : Mirror :=
  { m with appliedOps := m.appliedOps.insert op.opId }

/-- Record an issue without duplicating an open row for the same key. -/
def recordIssue (m : Mirror) (key kind : String) : Mirror :=
  if m.issues.any fun i => i.issueKey == key && !i.resolvedAt then m
  else { m with issues := m.issues ++ [⟨key, kind, false⟩] }

/-- Keep the losing side of a merge. Progress never opens a review issue. -/
def recordConflict (m : Mirror) (kind : EntityKind) (uid field : String) (winner loser : Value)
    (winnerHlc loserHlc : Hlc) : Mirror :=
  if winner = loser then m
  else
    let m := if kind = .progress then m
      else m.recordIssue (conflictIssueKey kind uid field) "conflict"
    { m with conflicts := m.conflicts ++
        [⟨kind, uid, field, winner, loser, winnerHlc, loserHlc, false⟩] }

/-! ## Lemmas -/

@[simp] lemma row_setRow (m : Mirror) (kind : EntityKind) (uid : String) (r : EntityRow) :
    (m.setRow kind uid r).row kind uid = r := by
  simp [row, setRow]

@[simp] lemma entities_recordIssue (m : Mirror) (key kind : String) :
    (m.recordIssue key kind).entities = m.entities := by
  unfold recordIssue
  split_ifs <;> rfl

@[simp] lemma entities_recordConflict (m : Mirror) (kind : EntityKind) (uid field : String)
    (winner loser : Value) (winnerHlc loserHlc : Hlc) :
    (m.recordConflict kind uid field winner loser winnerHlc loserHlc).entities = m.entities := by
  unfold recordConflict
  split_ifs <;> simp

@[simp] lemma row_recordConflict (m : Mirror) (kind kind' : EntityKind)
    (uid uid' field : String) (winner loser : Value) (winnerHlc loserHlc : Hlc) :
    (m.recordConflict kind uid field winner loser winnerHlc loserHlc).row kind' uid' =
      m.row kind' uid' := by
  simp [row]

end Mirror

end TuxBooks
