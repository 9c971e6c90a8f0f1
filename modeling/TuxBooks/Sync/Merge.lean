import TuxBooks.Sync.Identity
import TuxBooks.Sync.Store

set_option relaxedAutoImplicit false
set_option autoImplicit false

/-!
# Applying operations to the mirror

`sidecar/src/sync/merge.rs` up to the projection: field-level last-writer-wins for annotations,
metadata and collections; entity-level last-writer-wins for progress, membership and
last-opened; tombstones with an explicit restore path; identity and whole-book operations.

A function that can fail returns the mirror beside its result, since what it wrote before the
failure stays written. `fromStr` stands for `serde_json::from_str`, which only the snapshot of a
whole-book operation goes through.

## Main definitions

* `TuxBooks.Mirror.applyUpsert`, `TuxBooks.Mirror.applyDelete` — the two state paths.
* `TuxBooks.Mirror.applyIdentity`, `TuxBooks.Mirror.applyBook` — the two identity paths.
* `TuxBooks.Mirror.applyOp` — the dispatcher with its dedupe table.
* `TuxBooks.Mirror.applyAll` — a run.
-/

namespace TuxBooks

namespace Mirror

/-! ## State operations -/

/-- One iteration of the loop of `apply_fields`. -/
def applyField (op : Op) (uid : String) (m : Mirror) (field : String) (value : Value) : Mirror :=
  let row := m.row op.kind uid
  match row.fields.lookup field with
  | some existing =>
    if op.hlc ≤ existing.hlc then
      if existing.value ≠ value then
        m.recordConflict op.kind uid field existing.value value existing.hlc op.hlc
      else m
    else m.setRow op.kind uid { row with fields := row.fields.insert field ⟨value, op.hlc⟩ }
  | none => m.setRow op.kind uid { row with fields := row.fields.insert field ⟨value, op.hlc⟩ }

def applyFields (m : Mirror) (op : Op) (uid : String) : Mirror :=
  op.fields.entries.foldl (fun m e => m.applyField op uid e.1 e.2) m

def applyEntity (m : Mirror) (op : Op) (uid : String) (entityHlc : Hlc) : Mirror :=
  if op.hlc ≤ entityHlc then
    m.recordConflict op.kind uid "__entity__" (m.loadStateTx op.kind uid).toValue
      op.fields.toValue entityHlc op.hlc
  else
    m.setRow op.kind uid { m.row op.kind uid with
      fields := op.fields.mapRows fun _ value => ⟨value, op.hlc⟩
      hlc := op.hlc }

/-- A restore closes the local Recently deleted entries of the entity. -/
def closeTrash (m : Mirror) (kind : EntityKind) (uid : String) : Mirror :=
  { m with trash := m.trash.map fun t =>
      if t.kind = kind ∧ t.entityUid = uid ∧ ¬t.restoredAt then { t with restoredAt := true }
      else t }

def mergeByMode (m : Mirror) (op : Op) (uid : String) (entityHlc : Hlc) : Mirror :=
  match op.kind.mergeMode with
  | .field => m.applyFields op uid
  | .entity => m.applyEntity op uid entityHlc

def applyUpsert (m : Mirror) (op : Op) (uid : String) : Mirror :=
  let entity := m.row op.kind uid
  if entity.deleted then
    let deleteHlc := entity.deletedHlc.getD Hlc.zero
    let restoredHlc := entity.restoredHlc.getD Hlc.zero
    if ¬op.restore then
      m.recordConflict op.kind uid "__deleted__" (.str "deleted") op.fields.toValue deleteHlc op.hlc
    else if restoredHlc > op.hlc ∨ deleteHlc ≥ op.hlc then
      m.recordConflict op.kind uid "__restore__" (.str "deleted") op.fields.toValue deleteHlc op.hlc
    else
      let m := m.setRow op.kind uid { entity with deleted := false, restoredClock := some op.hlc }
      (m.closeTrash op.kind uid).mergeByMode op uid entity.hlc
  else m.mergeByMode op uid entity.hlc

/-- `INSERT INTO sync_trash ... ON CONFLICT DO NOTHING`. -/
def insertTrash (m : Mirror) (t : TrashRow) : Mirror :=
  if m.trash.any fun t' =>
      t'.kind == t.kind && t'.entityUid == t.entityUid && t'.deletedClock == t.deletedClock then m
  else { m with trash := m.trash ++ [t] }

def applyDelete (m : Mirror) (op : Op) (uid : String) (bookUid : Option String) : Mirror :=
  let entity := m.row op.kind uid
  if entity.deleted then m
  else if entity.restoredHlc.getD Hlc.zero > op.hlc then m
  else
    let dead := { entity with deleted := true, deletedClock := some op.hlc }
    match op.kind.mergeMode with
    | .entity => if op.hlc < entity.hlc then m else m.setRow op.kind uid dead
    | .field =>
      let prior := m.loadStateTx op.kind uid
      let prior := match prior.allNull, op.prior with
        | true, some opPrior => canonicalFromSnapshot op.kind opPrior
        | _, _ => prior
      (m.setRow op.kind uid dead).insertTrash ⟨op.kind, uid, bookUid, prior, op.hlc, false⟩

/-- The key of the mirror row that a state operation writes. -/
def stateKey (m : Mirror) (op : Op) : Except AppError String :=
  match op.kind with
  | .collection => .ok (m.canonicalEntityUid op.kind op.entityUid)
  | .membership =>
    match splitOnce ':' op.entityUid with
    | some (collection, book) =>
      .ok (m.canonicalEntityUid .collection collection ++ ":" ++ m.canonicalBookUid book)
    | none => .error (.invalidInput "bad membership uid")
  | _ => .ok op.entityUid

/-- Create the row of an entity, or refresh its book uid. -/
def touchRow (m : Mirror) (kind : EntityKind) (uid : String) (bookUid : Option String) : Mirror :=
  m.setRow kind uid { m.row kind uid with bookUid := bookUid.or (m.row kind uid).bookUid }

def applyStateOp (m : Mirror) (op : Op) : Mirror × Except AppError (List Affected) :=
  let bookUid := op.bookUid.map m.canonicalBookUid
  match m.stateKey op with
  | .error e => (m, .error e)
  | .ok uid =>
    let m := m.touchRow op.kind uid bookUid
    let m := if op.deleted then m.applyDelete op uid bookUid else m.applyUpsert op uid
    (m, .ok [⟨op.kind, uid, bookUid⟩])

/-! ## Identity operations -/

/-- The uid an alias already has for this hash, once a forgotten owner is replaced. -/
def existingAlias (m : Mirror) (contentHash : String) : Option String :=
  match m.aliases.lookup contentHash with
  | some existing =>
    match m.forgottenReplacement existing with
    | some (some replacement) => some replacement
    | some none => none
    | none => some (m.canonicalBookUid existing)
  | none => none

/-- The two merges of `apply_identity` and the uid they agree on. -/
def unifyAlias (m : Mirror) (existing : Option String) (incoming : String) : Mirror × String :=
  match existing with
  | some existing =>
    let canonical := min existing incoming
    let m := if existing ≠ canonical then m.mergeBookIdentity existing canonical else m
    (if canonical ≠ incoming then m.mergeBookIdentity incoming canonical else m, canonical)
  | none => (m, incoming)

def applyIdentity (m : Mirror) (op : Op) : Mirror × Except AppError (List Affected) :=
  match (op.fields.lookup "content_hash").bind Value.asStr with
  | none => (m, .error (.invalidInput "identity op is missing content_hash"))
  | some contentHash =>
    let incoming := m.canonicalBookUid op.entityUid
    let candidate := match m.forgottenReplacement incoming with
      | some (some replacement) => some replacement
      | some none => none
      | none => some incoming
    match candidate with
    | none => (m, .ok [])
    | some incoming =>
      let (m, canonical) := m.unifyAlias (m.existingAlias contentHash) incoming
      ({ m with aliases := m.aliases.insert contentHash canonical },
        .ok [⟨.bookIdentity, canonical, some canonical⟩])

/-! ## Whole-book operations -/

section Book

variable (fromStr : String → Option Value)

/-- The content hashes that a portable snapshot names. -/
def snapshotAliases (snapshot : Option String) : List String :=
  match ((snapshot.bind fromStr).bind (·.get "aliases")).bind Value.asArray with
  | some items => (items.filterMap Value.asStr).filter isHexHash
  | none => []

/-- Point every hash of a snapshot at `uid`. -/
def aliasSnapshot (m : Mirror) (snapshot : Option String) (uid : String) : Mirror :=
  { m with aliases := (snapshotAliases fromStr snapshot).foldl (·.insert · uid) m.aliases }

def dropAliases (m : Mirror) (uid : String) : Mirror :=
  { m with aliases := m.aliases.filterRows fun _ u => u != uid }

/-- The Forget branch of `apply_book`, after its clock checks. -/
def forgetBook (m : Mirror) (op : Op) (bookUid : String) : Mirror :=
  let prior := op.prior.getD ∅
  let replacement := (prior.lookup "replacement_book_uid").bind Value.asStr
  let snapshot := (prior.lookup "snapshot").bind Value.asStr
  let kept := (m.bookTrash.lookup bookUid).bind (·.snapshot)
  let trash : BookTrashRow := ⟨replacement, snapshot.or kept, op.hlc, false, false, Hlc.zero⟩
  let m := { m with bookTrash := m.bookTrash.insert bookUid trash }
  let m := m.setRow .book bookUid { m.row .book bookUid with
    bookUid := some bookUid, hlc := op.hlc, deleted := true, deletedClock := some op.hlc }
  let m := m.dropAliases bookUid
  match replacement with
  | some replacement => m.aliasSnapshot fromStr snapshot replacement
  | none => m

/-- The restore and discard branch of `apply_book`, after its clock checks. -/
def restoreBook (m : Mirror) (op : Op) (bookUid : String) : Mirror :=
  let existing := m.bookTrash.lookup bookUid
  let explicitDiscard := ((op.fields.lookup "discarded").bind Value.asBool).getD false
  let replacement := ((op.fields.lookup "replacement_book_uid").bind Value.asStr).or
    (existing.bind (·.replacement))
  let snapshot := ((op.fields.lookup "snapshot").bind Value.asStr).or
    (existing.bind (·.snapshot))
  let discarded := explicitDiscard || snapshot.isNone
  let trash : BookTrashRow := match existing with
    | none => ⟨replacement, snapshot, op.hlc, true, discarded, op.hlc⟩
    | some row => { row with
        replacement := replacement.or row.replacement
        restoredAt := true
        discarded := discarded
        restoredClock := op.hlc }
  let m := { m with bookTrash := m.bookTrash.insert bookUid trash }
  let m := m.setRow .book bookUid { m.row .book bookUid with
    bookUid := some bookUid, hlc := op.hlc, deleted := discarded, restoredClock := some op.hlc }
  let m := if discarded then m
    else
      let m := match replacement with
        | some replacement => m.dropAliases replacement
        | none => m
      m.aliasSnapshot fromStr snapshot bookUid
  if !explicitDiscard && snapshot.isNone then
    m.recordIssue ("restore-snapshot-missing:" ++ bookUid) "book_snapshot_missing"
  else m

def applyBook (m : Mirror) (op : Op) : Mirror × List Affected :=
  let bookUid := m.canonicalBookUid op.entityUid
  let affected : List Affected := [⟨.book, bookUid, some bookUid⟩]
  match op.deleted, m.bookTrash.lookup bookUid with
  | true, some existing =>
    if existing.deletedClock ≥ op.hlc then (m, [])
    else if existing.restoredClock.stored.any fun restored => restored ≥ op.hlc then (m, [])
    else (m.forgetBook fromStr op bookUid, affected)
  | true, none => (m.forgetBook fromStr op bookUid, affected)
  | false, some existing =>
    if existing.deletedClock > op.hlc then (m, [])
    else if existing.restoredClock.stored.any fun restored => restored > op.hlc then (m, [])
    else (m.restoreBook fromStr op bookUid, affected)
  | false, none => (m.restoreBook fromStr op bookUid, affected)

/-! ## The dispatcher -/

/-- Apply one operation idempotently. -/
def applyOp (m : Mirror) (op : Op) : Mirror × Except AppError (List Affected) :=
  if op.opId ∈ m.appliedOps then (m, .ok [])
  else
    let m := m.observeHlc op.hlc
    if op.kind = .bookIdentity then
      match m.applyIdentity op with
      | (m, .ok affected) => (m.markApplied op, .ok affected)
      | (m, .error e) => (m, .error e)
    else if op.kind = .book then
      let (m, affected) := m.applyBook fromStr op
      (m.markApplied op, .ok affected)
    else if op.bookUid.any fun uid => (m.forgottenReplacement (m.canonicalBookUid uid)).isSome then
      (m.markApplied op, .ok [])
    else
      match m.applyStateOp op with
      | (m, .ok affected) => (m.markApplied op, .ok affected)
      | (m, .error e) => (m, .error e)

/-- Apply a sequence of operations in the order they are received. -/
def applyAll (m : Mirror) (ops : List Op) : Mirror :=
  ops.foldl (fun m op => (m.applyOp fromStr op).1) m

end Book

end Mirror

end TuxBooks
