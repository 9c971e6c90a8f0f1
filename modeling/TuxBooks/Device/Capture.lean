import TuxBooks.Device.Device
import TuxBooks.Sync.Inbox

set_option relaxedAutoImplicit false
set_option autoImplicit false

/-!
# Draining dirty markers

`sidecar/src/sync/capture.rs` for the kinds of user state: a drain takes the markers its query
returned one by one, turns each snapshot into a canonical state, compares it with the mirror and
publishes the difference as an operation, which is applied here at once.

A marker names its book by uid; the numeric ids that markers of older versions carry instead have
no counterpart here. What a capture reads from outside the database is one argument, `Draw`.

## Main definitions

* `TuxBooks.Draw` — clock, random ids and file system of one capture.
* `TuxBooks.Device.emitState` — publish one state.
* `TuxBooks.Device.captureBookState`, `TuxBooks.Device.captureMembership`,
  `TuxBooks.Device.captureAnnotation`, `TuxBooks.Device.captureCollection` — one marker.
* `TuxBooks.Device.captureState` — the dispatch of `capture_one` over these kinds.
-/

namespace TuxBooks

open Fallible

/-- What one capture gets from outside the database. -/
structure Draw where
  /-- Id, clock and time of the operation that `build_op` makes, or the error that it or
  `write_op` ends with. -/
  stamp : Except AppError Device.Stamp
  /-- The random uid that a row without one gets. -/
  freshUid : String := ""
  /-- Wall-clock time and device id, without a tick of the clock. -/
  now : Hlc := Hlc.zero
  /-- Whether `store_cover_blob` succeeds. -/
  coverStored : Bool := true

/-- The outcome of one capture. -/
inductive Captured where
  | written
  | pendingIdentity
  | skipped
  deriving DecidableEq, Repr

/-- `merge::record_tombstone_conflict`: keep a local edit that met a tombstone. -/
def Mirror.recordTombstoneConflict (m : Mirror) (kind : EntityKind) (uid : String) (loser : State)
    (now : Hlc) : Mirror :=
  if (m.row kind uid).deleted then
    m.recordConflict kind uid "__deleted__" (.str "deleted") loser.toValue
      ((m.row kind uid).deletedClock.getD Hlc.zero) now
  else m

namespace Device

/-- `build_op`. -/
def buildOp (stamp : Stamp) (kind : EntityKind) (uid : String) (bookUid : Option String)
    (deleted restore : Bool) (fields : Fields) (prior : Option Fields) : Op where
  schema := opSchema
  opId := stamp.opId
  deviceId := stamp.hlc.device
  hlc := stamp.hlc
  kind := kind
  entityUid := uid
  bookUid := bookUid
  deleted := deleted
  restore := restore
  fields := fields
  prior := prior
  createdAt := stamp.createdAt

/-- The uid of a row: the one of the snapshot, else the one of the row, else a fresh one, which is
stored in the row. `read` and `store` are the `SELECT` and the `UPDATE`. -/
def resolveLocalUid (d : Device) (read : Catalog → Option String)
    (store : Catalog → String → Catalog) (snapshotUid : Option String) (deleted : Bool)
    (fresh : String) : Device × Option String :=
  match snapshotUid.filter fun uid => isSafeUid uid with
  | some uid => (d, some uid)
  | none =>
    if deleted then (d, none)
    else match read d.catalog with
      | some uid => (d, some uid)
      | none => ({ d with catalog := store d.catalog fresh }, some fresh)

/-- `SELECT sync_uid FROM collections WHERE id = ?`. -/
def collectionUid (id : ℤ) (c : Catalog) : Option String :=
  (c.collections.lookup id).bind (·.syncUid)

/-- `UPDATE collections SET sync_uid = ? WHERE id = ?`. -/
def storeCollectionUid (id : ℤ) (c : Catalog) (uid : String) : Catalog :=
  match c.collections.lookup id with
  | some r => c.putCollection id { r with syncUid := some uid }
  | none => c

section

variable (jsonReal : ℚ → Value)

/-- `UPDATE annotations SET sync_uid = ? WHERE id = ?`. -/
def storeAnnotationUid (id : ℤ) (c : Catalog) (uid : String) : Catalog :=
  match c.annotations.lookup id with
  | some r => c.putAnnotation jsonReal id { r with syncUid := some uid }
  | none => c

variable (fromStr : String → Option Value)

/-! ## Publishing a state -/

/-- Write an operation to the folder and apply it here. The second component is the operation. -/
def writeAndApply (d : Device) (op : Op) : (Device × Option Op) × Except AppError Unit :=
  match d.applyOp jsonReal fromStr op with
  | (d, .ok _) => ((d, some op), .ok ())
  | (d, .error e) => ((d, some op), .error e)

/-- The fields that an operation carries: the whole state, or what changed. -/
def emittedFields (kind : EntityKind) (changed : Fields) (state : State) : Fields :=
  match kind.mergeMode with
  | .entity => state
  | .field => changed

/-- Publish what a state changes; a deleted entity is published as a tombstone. -/
def emitState (d : Device) (kind : EntityKind) (uid : String) (bookUid : Option String)
    (deleted restore : Bool) (state : State) (draw : Draw) :
    (Device × Option Op) × Except AppError Unit :=
  let previous := d.mirror.loadState kind uid
  if deleted then
    if previous.2 || previous.1.allNull then ((d, none), .ok ())
    else match draw.stamp with
      | .error e => ((d, none), .error e)
      | .ok stamp => d.writeAndApply jsonReal fromStr
          (buildOp stamp kind uid bookUid true false ∅ (some previous.1))
  else if previous.2 && !restore then
    (({ d with mirror := d.mirror.recordTombstoneConflict kind uid state draw.now }, none), .ok ())
  else
    let changed := changedFields previous.1 state
    if changed.entries.isEmpty then ((d, none), .ok ())
    else match draw.stamp with
      | .error e => ((d, none), .error e)
      | .ok stamp => d.writeAndApply jsonReal fromStr (buildOp stamp kind uid bookUid false restore
          (emittedFields kind changed state) none)

/-- The end of a capture: the marker is cleared once its state is published. -/
def settle (key : DirtyKey) (marker : Marker) (r : (Device × Option Op) × Except AppError Unit) :
    (Device × Option Op) × Except AppError Captured :=
  andThen r fun s _ => ((s.1.clearMarker key marker, s.2), .ok .written)

/-- A marker that cannot be captured is dropped. -/
def skip (d : Device) (key : DirtyKey) (marker : Marker) :
    (Device × Option Op) × Except AppError Captured :=
  ((d.clearMarker key marker, none), .ok .skipped)

/-! ## One marker -/

/-- The snapshot of metadata names its cover by the name of the file. -/
def publishCover (snapshot : Fields) : Fields :=
  snapshot.insert "cover_path"
    (.ofText (((snapshot.lookup "cover_path").bind Value.asStr).bind coverFileName))

/-- Copy the cover to the folder; a failure is an issue. -/
def storeCover (d : Device) (snapshot : Fields) (stored : Bool) : Device :=
  match ((snapshot.lookup "cover_path").bind Value.asStr).bind coverFileName with
  | some name =>
    if stored then d
    else { d with mirror := d.mirror.recordIssue ("cover:" ++ name) "cover_blob_failed" }
  | none => d

/-- Metadata goes out with its cover. -/
def prepare (d : Device) (kind : EntityKind) (snapshot : Fields) (stored : Bool) :
    Device × Fields :=
  if kind = .metadata then (d.storeCover snapshot stored, publishCover snapshot)
  else (d, snapshot)

/-- A marker of progress, metadata or the last opening. -/
def captureBookState (d : Device) (kind : EntityKind) (key : DirtyKey) (uid : String)
    (marker : Marker) (draw : Draw) : (Device × Option Op) × Except AppError Captured :=
  if ¬d.catalog.hasRecord uid then d.skip key marker
  else match marker.snapshot with
    | none => d.skip key marker
    | some snapshot =>
      let p := d.prepare kind snapshot draw.coverStored
      settle key marker (p.1.emitState jsonReal fromStr kind uid (some uid) (marker.op == .delete)
        false (canonicalFromSnapshot kind p.2) draw)

/-- The state that a membership marker stands for. -/
def membershipState (marker : Marker) (snapshot : Fields) : State :=
  jsonObject [("present", .bool (marker.op != .delete &&
      ((snapshot.lookup "present").bind Value.asBool).getD false)),
    ("added_at", (snapshot.lookup "added_at").getD .null)]

def captureMembership (d : Device) (key : DirtyKey) (marker : Marker) (draw : Draw) :
    (Device × Option Op) × Except AppError Captured :=
  match marker.snapshot with
  | none => d.skip key marker
  | some snapshot =>
    match (snapshot.lookup "book_uid").bind Value.asStr,
        (snapshot.lookup "collection_id").bind Value.asI64 with
    | some uid, some id =>
      if ¬d.catalog.hasRecord uid ∨ (d.catalog.collections.lookup id).isNone then d.skip key marker
      else match d.resolveLocalUid (collectionUid id) (storeCollectionUid id) none false
          draw.freshUid with
        | (d, none) => ((d, none), .ok .pendingIdentity)
        | (d, some collection) =>
          let bookUid := d.mirror.canonicalBookUid uid
          let entityUid := d.mirror.canonicalEntityUid .collection collection ++ ":" ++ bookUid
          settle key marker (d.emitState jsonReal fromStr .membership entityUid (some bookUid) false
            false (membershipState marker snapshot) draw)
    | _, _ => d.skip key marker

def captureAnnotation (d : Device) (key : DirtyKey) (id : ℤ) (marker : Marker) (draw : Draw) :
    (Device × Option Op) × Except AppError Captured :=
  match marker.snapshot with
  | none => d.skip key marker
  | some snapshot =>
    match (snapshot.lookup "book_uid").bind Value.asStr with
    | none => d.skip key marker
    | some bookUid =>
      match d.resolveLocalUid (fun c => (c.annotations.lookup id).bind (·.syncUid))
          (storeAnnotationUid jsonReal id) ((snapshot.lookup "sync_uid").bind Value.asStr)
          (marker.op == .delete) draw.freshUid with
      | (d, none) => d.skip key marker
      | (d, some uid) =>
        settle key marker (d.emitState jsonReal fromStr EntityKind.annotation uid (some bookUid)
          (marker.op == .delete) false (canonicalFromSnapshot EntityKind.annotation snapshot) draw)

def captureCollection (d : Device) (key : DirtyKey) (id : ℤ) (marker : Marker) (draw : Draw) :
    (Device × Option Op) × Except AppError Captured :=
  match marker.snapshot with
  | none => d.skip key marker
  | some snapshot =>
    match d.resolveLocalUid (collectionUid id) (storeCollectionUid id)
        ((snapshot.lookup "sync_uid").bind Value.asStr) (marker.op == .delete) draw.freshUid with
    | (d, none) => d.skip key marker
    | (d, some uid) =>
      settle key marker (d.emitState jsonReal fromStr .collection
        (d.mirror.canonicalEntityUid .collection uid) none (marker.op == .delete) false
        (canonicalFromSnapshot .collection snapshot) draw)

/-- `capture_one` for the kinds of user state. Identity and lifecycle markers are captured
elsewhere. -/
def captureState (d : Device) (key : DirtyKey) (marker : Marker) (draw : Draw) :
    (Device × Option Op) × Except AppError Captured :=
  match key with
  | DirtyKey.annotation id => d.captureAnnotation jsonReal fromStr key id marker draw
  | .collection id => d.captureCollection jsonReal fromStr key id marker draw
  | .progress uid => d.captureBookState jsonReal fromStr .progress key uid marker draw
  | .opened uid => d.captureBookState jsonReal fromStr .opened key uid marker draw
  | .metadata uid => d.captureBookState jsonReal fromStr .metadata key uid marker draw
  | .membership _ _ => d.captureMembership jsonReal fromStr key marker draw
  | .bookIdentity _ | .book _ => ((d, none), .ok .skipped)

end

end Device

end TuxBooks
