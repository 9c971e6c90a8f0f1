import TuxBooks.Device.Capture

set_option relaxedAutoImplicit false
set_option autoImplicit false

/-!
# A synchronization pass

`pass_locked` and `sync_remote` of `sidecar/src/sync/engine.rs` around `drain` and `capture_one` of
`sidecar/src/sync/capture.rs`: the identity sweep, the drain of the first 500 dirty markers by row
id, the operation files of the folder, the projection, and a second drain whose failure is ignored.

`write_op` refuses an operation whose encoding is above the size limit. The error ends the capture
and with it the drain and the pass, before a single file of the folder is read, and the marker
stays where it is. So one refused operation stops everything after it in this pass and, as long as
it is refused, in every pass whose batch comes to it.

Some parts stand for what they can do to a device in any way whatsoever: the identity sweep, the
projections and the edits of the user. `encodedLength` is the length that `serde_json` gives an
operation, `share` the portable form of a trash snapshot, which goes through the same library.

## Main definitions

* `TuxBooks.Device.captureOne` — the dispatch of `capture_one` over all kinds.
* `TuxBooks.Device.Refused`, `TuxBooks.Device.captureLimited` — a capture with the limit of
  `write_op`.
* `TuxBooks.SyncEngine`, `TuxBooks.SyncEngine.drain`, `TuxBooks.SyncEngine.syncRemote`,
  `TuxBooks.SyncEngine.passLocked` — the engine and its pass.
* `TuxBooks.SyncEngine.Isolates` — a pass that gets to its remote half with everything published
  that can be.
* `TuxBooks.SyncEngine.Fits` — no operation that the drain comes to is refused.

## Main results

* `TuxBooks.Device.captureLimited_of_refused` — a refused operation is an error.
* `TuxBooks.SyncEngine.passLocked_of_not_fits` — a pass that comes to one reads no file.
* `TuxBooks.SyncEngine.passes_isolate_iff` — over every run, passes isolate failures exactly when
  none of their drains comes to a refused operation.
-/

namespace TuxBooks

open Fallible

/-! ## Capturing any marker -/

/-- `merge::book_lifecycle_state`: whether the mirror has the book as deleted, and whether its
trash entry was closed. -/
def Mirror.bookLifecycleState (m : Mirror) (uid : String) : Bool × Bool :=
  ((m.row .book uid).deleted, ((m.bookTrash.lookup uid).map (·.restoredAt)).getD false)

namespace Device

/-- The snapshot that crosses the sync boundary, with the issues of one that does not. -/
def sharedSnapshot (share : Catalog → String → Except AppError (Option String)) (d : Device)
    (uid action : String) (payload : Fields) : Device × Option String :=
  let r : Device × Option String := match (payload.lookup "snapshot_json").bind Value.asStr with
    | some raw =>
      match share d.catalog raw with
      | .ok snapshot => (d, snapshot)
      | .error _ => ({ d with
          mirror := d.mirror.recordIssue ("book-snapshot:" ++ uid) "book_snapshot_invalid" }, none)
    | none => (d, none)
  if r.2.isNone ∧ action ≠ "discard" then
    ({ r.1 with mirror :=
        r.1.mirror.recordIssue ("book-snapshot-missing:" ++ uid) "book_snapshot_missing" }, r.2)
  else r

/-- The operation of a Forget, a restore or a discard. -/
def bookOp (stamp : Stamp) (uid action : String) (op : MarkerOp) (snapshot replacement : Value) :
    Op :=
  match op with
  | .delete => buildOp stamp .book uid (some uid) true false ∅ (some (jsonObject
      [("snapshot", snapshot), ("replacement_book_uid", replacement), ("discarded", .null)]))
  | .upsert => buildOp stamp .book uid (some uid) false true (jsonObject
      (if action = "discard" then [("discarded", .bool true), ("snapshot", .null),
          ("replacement_book_uid", replacement)]
        else [("snapshot", snapshot), ("discarded", .bool false),
          ("replacement_book_uid", replacement)])) none

section

variable (jsonReal : ℚ → Value) (fromStr : String → Option Value)
variable (share : Catalog → String → Except AppError (Option String))

/-- `write_and_apply` of an operation that `build_op` makes. -/
def publish (d : Device) (draw : Draw) (op : Stamp → Op) :
    (Device × Option Op) × Except AppError Unit :=
  match draw.stamp with
  | .error e => ((d, none), .error e)
  | .ok stamp => d.writeAndApply jsonReal fromStr (op stamp)

/-- A marker of a content hash. -/
def captureAlias (d : Device) (key : DirtyKey) (marker : Marker) (draw : Draw) :
    (Device × Option Op) × Except AppError Captured :=
  match aliasOf marker with
  | none => d.skip key marker
  | some (contentHash, uid) => settle key marker (d.publish jsonReal fromStr draw fun stamp =>
      identityOp stamp contentHash (d.mirror.canonicalBookUid uid))

/-- A marker of a book that was forgotten or restored. -/
def captureBook (d : Device) (key : DirtyKey) (uid : String) (marker : Marker) (draw : Draw) :
    (Device × Option Op) × Except AppError Captured :=
  match marker.snapshot with
  | none => d.skip key marker
  | some payload =>
    let replacement := Value.ofText ((payload.lookup "replacement_book_uid").bind Value.asStr)
    let action := ((payload.lookup "action").bind Value.asStr).getD "restore"
    let echo := match marker.op with
      | .delete => (d.mirror.bookLifecycleState uid).1
      | .upsert => (d.mirror.bookLifecycleState uid).2
    -- the projection of a remote lifecycle operation fires this marker again
    if echo then d.skip key marker
    else
      let r := d.sharedSnapshot share uid action payload
      settle key marker (r.1.publish jsonReal fromStr draw fun stamp =>
        bookOp stamp uid action marker.op (.ofText r.2) replacement)

/-- `capture_one`. -/
def captureOne (d : Device) (key : DirtyKey) (marker : Marker) (draw : Draw) :
    (Device × Option Op) × Except AppError Captured :=
  match key with
  | .bookIdentity _ => d.captureAlias jsonReal fromStr key marker draw
  | .book uid => d.captureBook jsonReal fromStr share key uid marker draw
  | _ => d.captureState jsonReal fromStr key marker draw

/-! ## The limit on an operation -/

variable (encodedLength : Op → ℕ)

/-- The operation that the capture of a marker writes is above the limit of `write_op`. -/
def Refused (d : Device) (key : DirtyKey) (marker : Marker) (draw : Draw) : Prop :=
  ∃ op ∈ (d.captureOne jsonReal fromStr share key marker draw).1.2,
    maxOpFileBytes < encodedLength op

instance (d : Device) (key : DirtyKey) (marker : Marker) (draw : Draw) :
    Decidable (d.Refused jsonReal fromStr share encodedLength key marker draw) :=
  inferInstanceAs (Decidable (∃ op ∈ (_ : Option Op), _))

/-- The error of `write_op`. -/
def tooLarge : AppError := .invalidInput "sync operation is larger than the 1 MiB limit"

/-- `capture_one` with the limit of `write_op`. -/
def captureLimited (d : Device) (key : DirtyKey) (marker : Marker) (draw : Draw) :
    (Device × Option Op) × Except AppError Captured :=
  if d.Refused jsonReal fromStr share encodedLength key marker draw then
    d.captureOne jsonReal fromStr share key marker { draw with stamp := .error tooLarge }
  else d.captureOne jsonReal fromStr share key marker draw

end

/-! ## A refused operation is an error -/

section

variable {jsonReal : ℚ → Value} {fromStr : String → Option Value}
variable {share : Catalog → String → Except AppError (Option String)} {encodedLength : Op → ℕ}
variable {d : Device} {draw : Draw} {op : Op} (e : AppError)

lemma emitState_stamp_error {kind : EntityKind} {uid : String} {bookUid : Option String}
    {deleted restore : Bool} {state : State}
    (h : (d.emitState jsonReal fromStr kind uid bookUid deleted restore state draw).1.2 =
      some op) :
    (d.emitState jsonReal fromStr kind uid bookUid deleted restore state
      { draw with stamp := .error e }).2 = .error e := by
  unfold emitState at h ⊢
  dsimp only at h ⊢
  split_ifs at h ⊢
  · rfl
  · rfl

/-- A capture whose operation is not written ends with the error of the write. -/
lemma settle_error {key : DirtyKey} {marker : Marker}
    {r r' : (Device × Option Op) × Except AppError Unit}
    (h : (settle key marker r).1.2 = some op) (hr : r.1.2 = some op → r'.2 = .error e) :
    (settle key marker r').2 = .error e := by
  have hop : r.1.2 = some op := by
    obtain ⟨⟨d, o⟩, _ | _⟩ := r
    · exact h
    · exact h
  obtain ⟨s, r'⟩ := r'
  rw [show r' = .error e from hr hop]
  rfl

lemma captureBookState_stamp_error {kind : EntityKind} {key : DirtyKey} {uid : String}
    {marker : Marker}
    (h : (d.captureBookState jsonReal fromStr kind key uid marker draw).1.2 = some op) :
    (d.captureBookState jsonReal fromStr kind key uid marker
      { draw with stamp := .error e }).2 = .error e := by
  unfold captureBookState at h ⊢
  split_ifs at h ⊢
  · cases hsnapshot : marker.snapshot with
    | none =>
      rw [hsnapshot] at h
      cases h
    | some snapshot =>
      rw [hsnapshot] at h
      exact settle_error e h (emitState_stamp_error e)
  · cases h

lemma captureMembership_stamp_error {key : DirtyKey} {marker : Marker}
    (h : (d.captureMembership jsonReal fromStr key marker draw).1.2 = some op) :
    (d.captureMembership jsonReal fromStr key marker { draw with stamp := .error e }).2 =
      .error e := by
  unfold captureMembership at h ⊢
  cases hsnapshot : marker.snapshot with
  | none =>
    rw [hsnapshot] at h
    cases h
  | some snapshot =>
    rw [hsnapshot] at h
    dsimp only at h ⊢
    generalize (snapshot.lookup "book_uid").bind Value.asStr = book at h ⊢
    generalize (snapshot.lookup "collection_id").bind Value.asI64 = shelf at h ⊢
    obtain _ | uid := book
    · cases h
    obtain _ | id := shelf
    · cases h
    dsimp only at h ⊢
    split_ifs at h ⊢
    · cases h
    · generalize d.resolveLocalUid (collectionUid id) (storeCollectionUid id) none false
        draw.freshUid = r at h ⊢
      obtain ⟨d₁, _ | collection⟩ := r
      · cases h
      · exact settle_error e h (emitState_stamp_error e)

lemma captureCollection_stamp_error {key : DirtyKey} {id : ℤ} {marker : Marker}
    (h : (d.captureCollection jsonReal fromStr key id marker draw).1.2 = some op) :
    (d.captureCollection jsonReal fromStr key id marker { draw with stamp := .error e }).2 =
      .error e := by
  unfold captureCollection at h ⊢
  cases hsnapshot : marker.snapshot with
  | none =>
    rw [hsnapshot] at h
    cases h
  | some snapshot =>
    rw [hsnapshot] at h
    dsimp only at h ⊢
    generalize d.resolveLocalUid (collectionUid id) (storeCollectionUid id)
      ((snapshot.lookup "sync_uid").bind Value.asStr) (marker.op == .delete)
      draw.freshUid = r at h ⊢
    obtain ⟨d₁, _ | uid⟩ := r
    · cases h
    · exact settle_error e h (emitState_stamp_error e)

lemma captureAnnotation_stamp_error {key : DirtyKey} {id : ℤ} {marker : Marker}
    (h : (d.captureAnnotation jsonReal fromStr key id marker draw).1.2 = some op) :
    (d.captureAnnotation jsonReal fromStr key id marker { draw with stamp := .error e }).2 =
      .error e := by
  unfold captureAnnotation at h ⊢
  cases hsnapshot : marker.snapshot with
  | none =>
    rw [hsnapshot] at h
    cases h
  | some snapshot =>
    rw [hsnapshot] at h
    dsimp only at h ⊢
    generalize (snapshot.lookup "book_uid").bind Value.asStr = book at h ⊢
    obtain _ | bookUid := book
    · cases h
    dsimp only at h ⊢
    generalize d.resolveLocalUid (fun c => (c.annotations.lookup id).bind (·.syncUid))
      (storeAnnotationUid jsonReal id) ((snapshot.lookup "sync_uid").bind Value.asStr)
      (marker.op == .delete) draw.freshUid = r at h ⊢
    obtain ⟨d₁, _ | uid⟩ := r
    · cases h
    · exact settle_error e h (emitState_stamp_error e)

/-- A capture that wrote an operation ends with the error when the write fails. -/
lemma captureOne_stamp_error {key : DirtyKey} {marker : Marker}
    (h : (d.captureOne jsonReal fromStr share key marker draw).1.2 = some op) :
    (d.captureOne jsonReal fromStr share key marker { draw with stamp := .error e }).2 =
      .error e := by
  cases key with
  | progress uid => exact captureBookState_stamp_error e h
  | metadata uid => exact captureBookState_stamp_error e h
  | opened uid => exact captureBookState_stamp_error e h
  | membership uid id => exact captureMembership_stamp_error e h
  | collection id => exact captureCollection_stamp_error e h
  | annotation id => exact captureAnnotation_stamp_error e h
  | bookIdentity contentHash =>
    change (d.captureAlias jsonReal fromStr _ marker draw).1.2 = some op at h
    change (d.captureAlias jsonReal fromStr _ marker _).2 = .error e
    unfold captureAlias at h ⊢
    generalize aliasOf marker = known at h ⊢
    obtain _ | ⟨contentHash, uid⟩ := known
    · cases h
    · exact settle_error e h fun _ => rfl
  | book uid =>
    change (d.captureBook jsonReal fromStr share _ uid marker draw).1.2 = some op at h
    change (d.captureBook jsonReal fromStr share _ uid marker _).2 = .error e
    unfold captureBook at h ⊢
    cases hsnapshot : marker.snapshot with
    | none =>
      rw [hsnapshot] at h
      cases h
    | some payload =>
      rw [hsnapshot] at h
      dsimp only at h ⊢
      split_ifs at h ⊢
      · cases h
      · exact settle_error e h fun _ => rfl

/-- **A refused operation is an error of its capture.** -/
theorem captureLimited_of_refused {key : DirtyKey} {marker : Marker}
    (h : d.Refused jsonReal fromStr share encodedLength key marker draw) :
    (d.captureLimited jsonReal fromStr share encodedLength key marker draw).2 =
      .error tooLarge := by
  rw [captureLimited, if_pos h]
  obtain ⟨op, hop, -⟩ := h
  exact captureOne_stamp_error tooLarge hop

lemma captureLimited_of_not_refused {key : DirtyKey} {marker : Marker}
    (h : ¬d.Refused jsonReal fromStr share encodedLength key marker draw) :
    d.captureLimited jsonReal fromStr share encodedLength key marker draw =
      d.captureOne jsonReal fromStr share key marker draw := if_neg h

end

end Device

/-! ## The engine -/

/-- What the engine of a device has: the mirror and the tables of the sync folder in `inbox`, the
catalog, and what it wrote to the folder. -/
structure SyncEngine where
  inbox : Inbox := {}
  catalog : Catalog := {}
  /-- The keys of `sync_dirty` by row id. -/
  order : List DirtyKey := []
  /-- The operation files it wrote. -/
  written : List Op := []

/-- `CaptureReport`. -/
structure CaptureReport where
  written : ℕ := 0
  pendingIdentity : ℕ := 0

/-- One more marker captured. -/
def CaptureReport.add (report : CaptureReport) : Captured → CaptureReport
  | .written => { report with written := report.written + 1 }
  | .pendingIdentity => { report with pendingIdentity := report.pendingIdentity + 1 }
  | .skipped => report

/-- `CAPTURE_BATCH`. -/
def captureBatch : ℕ := 500

/-- What a pass gets from outside, and what its parts do that are open here. -/
structure PassInput where
  /-- The baseline and the identity sweep. -/
  sweep : Device → Device × Except AppError Unit
  /-- The second identity sweep. -/
  sweepAgain : Device → Device × Except AppError Unit
  /-- What the capture of each marker draws. -/
  draws : DirtyKey → Draw
  /-- The sync folder. -/
  root : Folder
  /-- The error that the file system reports for the copy of a cover. -/
  io : String → Option AppError
  /-- The projection of what `sync_remote` read. -/
  project : Pass → Device → Device × Except AppError Unit
  reproject : Device → Device × Except AppError Unit
  /-- What the second drain draws. -/
  echoDraws : DirtyKey → Draw

namespace SyncEngine

/-- The mirror and the catalog. -/
def device (s : SyncEngine) : Device := ⟨s.inbox.mirror, s.catalog⟩

/-- Row ids after a change: overwritten markers keep theirs, new ones come last. -/
def reorder (order : List DirtyKey) (dirty : Table DirtyKey Marker) : List DirtyKey :=
  order.filter (· ∈ dirty) ++ dirty.keys.reverse.filter (· ∉ order)

/-- The device changed, and these operations were written to the folder. -/
def write (s : SyncEngine) (d : Device) (ops : List Op) : SyncEngine where
  inbox := { s.inbox with mirror := d.mirror }
  catalog := d.catalog
  order := reorder s.order d.catalog.dirty
  written := s.written ++ ops

/-- A part of the pass that works on the device. -/
def onDevice (s : SyncEngine) (f : Device → Device × Except AppError Unit) :
    SyncEngine × Except AppError Unit :=
  (s.write (f s.device).1 [], (f s.device).2)

/-- The query of `drain`. -/
def batch (s : SyncEngine) : List (DirtyKey × Marker) :=
  (s.order.take captureBatch).filterMap fun key =>
    (s.catalog.dirty.lookup key).map fun marker => (key, marker)

section

variable (jsonReal : ℚ → Value) (fromStr : String → Option Value)
variable (share : Catalog → String → Except AppError (Option String)) (encodedLength : Op → ℕ)

/-! ## Capture -/

/-- One iteration of the loop of `drain`. -/
def captureNext (s : SyncEngine) (row : DirtyKey × Marker) (draw : Draw) :
    SyncEngine × Except AppError Captured :=
  let r := s.device.captureLimited jsonReal fromStr share encodedLength row.1 row.2 draw
  (s.write r.1.1 r.1.2.toList, r.2)

/-- The loop of `drain`: an error ends it. -/
def drainRows (draws : DirtyKey → Draw) : SyncEngine → CaptureReport →
    List (DirtyKey × Marker) → SyncEngine × Except AppError CaptureReport
  | s, report, [] => (s, .ok report)
  | s, report, row :: rows =>
    andThen (s.captureNext jsonReal fromStr share encodedLength row (draws row.1))
      fun s captured => drainRows draws s (report.add captured) rows

def drain (s : SyncEngine) (draws : DirtyKey → Draw) :
    SyncEngine × Except AppError CaptureReport :=
  s.drainRows jsonReal fromStr share encodedLength draws {} s.batch

/-- The first half of a pass, with a drain: what comes before the files of the folder. -/
def firstHalf (drain : SyncEngine → SyncEngine × Except AppError CaptureReport)
    (i : PassInput) (s : SyncEngine) : SyncEngine × Except AppError Unit :=
  andThen (s.onDevice i.sweep) fun s _ =>
  andThen (drain s) fun s report =>
  if report.pendingIdentity > 0 then s.onDevice i.sweepAgain else (s, .ok ())

/-! ## The remote half -/

/-- The loop of `sync_remote` over the files that `scan_ops` lists. -/
def readFiles (i : PassInput) : SyncEngine → Pass → List (String × OpFile) →
    SyncEngine × Except AppError Pass
  | s, p, [] => (s, .ok p)
  | s, p, (path, f) :: rest =>
    if s.inbox.isProcessed path f then readFiles i s p rest
    else if p.processed ≥ remoteBatch then (s, .ok p)
    else match f.content with
      | .error _ => readFiles i { s with inbox := s.inbox.recordFileFailure path f }
          { p with processed := p.processed + 1 } rest
      | .ok op =>
        let r := s.inbox.resolveCover i.root (i.io path) op
        let s := { s with inbox := r.1 }
        let applied := s.device.applyOp jsonReal fromStr r.2.handed
        andThen (s.write applied.1 [], applied.2) fun s affected =>
          readFiles i s (p.add s.inbox.mirror path f r.2.handed affected) rest

/-- `sync_remote`: read, project, and mark what was read. -/
def syncRemote (i : PassInput) (s : SyncEngine) : SyncEngine × Except AppError Unit :=
  andThen (readFiles jsonReal fromStr i s { rest := i.root.scanOps } i.root.scanOps) fun s p =>
  andThen (s.onDevice (i.project p)) fun s _ =>
    ({ s with inbox := { s.inbox with files := p.marks.foldl Inbox.markFile s.inbox.files } },
      .ok ())

/-- What comes after the first half. The second drain is about the markers that the projection
fired, and its failure does not count. -/
def secondHalf (i : PassInput) (s : SyncEngine) : SyncEngine × Except AppError Unit :=
  andThen (s.syncRemote jsonReal fromStr i) fun s _ =>
  andThen (s.onDevice i.reproject) fun s _ =>
    ((s.drain jsonReal fromStr share encodedLength i.echoDraws).1, .ok ())

/-- `pass_locked` of an engine that is connected. -/
def passLocked (i : PassInput) (s : SyncEngine) : SyncEngine × Except AppError Unit :=
  andThen (s.firstHalf (·.drain jsonReal fromStr share encodedLength i.draws) i) fun s _ =>
    s.secondHalf jsonReal fromStr share encodedLength i

/-! ## Isolated failures -/

/-- The drain that a refused operation does not concern: its marker is passed over, and the others
are captured. -/
def drainOthers (draws : DirtyKey → Draw) : SyncEngine → CaptureReport →
    List (DirtyKey × Marker) → SyncEngine × Except AppError CaptureReport
  | s, report, [] => (s, .ok report)
  | s, report, row :: rows =>
    if s.device.Refused jsonReal fromStr share encodedLength row.1 row.2 (draws row.1) then
      drainOthers draws s report rows
    else andThen (s.captureNext jsonReal fromStr share encodedLength row (draws row.1))
      fun s captured => drainOthers draws s (report.add captured) rows

/-- The first half of a pass that passes over refused operations. -/
def firstHalfOthers (i : PassInput) (s : SyncEngine) : SyncEngine × Except AppError Unit :=
  s.firstHalf (fun s => s.drainOthers jsonReal fromStr share encodedLength i.draws {} s.batch) i

/-- Nothing but refused operations keeps the pass from its remote half. -/
def Works (i : PassInput) (s : SyncEngine) : Prop :=
  (s.firstHalfOthers jsonReal fromStr share encodedLength i).2 = .ok ()

/-- The pass gets to its remote half, with what the drain of the other markers leaves. -/
def Isolates (i : PassInput) (s : SyncEngine) : Prop :=
  ∃ s', s.firstHalf (·.drain jsonReal fromStr share encodedLength i.draws) i = (s', .ok ()) ∧
    s.firstHalfOthers jsonReal fromStr share encodedLength i = (s', .ok ())

/-- No operation that the loop of `drain` comes to is refused. -/
def FitRows (draws : DirtyKey → Draw) : SyncEngine → List (DirtyKey × Marker) → Prop
  | _, [] => True
  | s, row :: rows =>
    ¬s.device.Refused jsonReal fromStr share encodedLength row.1 row.2 (draws row.1) ∧
      FitRows draws (s.captureNext jsonReal fromStr share encodedLength row (draws row.1)).1 rows

/-- No operation that the drain of the pass comes to is refused. -/
def Fits (i : PassInput) (s : SyncEngine) : Prop :=
  (s.onDevice i.sweep).1.FitRows jsonReal fromStr share encodedLength i.draws
    (s.onDevice i.sweep).1.batch

end

section

variable {jsonReal : ℚ → Value} {fromStr : String → Option Value}
variable {share : Catalog → String → Except AppError (Option String)} {encodedLength : Op → ℕ}

/-- A drain that comes to no refused operation is the one that passes over them. -/
lemma drainRows_of_fitRows {draws : DirtyKey → Draw} (rows : List (DirtyKey × Marker))
    (s : SyncEngine) (report : CaptureReport)
    (h : s.FitRows jsonReal fromStr share encodedLength draws rows) :
    s.drainRows jsonReal fromStr share encodedLength draws report rows =
      s.drainOthers jsonReal fromStr share encodedLength draws report rows := by
  induction rows generalizing s report with
  | nil => rfl
  | cons row rows ih =>
    obtain ⟨hfits, hrest⟩ := h
    rw [drainRows, drainOthers, if_neg hfits]
    generalize s.captureNext jsonReal fromStr share encodedLength row (draws row.1) = r at hrest ⊢
    obtain ⟨s₁, e | captured⟩ := r
    · rfl
    · exact ih s₁ (report.add captured) hrest

/-- A drain that comes to a refused operation ends with its error, unless it fails before. -/
lemma drainRows_of_not_fitRows {draws : DirtyKey → Draw} (rows : List (DirtyKey × Marker))
    (s : SyncEngine) (report report' : CaptureReport)
    (h : ¬s.FitRows jsonReal fromStr share encodedLength draws rows)
    (hworks : (s.drainOthers jsonReal fromStr share encodedLength draws report rows).2 =
      .ok report') :
    (s.drainRows jsonReal fromStr share encodedLength draws report rows).2 =
      .error Device.tooLarge := by
  induction rows generalizing s report with
  | nil => exact absurd trivial h
  | cons row rows ih =>
    rw [drainRows]
    by_cases hrefused :
      s.device.Refused jsonReal fromStr share encodedLength row.1 row.2 (draws row.1)
    · have herror : (s.captureNext jsonReal fromStr share encodedLength row (draws row.1)).2 =
          .error Device.tooLarge := Device.captureLimited_of_refused hrefused
      generalize s.captureNext jsonReal fromStr share encodedLength row (draws row.1) = r
        at herror ⊢
      obtain ⟨s₁, r⟩ := r
      cases herror
      rfl
    · rw [drainOthers, if_neg hrefused, andThen_eq_ok] at hworks
      obtain ⟨captured, hok, hworks⟩ := hworks
      rw [andThen_of_ok hok]
      exact ih _ _ (fun hrest => h ⟨hrefused, hrest⟩) hworks

variable {i : PassInput} {s : SyncEngine}

/-- A first half that comes to no refused operation is the one that passes over them. -/
lemma firstHalf_of_fits (hworks : s.Works jsonReal fromStr share encodedLength i)
    (hfits : s.Fits jsonReal fromStr share encodedLength i) :
    s.firstHalf (·.drain jsonReal fromStr share encodedLength i.draws) i =
      s.firstHalfOthers jsonReal fromStr share encodedLength i := by
  obtain ⟨_, hsweep, -⟩ := andThen_eq_ok.mp hworks
  rw [firstHalfOthers, firstHalf, firstHalf, andThen_of_ok hsweep, andThen_of_ok hsweep, drain,
    drainRows_of_fitRows _ _ _ hfits]

lemma firstHalf_of_not_fits (hworks : s.Works jsonReal fromStr share encodedLength i)
    (hfits : ¬s.Fits jsonReal fromStr share encodedLength i) :
    (s.firstHalf (·.drain jsonReal fromStr share encodedLength i.draws) i).2 =
      .error Device.tooLarge := by
  obtain ⟨_, hsweep, hrest⟩ := andThen_eq_ok.mp hworks
  obtain ⟨report, hdrain, -⟩ := andThen_eq_ok.mp hrest
  have herror := drainRows_of_not_fitRows _ _ _ _ hfits hdrain
  rw [firstHalf, andThen_of_ok hsweep, drain]
  generalize (s.onDevice i.sweep).1.drainRows jsonReal fromStr share encodedLength i.draws {}
    (s.onDevice i.sweep).1.batch = r at herror ⊢
  obtain ⟨s₁, r⟩ := r
  cases herror
  rfl

/-- **A pass isolates failures exactly when its drain comes to no refused operation**, if nothing
else fails. -/
theorem isolates_iff_fits (hworks : s.Works jsonReal fromStr share encodedLength i) :
    s.Isolates jsonReal fromStr share encodedLength i ↔
      s.Fits jsonReal fromStr share encodedLength i := by
  constructor
  · rintro ⟨s', hhalf, -⟩
    by_contra hfits
    have herror := firstHalf_of_not_fits hworks hfits
    rw [hhalf] at herror
    cases herror
  · intro hfits
    refine ⟨(s.firstHalfOthers jsonReal fromStr share encodedLength i).1, ?_, ?_⟩
    · rw [firstHalf_of_fits hworks hfits, ← hworks]
    · rw [← hworks]

/-- A pass that isolates failures goes on with its remote half. -/
lemma passLocked_of_isolates (h : s.Isolates jsonReal fromStr share encodedLength i) :
    ∃ s', s.firstHalfOthers jsonReal fromStr share encodedLength i = (s', .ok ()) ∧
      s.passLocked jsonReal fromStr share encodedLength i =
        s'.secondHalf jsonReal fromStr share encodedLength i := by
  obtain ⟨s', hhalf, hothers⟩ := h
  refine ⟨s', hothers, ?_⟩
  rw [passLocked, hhalf, andThen_ok]

lemma files_drainRows {draws : DirtyKey → Draw} (rows : List (DirtyKey × Marker))
    (s : SyncEngine) (report : CaptureReport) :
    (s.drainRows jsonReal fromStr share encodedLength draws report rows).1.inbox.files =
      s.inbox.files := by
  induction rows generalizing s report with
  | nil => rfl
  | cons row rows ih =>
    rw [drainRows]
    exact andThen_split (Q := fun s' : SyncEngine => s'.inbox.files = s.inbox.files)
      (fun _ _ => rfl) fun _ _ => ih _ _

/-- A pass that comes to a refused operation ends before it reads a file of the folder. -/
theorem passLocked_of_not_fits (hworks : s.Works jsonReal fromStr share encodedLength i)
    (hfits : ¬s.Fits jsonReal fromStr share encodedLength i) :
    (s.passLocked jsonReal fromStr share encodedLength i).2 = .error Device.tooLarge ∧
      (s.passLocked jsonReal fromStr share encodedLength i).1.inbox.files = s.inbox.files := by
  have herror := firstHalf_of_not_fits hworks hfits
  have hfiles : (s.firstHalf (·.drain jsonReal fromStr share encodedLength i.draws)
      i).1.inbox.files = s.inbox.files := by
    refine andThen_split (Q := fun s' : SyncEngine => s'.inbox.files = s.inbox.files)
      (fun _ _ => rfl) fun _ _ => ?_
    refine andThen_split (Q := fun s' : SyncEngine => s'.inbox.files = s.inbox.files)
      (fun _ _ => files_drainRows _ _ _) fun report _ => ?_
    split_ifs
    · exact files_drainRows _ _ _
    · exact files_drainRows _ _ _
  rw [passLocked]
  generalize s.firstHalf (·.drain jsonReal fromStr share encodedLength i.draws) i = r at *
  obtain ⟨s₁, r⟩ := r
  cases herror
  exact ⟨rfl, hfiles⟩

end

/-! ## Runs -/

/-- What happens to an engine: the library changes, or a pass runs. -/
inductive Event where
  | edit (catalog : Catalog)
  | pass (i : PassInput)

section

variable (jsonReal : ℚ → Value) (fromStr : String → Option Value)
variable (share : Catalog → String → Except AppError (Option String)) (encodedLength : Op → ℕ)

def step (s : SyncEngine) : Event → SyncEngine
  | .edit catalog => s.write { s.device with catalog := catalog } []
  | .pass i => (s.passLocked jsonReal fromStr share encodedLength i).1

/-- Every pass of a run meets `P` in the state it starts in. -/
def Passes (P : PassInput → SyncEngine → Prop) : SyncEngine → List Event → Prop
  | _, [] => True
  | s, event :: events =>
    (match event with
      | .pass i => P i s
      | .edit _ => True) ∧
      Passes P (s.step jsonReal fromStr share encodedLength event) events

end

section

variable {jsonReal : ℚ → Value} {fromStr : String → Option Value}
variable {share : Catalog → String → Except AppError (Option String)} {encodedLength : Op → ℕ}

/-- What two conditions say of each pass, given a third, they say of a run. -/
lemma passes_congr {P Q R : PassInput → SyncEngine → Prop} (h : ∀ i s, P i s → (Q i s ↔ R i s))
    (events : List Event) (s : SyncEngine)
    (hP : s.Passes jsonReal fromStr share encodedLength P events) :
    s.Passes jsonReal fromStr share encodedLength Q events ↔
      s.Passes jsonReal fromStr share encodedLength R events := by
  induction events generalizing s with
  | nil => exact Iff.rfl
  | cons event events ih =>
    obtain ⟨hfirst, hrest⟩ := hP
    refine and_congr ?_ (ih _ hrest)
    cases event with
    | edit catalog => exact Iff.rfl
    | pass i => exact h i s hfirst

/-- **Over every run, passes isolate failures exactly when none of their drains comes to a refused
operation.** -/
theorem passes_isolate_iff (s : SyncEngine) (events : List Event)
    (hworks : s.Passes jsonReal fromStr share encodedLength
      (fun i s => s.Works jsonReal fromStr share encodedLength i) events) :
    s.Passes jsonReal fromStr share encodedLength
        (fun i s => s.Isolates jsonReal fromStr share encodedLength i) events ↔
      s.Passes jsonReal fromStr share encodedLength
        (fun i s => s.Fits jsonReal fromStr share encodedLength i) events :=
  passes_congr (fun _ _ hworks => isolates_iff_fits hworks) events s hworks

end

/-! ## A highlight with a long note -/

/-- The bytes of the note of an operation; its encoding is longer. -/
def noteBytes (op : Op) : ℕ :=
  ((op.fields.lookup "note").bind Value.asStr).elim 0 String.utf8ByteSize

/-- A highlight with a note. -/
def noteRow (note : String) : AnnotationRow where
  bookUid := "book-a"
  syncUid := some "note-a"
  kind := "highlight"
  note := some note
  createdAt := "2026-01-01T00:00:00Z"

def noteMarker (note : String) : Marker := .upsert ((noteRow note).snapshot fun _ => .null)

/-- The marker of a book that was opened. -/
def openedMarker : Marker := .upsert (openedSnapshot (some "2026-01-02T00:00:00Z"))

/-- Two dirty entities, the highlight before the book. -/
def noted (note : String) : SyncEngine where
  catalog :=
    { records := (∅ : Table String RecordRow).insert "book-a"
        { createdAt := "2026-01-01T00:00:00Z", values := { title := some "A" } }
      annotations := (∅ : Table ℤ AnnotationRow).insert 1 (noteRow note)
      dirty := ((∅ : Table DirtyKey Marker).insert (DirtyKey.annotation 1) (noteMarker note)).insert
        (.opened "book-a") openedMarker }
  order := [DirtyKey.annotation 1, .opened "book-a"]

/-- What one capture draws. -/
def sampleDraw (wall : ℤ) : Draw where
  stamp := .ok ⟨"00000000000000000000000000000001",
    ⟨wall, 0, "0000000000000000000000000000000a"⟩, "2026-01-02T00:00:00Z"⟩

/-- A pass in which nothing fails of itself. -/
def quietPass : PassInput where
  sweep d := (d, .ok ())
  sweepAgain d := (d, .ok ())
  draws _ := sampleDraw 1000
  root := {}
  io _ := none
  project _ d := (d, .ok ())
  reproject d := (d, .ok ())
  echoDraws _ := sampleDraw 2000

/-- A note that is longer than an operation may be. -/
def longNote : String := String.ofList (List.replicate (maxOpFileBytes + 1) 'a')

lemma lt_utf8ByteSize_longNote : maxOpFileBytes < longNote.utf8ByteSize := by
  have hbytes : ∀ n : ℕ, (String.ofList (List.replicate n 'a')).utf8ByteSize = n := by
    intro n
    rw [String.utf8ByteSize_ofList]
    induction n with
    | zero => rfl
    | succ n ih =>
      rw [List.replicate_succ, String.utf8Len_cons, ih]
      rfl
  rw [longNote, hbytes]
  omega

section

variable {note : String} (hnote : maxOpFileBytes < note.utf8ByteSize)

include hnote in
lemma refused_noted :
    (noted note).device.Refused (fun _ => .null) (fun _ => none) (fun _ _ => .ok none) noteBytes
      (DirtyKey.annotation 1) (noteMarker note) (quietPass.draws (DirtyKey.annotation 1)) := by
  have hprevious : ((noted note).device.mirror.loadState EntityKind.annotation
      "note-a").1.lookup "note" = some .null :=
    (Table.lookup_ofKeys _ _ _).trans (if_pos (by decide))
  have hcurrent : (canonicalFromSnapshot EntityKind.annotation
      ((noteRow note).snapshot fun _ => .null)).lookup "note" = some (.str note) := by
    rw [lookup_canonicalFromSnapshot, if_pos (by decide)]
    simp [AnnotationRow.snapshot, jsonObject, noteRow, Value.ofText]
  refine ⟨_, rfl, lt_of_lt_of_eq hnote ?_⟩
  change _ = (((changedFields ((noted note).device.mirror.loadState EntityKind.annotation
    "note-a").1 (canonicalFromSnapshot EntityKind.annotation
      ((noteRow note).snapshot fun _ => .null))).lookup "note").bind Value.asStr).elim 0 _
  rw [lookup_changedFields, hcurrent, hprevious]
  rfl

lemma not_refused_opened (note : String) :
    ¬(noted note).device.Refused (fun _ => .null) (fun _ => none) (fun _ _ => .ok none) noteBytes
      (.opened "book-a") openedMarker (quietPass.draws (.opened "book-a")) := by
  rintro ⟨op, hop, hlong⟩
  cases hop
  exact absurd hlong (Nat.not_lt.mpr (Nat.zero_le _))

lemma batch_noted (note : String) :
    (noted note).batch =
      [(DirtyKey.annotation 1, noteMarker note), (.opened "book-a", openedMarker)] := rfl

lemma onDevice_sweep_noted (note : String) :
    (noted note).onDevice quietPass.sweep = (noted note, .ok ()) := rfl

include hnote in
/-- The first half ends at the highlight and changes nothing. -/
lemma firstHalf_noted :
    (noted note).firstHalf (·.drain (fun _ => .null) (fun _ => none) (fun _ _ => .ok none) noteBytes
      quietPass.draws) quietPass = (noted note, .error Device.tooLarge) := by
  have hcapture : (noted note).captureNext (fun _ => .null) (fun _ => none)
      (fun _ _ => .ok none) noteBytes (DirtyKey.annotation 1, noteMarker note)
      (quietPass.draws (DirtyKey.annotation 1)) = (noted note, .error Device.tooLarge) := by
    rw [captureNext]
    dsimp only
    rw [Device.captureLimited, if_pos (refused_noted hnote)]
    rfl
  rw [firstHalf, onDevice_sweep_noted, andThen_ok, drain, batch_noted, drainRows, hcapture,
    andThen_error, andThen_error]

include hnote in
lemma works_noted :
    (noted note).Works (fun _ => .null) (fun _ => none) (fun _ _ => .ok none) noteBytes
      quietPass := by
  have hopened := not_refused_opened note
  have hcapture : ((noted note).captureNext (fun _ => .null) (fun _ => none)
      (fun _ _ => .ok none) noteBytes (.opened "book-a", openedMarker)
      (quietPass.draws (.opened "book-a"))).2 = .ok .written := by
    rw [captureNext]
    dsimp only
    rw [Device.captureLimited, if_neg hopened]
    rfl
  rw [Works, firstHalfOthers, firstHalf, onDevice_sweep_noted, andThen_ok, batch_noted, drainOthers,
    if_pos (refused_noted hnote), drainOthers, if_neg hopened, andThen_of_ok hcapture]
  rfl

end

/-- A pass over the refused highlight and the opened book. -/
theorem passes_isolate_iff_longNote :
    (noted longNote).Passes (fun _ => .null) (fun _ => none) (fun _ _ => .ok none) noteBytes
        (fun i s => s.Isolates (fun _ => .null) (fun _ => none) (fun _ _ => .ok none) noteBytes i)
        [.pass quietPass] ↔
      (noted longNote).Passes (fun _ => .null) (fun _ => none) (fun _ _ => .ok none) noteBytes
        (fun i s => s.Fits (fun _ => .null) (fun _ => none) (fun _ _ => .ok none) noteBytes i)
        [.pass quietPass] :=
  passes_isolate_iff _ _ ⟨works_noted lt_utf8ByteSize_longNote, trivial⟩

/-- The pass never gets to the book that was opened, nor to its remote half, and leaves the engine
as it was, so every further pass ends the same. -/
theorem not_isolates_longNote :
    (noted longNote).Passes (fun _ => .null) (fun _ => none) (fun _ _ => .ok none) noteBytes
        (fun i s => s.Works (fun _ => .null) (fun _ => none) (fun _ _ => .ok none) noteBytes i)
        [.pass quietPass] ∧
      ¬(noted longNote).Passes (fun _ => .null) (fun _ => none) (fun _ _ => .ok none) noteBytes
        (fun i s => s.Isolates (fun _ => .null) (fun _ => none) (fun _ _ => .ok none) noteBytes i)
        [.pass quietPass] ∧
      (noted longNote).step (fun _ => .null) (fun _ => none) (fun _ _ => .ok none) noteBytes
        (.pass quietPass) = noted longNote := by
  have hhalf := firstHalf_noted lt_utf8ByteSize_longNote
  refine ⟨⟨works_noted lt_utf8ByteSize_longNote, trivial⟩, ?_, ?_⟩
  · rintro ⟨⟨s', hok, -⟩, -⟩
    rw [hhalf] at hok
    cases hok
  · rw [step, passLocked, hhalf]
    rfl

end SyncEngine

end TuxBooks
