import TuxBooks.Catalog.Merge
import TuxBooks.Sync.Merge

set_option relaxedAutoImplicit false
set_option autoImplicit false

/-!
# A device

One machine: its shared-state mirror beside its local catalog, with the parts of
`sidecar/src/sync/identity.rs` and `sidecar/src/sync/merge.rs` that touch both. A merge of two
book identities re-keys the mirror, folds the catalog rows and then recomputes the effective
metadata of the surviving book, which can fail after the rest is committed.

## Main definitions

* `TuxBooks.Device` — mirror and catalog.
* `TuxBooks.Device.mergeBookIdentity`, `TuxBooks.Device.applyIdentity`,
  `TuxBooks.Device.applyOp` — the identity paths on a device.
* `TuxBooks.Device.bindHash` — bind a file row to the hash of its bytes.
* `TuxBooks.Device.captureIdentity` — publish the alias that a dirty marker holds.

## Main results

* `TuxBooks.Device.mirror_mergeBookIdentity`, `TuxBooks.Device.mirror_applyOp` — on the mirror a
  device does what the mirror functions do, unless recomputing metadata stops it earlier.
-/

namespace TuxBooks

open Fallible

/-- One machine. -/
structure Device where
  mirror : Mirror := {}
  catalog : Catalog := {}

/-- `UPDATE books SET book_uid = ... WHERE id = ...`. -/
def Catalog.pointFile (c : Catalog) (book : ℤ) (uid : String) : Catalog :=
  { c with files := c.files.mapRows fun id (f : FileRow) =>
      if id = book then { f with bookUid := some uid } else f }

/-- The record that a bound file row starts with. -/
def FileRow.newRecord (f : FileRow) (now : String) : RecordRow where
  createdAt := now
  values :=
    { title := some f.title
      subtitle := f.subtitle
      author := f.author
      publisher := f.publisher
      language := f.language
      isbn := f.isbn
      description := f.description
      publicationDate := f.publicationDate
      series := f.series
      seriesIndex := f.seriesIndex
      coverPath := f.coverPath }
  seriesId := f.series
  available := true

/-- Insert the record of a bound file row when it has none. -/
def Catalog.ensureBookRecord (c : Catalog) (book : ℤ) (now : String) : Catalog :=
  match c.files.lookup book with
  | some f =>
    match f.bookUid with
    | some uid =>
      if c.hasRecord uid then c
      else { c with records := c.records.insert uid (f.newRecord now) }
    | none => c
  | none => c

namespace Device

section

variable (jsonReal : ℚ → Value)

/-! ## Merging identities -/

/-- `merge_book_identity`: the transaction, then the effective metadata of the survivor. -/
def mergeBookIdentity (d : Device) (loser winner : String) : Device × Except AppError Unit :=
  let winner := d.mirror.canonicalBookUid winner
  let loser := d.mirror.canonicalBookUid loser
  if loser = winner then (d, .ok ())
  else if (d.mirror.forgottenReplacement winner).isSome ∨
      (d.mirror.forgottenReplacement loser).isSome then (d, .ok ())
  else
    let merged := d.catalog.mergeBook jsonReal loser winner
    let recomputed := merged.recomputePrimary jsonReal winner
    (⟨d.mirror.mergeBookRows loser winner, recomputed.1⟩, recomputed.2)

/-- The two merges of `apply_identity` and the uid they agree on. -/
def unifyAlias (d : Device) (existing : Option String) (incoming : String) :
    Device × Except AppError String :=
  match existing with
  | some existing =>
    let canonical := min existing incoming
    andThen (if existing ≠ canonical then d.mergeBookIdentity jsonReal existing canonical
      else (d, .ok ())) fun d _ =>
    andThen (if canonical ≠ incoming then d.mergeBookIdentity jsonReal incoming canonical
      else (d, .ok ())) fun d _ => (d, .ok canonical)
  | none => (d, .ok incoming)

/-- `INSERT INTO sync_book_aliases ... ON CONFLICT DO UPDATE`. -/
def setAlias (d : Device) (contentHash uid : String) : Device :=
  { d with mirror := { d.mirror with aliases := d.mirror.aliases.insert contentHash uid } }

def applyIdentity (d : Device) (op : Op) : Device × Except AppError (List Affected) :=
  match (op.fields.lookup "content_hash").bind Value.asStr with
  | none => (d, .error (.invalidInput "identity op is missing content_hash"))
  | some contentHash =>
    match d.mirror.resolveIdentity op.entityUid with
    | none => (d, .ok [])
    | some incoming =>
      andThen (d.unifyAlias jsonReal (d.mirror.existingAlias contentHash) incoming)
        fun d canonical => (d.setAlias contentHash canonical,
          .ok [⟨.bookIdentity, canonical, some canonical⟩])

variable (fromStr : String → Option Value)

/-- `apply_op` on a device: identity operations also fold catalog rows. -/
def applyOp (d : Device) (op : Op) : Device × Except AppError (List Affected) :=
  if op.opId ∈ d.mirror.appliedOps then (d, .ok [])
  else if op.kind = .bookIdentity then
    andThen ({ d with mirror := d.mirror.observeHlc op.hlc }.applyIdentity jsonReal op)
      fun d affected => ({ d with mirror := d.mirror.markApplied op }, .ok affected)
  else
    let (mirror, result) := d.mirror.applyOp fromStr op
    ({ d with mirror := mirror }, result)

/-! ## Binding a content hash -/

/-- The uid a binding takes: the smaller of the file's own and the alias, else the one the file
row already points at, else a fresh one. -/
def chooseUid (existing known current : Option String) (fresh : String) : String :=
  match existing, known with
  | some existing, some known => min existing known
  | some existing, none => existing
  | none, some known => known
  | none, none => current.getD fresh

/-- Fold the local identity of the file row into the chosen one. -/
def foldCurrent (d : Device) (current : Option String) (uid : String) :
    Device × Except AppError Unit :=
  match current with
  | some current =>
    let current := d.mirror.canonicalBookUid current
    if current ≠ uid then d.mergeBookIdentity jsonReal current uid else (d, .ok ())
  | none => (d, .ok ())

/-- Fold the file's own identity and the alias into one. -/
def foldKnown (d : Device) (existing known : Option String) (uid : String) :
    Device × Except AppError Unit :=
  match existing, known with
  | some existing, some known =>
    if existing ≠ known then
      if existing < known then d.mergeBookIdentity jsonReal known existing
      else d.mergeBookIdentity jsonReal existing known
    else (d, .ok ())
  | some existing, none =>
    if existing ≠ uid then d.mergeBookIdentity jsonReal existing uid else (d, .ok ())
  | none, some known =>
    if known ≠ uid then d.mergeBookIdentity jsonReal known uid else (d, .ok ())
  | none, none => (d, .ok ())

/-- The file rows bound to a book, by id. -/
def boundFiles (d : Device) (uid : String) : List ℤ :=
  ((d.mirror.bindings.entries.filter fun e =>
    e.2.bookUid == uid && (d.catalog.files.lookup e.1).isSome).map (·.1)).insertionSort (· ≤ ·)

/-- Say in Sync issues that more than one file holds the same book. -/
def recordDuplicateBindings (d : Device) (uid : String) : Device :=
  let issue (m : Mirror) (file : ℤ) : Mirror :=
    m.recordIssue ("duplicate-book:" ++ uid ++ ":" ++ toString file) "duplicate_book"
  { d with mirror := (d.boundFiles uid).tail.foldl issue d.mirror }

/-- Publish an alias through the normal dirty pipeline. -/
def markIdentityDirty (d : Device) (contentHash uid : String) : Device :=
  let payload := jsonObject [("content_hash", .str contentHash), ("book_uid", .str uid)]
  { d with catalog := d.catalog.mark (.bookIdentity contentHash) (.upsert payload) }

/-- The binding row and the file row of a bound book, with its record. -/
def recordBinding (d : Device) (book : ℤ) (binding : BindingRow) (now : String) : Device where
  mirror := { d.mirror with bindings := d.mirror.bindings.insert book binding }
  catalog := (d.catalog.pointFile book binding.bookUid).ensureBookRecord book now

/-- Bind a file row to the hash of its bytes. `fresh` is the random uid that is minted when
nothing names the book yet. -/
def bindHash (d : Device) (book : ℤ) (contentHash : String) (size mtime : ℤ)
    (fresh now : String) : Device × Except AppError Unit :=
  let existing := d.mirror.bindings.lookup book
  let existingUid := existing.bind fun b => d.mirror.resolveIdentity b.bookUid
  let knownUid := (d.mirror.aliases.lookup contentHash).bind d.mirror.resolveIdentity
  let currentUid := (d.catalog.fileUid book).bind d.mirror.resolveIdentity
  let uid := chooseUid existingUid knownUid currentUid fresh
  andThen (d.foldCurrent jsonReal currentUid uid) fun d _ =>
  andThen (d.foldKnown jsonReal existingUid knownUid uid) fun d _ =>
  let d := d.setAlias contentHash uid
  if (d.catalog.files.lookup book).isNone then
    (d, .error (.database "FOREIGN KEY constraint failed"))
  else
    let d := (d.recordBinding book ⟨uid, contentHash, size, mtime⟩ now).recordDuplicateBindings
      uid
    if existing.all fun b => b.contentHash ≠ contentHash then
      (d.markIdentityDirty contentHash uid, .ok ())
    else (d, .ok ())

/-! ## Publishing an alias -/

/-- What `build_op` draws for a new operation: its random id, its clock and its time. -/
structure Stamp where
  opId : String
  hlc : Hlc
  createdAt : String

/-- The operation that publishes an alias. -/
def identityOp (stamp : Stamp) (contentHash uid : String) : Op where
  schema := opSchema
  opId := stamp.opId
  deviceId := stamp.hlc.device
  hlc := stamp.hlc
  kind := .bookIdentity
  entityUid := uid
  bookUid := some uid
  deleted := false
  restore := false
  fields := jsonObject [("content_hash", .str contentHash)]
  prior := none
  createdAt := stamp.createdAt

/-- `clear_row`: the marker goes only while it is the one that was captured. -/
def clearMarker (d : Device) (key : DirtyKey) (marker : Marker) : Device :=
  if d.catalog.dirty.lookup key = some marker then
    { d with catalog := { d.catalog with dirty := d.catalog.dirty.erase key } }
  else d

/-- The alias that an identity marker holds. -/
def aliasOf (marker : Marker) : Option (String × String) :=
  match marker.newJson with
  | some snapshot =>
    match (snapshot.lookup "content_hash").bind Value.asStr,
        (snapshot.lookup "book_uid").bind Value.asStr with
    | some contentHash, some uid => some (contentHash, uid)
    | _, _ => none
  | none => none

/-- Drain one identity marker: write the operation to the folder, apply it here and clear the
marker. The second component is the operation written, if any. -/
def captureIdentity (d : Device) (key : DirtyKey) (stamp : Stamp) :
    (Device × Option Op) × Except AppError Unit :=
  match d.catalog.dirty.lookup key with
  | none => ((d, none), .ok ())
  | some marker =>
    match aliasOf marker with
    | none => ((d.clearMarker key marker, none), .ok ())
    | some (contentHash, uid) =>
      let op := identityOp stamp contentHash (d.mirror.canonicalBookUid uid)
      match d.applyOp jsonReal fromStr op with
      | (d, .ok _) => ((d.clearMarker key marker, some op), .ok ())
      | (d, .error e) => ((d, some op), .error e)

end

end Device

end TuxBooks
