import TuxBooks.Device.Pass
import TuxBooks.Device.Shelves
import TuxBooks.Sync.Accounting
import TuxBooks.Sync.Replayable

set_option relaxedAutoImplicit false
set_option autoImplicit false

/-!
# Resolving a conflict for the loser

`apply_loser` of `sidecar/src/sync/conflict.rs` publishes the losing side of a conflict as a new
operation, and `resolve_conflict` of `engine.rs` settles the conflict afterwards without a look at
what became of the operation. A plain operation does not bring a deleted entity back: the merge
records it as one more conflict, and the choice that the user made is settled all the same. An
operation on a book that was forgotten is dropped.

What a resolution gets from outside the database is one argument, `ResolutionInput`.

## Main definitions

* `TuxBooks.Device.replay` — the operation that publishes the losing side.
* `TuxBooks.Device.applyLoser`, `TuxBooks.Device.projectAffected`, `TuxBooks.Device.resolveLoser` —
  the resolution.
* `TuxBooks.Device.TakesEffect` — what the user's choice should lead to.
* `TuxBooks.Device.Holdable` — nothing is in the way of the losing side.

## Main results

* `TuxBooks.Device.takesEffect_of_meets` — in every state of a run, the choice takes effect if
  nothing is in its way.
* `TuxBooks.Device.not_takesEffect_deleted` — a choice about a deleted highlight is lost.
-/

namespace TuxBooks

open Fallible

/-! ## Publishing the losing side -/

/-- `Value::as_object`. -/
def Value.asObject : Value → Option Fields
  | .obj entries => some (jsonObject entries)
  | _ => none

/-- Insert each entry of an object. -/
def overlay (state loser : Fields) : Fields :=
  loser.entries.foldl (fun prior e => prior.insert e.1 e.2) state

/-- What a resolution gets from outside the database. -/
structure ResolutionInput where
  /-- When the conflicts were recorded, by id. -/
  createdAt : ℕ → String
  /-- The time before which conflicts have expired. -/
  cutoff : String
  /-- Whether there is a sync folder. -/
  connected : Bool
  draw : Draw
  source : CoverSource
  now : String
  /-- What the projection of a whole book does. -/
  projectBook : String → Device → Device × Except AppError Unit
  env : Review.Refresh

namespace Device

/-- The operation that `apply_loser` builds. -/
def replay (m : Mirror) (c : OpenConflict) : Except AppError (Stamp → Op) :=
  if c.field = "__entity__" then
    match c.loser.asObject with
    | none => .error (.invalidInput "conflict loser is not an entity state")
    | some fields =>
      .ok fun stamp => buildOp stamp c.kind c.entityUid c.bookUid false false fields none
  else if c.field = "__deleted__" ∨ c.field = "__restore__" then
    let prior := overlay (m.loadState c.kind c.entityUid).1 (c.loser.asObject.getD ∅)
    .ok fun stamp => buildOp stamp c.kind c.entityUid c.bookUid false true
      (canonicalFromSnapshot c.kind prior) none
  else
    .ok fun stamp => buildOp stamp c.kind c.entityUid c.bookUid false false
      ((∅ : Fields).insert c.field c.loser) none

section

variable (jsonReal : ℚ → Value) (fromStr : String → Option Value)

/-- Publish the losing value as a fresh write. -/
def applyLoser (d : Device) (draw : Draw) (c : OpenConflict) : Device × Except AppError Affected :=
  match replay d.mirror c with
  | .error e => (d, .error e)
  | .ok op =>
    let r := d.publish jsonReal fromStr draw op
    andThen (r.1.1, r.2) fun d _ => (d, .ok ⟨c.kind, c.entityUid, c.bookUid⟩)

/-- One iteration of the loop of `project`. -/
def projectAffected (d : Device) (i : ResolutionInput) (item : Affected) :
    Device × Except AppError Unit :=
  match item.kind with
  | .bookIdentity => (d, .ok ())
  | .collection => d.projectCollection item.entityUid i.now
  | .book => i.projectBook item.entityUid d
  | _ => d.projectState jsonReal i.source i.now item

/-- Publish the losing value and project it. -/
def publishLoser (d : Device) (i : ResolutionInput) (c : OpenConflict) :
    Device × Except AppError Unit :=
  andThen (d.applyLoser jsonReal fromStr i.draw c) fun d affected =>
    d.projectAffected jsonReal i affected

/-- The conflicts that one mirror has beyond those of another. -/
def recordingsSince (createdAt : String) (m m' : Mirror) : List Recording :=
  (m'.conflicts.drop m.conflicts.length).map fun c =>
    ⟨createdAt, c.kind, c.entityUid, c.field, c.winner, c.loser, c.winnerHlc, c.loserHlc⟩

/-- The device after a resolution, the tables of the review with the ids from before it, and what
it returns. -/
structure Resolved where
  device : Device
  review : Review
  result : Except AppError Bool

/-- The device when conflicts that have expired are gone. -/
def expired (d : Device) (i : ResolutionInput) : Device :=
  { d with mirror := d.mirror.reviewed ((d.mirror.review i.createdAt).expire i.cutoff).1 }

/-- What publishing does to the device, as far as `resolve_conflict` gets to it. -/
def published (d : Device) (id : ℕ) (i : ResolutionInput) : Device × Except AppError Unit :=
  match ((d.mirror.review i.createdAt).expire i.cutoff).1.openConflict id with
  | some c =>
    if applyBlockedReason c.kind = none ∧ i.connected = true then
      (d.expired i).publishLoser jsonReal fromStr i c
    else (d.expired i, .ok ())
  | none => (d.expired i, .ok ())

/-- `resolve_conflict` with `apply_loser`. -/
def resolveLoser (d : Device) (id : ℕ) (i : ResolutionInput) : Resolved :=
  let p := d.published jsonReal fromStr id i
  let publication : Review.Publication :=
    ⟨p.1.mirror.entities, recordingsSince i.now (d.expired i).mirror p.1.mirror, p.2⟩
  let r := (d.mirror.review i.createdAt).resolveConflict id "apply_loser" i.cutoff
    (if i.connected then some publication else none) i.env
  ⟨{ p.1 with mirror := p.1.mirror.reviewed r.1 }, r.1, r.2⟩

end

/-! ## What it should do -/

end Device

/-- The values of the losing side: of one field, or of the fields of an object. -/
def ConflictRow.losing (c : ConflictRow) (field : String) : Option Value :=
  if c.field = "__entity__" ∨ c.OnTombstone then c.loser.get field
  else if field = c.field then some c.loser else none

/-- The row is live and holds the losing side. -/
structure EntityRow.HoldsLoser (c : ConflictRow) (r : EntityRow) : Prop where
  live : r.deleted = false
  values : ∀ field v, c.losing field = some v → (r.fields.lookup field).map FieldRow.value = some v

namespace Mirror

/-- The row that operations on an entity address. -/
def entityKey (m : Mirror) (kind : EntityKind) (uid : String) : String :=
  match kind with
  | .collection => m.canonicalEntityUid .collection uid
  | .membership =>
    match splitOnce ':' uid with
    | some (collection, book) =>
      m.canonicalEntityUid .collection collection ++ ":" ++ m.canonicalBookUid book
    | none => uid
  | _ => uid

/-- The losing side is in force in `m'`. -/
def InForce (m m' : Mirror) (c : ConflictRow) : Prop :=
  ∃ uid, m'.KeepsAs c.kind (m.entityKey c.kind c.entityUid) uid ∧
    (m'.row c.kind uid).HoldsLoser c

/-- The name under which a collection is projected after the losing side has become an operation,
which writes the row under the canonical uid. -/
def chosenName (m : Mirror) (c : ConflictRow) : Option String :=
  let chosen := if m.entityKey .collection c.entityUid = c.entityUid then c.losing "name" else none
  (chosen.getD ((m.row .collection c.entityUid).value "name")).asStr

end Mirror

namespace Device

/-- **The choice takes effect.** Once the operation can be written, the losing side is in force;
then the conflict is settled, unless the projection fails. Where the resolution fails, the conflict
stays open. -/
structure TakesEffect (d : Device) (id : ℕ) (c : ConflictRow) (i : ResolutionInput)
    (projected : Except AppError Unit) (r : Resolved) : Prop where
  inForce : i.connected = true → (∃ stamp, i.draw.stamp = .ok stamp) →
    d.mirror.InForce r.device.mirror c
  returns : i.connected = true → (∃ stamp, i.draw.stamp = .ok stamp) →
    r.result = projected.map fun _ => true
  settled : ∀ applied, r.result = .ok applied →
    d.mirror.InForce r.device.mirror c ∧
      ⟨id, i.createdAt id, { c with resolvedAt := true }⟩ ∈ r.review.conflicts ∧
      ∀ e ∈ r.review.conflicts, e.id = id → e.row.resolvedAt = true
  kept : ∀ e, r.result = .error e → ⟨id, i.createdAt id, c⟩ ∈ r.review.conflicts

/-- The projection hands a collection over to a local one that was deleted on another machine. -/
def HandsOver (d : Device) (c : ConflictRow) : Prop :=
  c.kind = .collection ∧ d.catalog.localCollectionId c.entityUid = none ∧
    ∃ name ∈ d.mirror.chosenName c, ∃ id ∈ d.catalog.collectionNamed name,
      ∃ uid ∈ collectionUid id d.catalog, uid ≠ "" ∧ uid < c.entityUid ∧
        (d.mirror.row .collection uid).deleted = true

/-- Nothing is in the way of the losing side: the book is not forgotten, the entity is not deleted
unless the conflict is about its tombstone, and no deleted collection takes it over. -/
structure Holdable (d : Device) (c : ConflictRow) : Prop where
  book : ∀ uid ∈ (d.mirror.row c.kind c.entityUid).bookUid,
    d.mirror.forgottenReplacement (d.mirror.canonicalBookUid uid) = none
  entity : (d.mirror.row c.kind (d.mirror.entityKey c.kind c.entityUid)).deleted = true →
    c.OnTombstone
  shelf : ¬d.HandsOver c

end Device

/-! ## The operation -/

lemma lookup_asObject {v : Value} {fields : Fields} (h : v.asObject = some fields)
    (field : String) : fields.lookup field = v.get field := by
  cases v with
  | obj entries =>
    cases h
    exact lookup_jsonObject entries field
  | _ => cases h

lemma lookup_overlay (state loser : Fields) (field : String) :
    (overlay state loser).lookup field = (loser.lookup field).or (state.lookup field) := by
  have hupdate := Table.foldl_update_lookup loser (fun prior : Fields => prior.lookup)
    (fun prior field v => prior.insert field v) (fun _ v _ => some v)
    (fun prior field v => AList.lookup_insert prior)
    (fun prior field v field' hne => AList.lookup_insert_ne hne) state field
  refine hupdate.trans ?_
  cases loser.lookup field <;> rfl

/-- The operation carries the losing side, and of the other fields only what was there. -/
structure ConflictRow.Carried (c : ConflictRow) (r : EntityRow) (restore : Bool)
    (fields : Fields) : Prop where
  carries : ∀ field v, c.losing field = some v → fields.lookup field = some v
  keeps : ∀ field v, fields.lookup field = some v → v = (c.losing field).getD (r.value field)
  restores : c.OnTombstone → restore = true

namespace Device

variable {c : ConflictRow} {m : Mirror} {bookUid : Option String}

/-- **What is replayed.** -/
theorem exists_replay (h : c.Replayable) (m : Mirror) (bookUid : Option String) :
    ∃ restore fields, c.Carried (m.row c.kind c.entityUid) restore fields ∧
      replay m ⟨c.kind, c.entityUid, c.field, bookUid, c.loser⟩ = .ok fun stamp =>
        buildOp stamp c.kind c.entityUid bookUid false restore fields none := by
  rcases h.loser with hfield | ⟨hpseudo, object, hloser, hnames⟩
  · obtain ⟨hentity, hon⟩ := Mirror.plain_of_mem_fieldNames hfield
    have hplain : ¬(c.field = "__entity__" ∨ c.OnTombstone) := not_or.mpr ⟨hentity, hon⟩
    have hlosing (field : String) :
        c.losing field = ((∅ : Fields).insert c.field c.loser).lookup field := by
      rw [ConflictRow.losing, if_neg hplain, Table.lookup_insert']
      rfl
    refine ⟨false, (∅ : Fields).insert c.field c.loser,
      ⟨fun field v hv => ?_, fun field v hv => ?_, fun h => absurd h hon⟩, ?_⟩
    · rw [← hlosing, hv]
    · rw [hlosing, hv, Option.getD_some]
    · rw [replay, if_neg hentity, if_neg hon]
  have hobject : ∃ o, c.loser.asObject = some o := ⟨_, by rw [hloser]; rfl⟩
  obtain ⟨o, ho⟩ := hobject
  have hlosing (field : String) : c.losing field = o.lookup field := by
    rw [ConflictRow.losing, if_pos hpseudo, lookup_asObject ho]
  by_cases hentity : c.field = "__entity__"
  · refine ⟨false, o, ⟨fun field v hv => ?_, fun field v hv => ?_, fun hon => ?_⟩, ?_⟩
    · rw [← hlosing, hv]
    · rw [hlosing, hv, Option.getD_some]
    · exact absurd hentity hon.ne_entity
    · rw [replay, if_pos hentity]
      dsimp only
      rw [ho]
  · have hon := hpseudo.resolve_left hentity
    refine ⟨true, canonicalFromSnapshot c.kind (overlay (m.loadState c.kind c.entityUid).1 o),
      ⟨fun field v hv => ?_, fun field v hv => ?_, fun _ => rfl⟩, ?_⟩
    · have hmem : field ∈ fieldNames c.kind := by
        refine hnames field v ?_
        rw [← get_toValue, ← hloser, ← lookup_asObject ho, ← hlosing, hv]
      rw [lookup_canonicalFromSnapshot, if_pos hmem, lookup_overlay, ← hlosing, hv]
      rfl
    · rw [lookup_canonicalFromSnapshot] at hv
      split_ifs at hv with hmem
      rw [← Option.some.inj hv, lookup_overlay, Mirror.lookup_loadState, if_pos hmem, hlosing]
      cases o.lookup field <;> rfl
    · have hfield : c.field = "__deleted__" ∨ c.field = "__restore__" := hon
      rw [replay, if_neg hentity, if_pos hfield]
      dsimp only
      rw [ho, Option.getD_some]

/-- Operations on the entity of an open conflict address its row. -/
lemma addresses_entityKey (h : c.Replayable) (m : Mirror) :
    Addresses m c.kind c.entityUid (m.entityKey c.kind c.entityUid) := by
  intro op hkind huid
  unfold Mirror.stateKey Mirror.entityKey
  rw [hkind, huid]
  cases hk : c.kind with
  | membership =>
    obtain ⟨p, hsplit⟩ := exists_splitOnce (h.key hk)
    rw [hsplit]
  | _ => rfl

/-- What a published operation leaves: the entity has its fields under its clock, and of the other
entities every row is as before. -/
structure Written (m m' : Mirror) (kind : EntityKind) (key : String) (fields : Fields)
    (clock : Hlc) : Prop where
  touched : m.Touched (kind, key) m'
  shines : (m'.row kind key).Shines fields clock
  others : kind.mergeMode = .field → ∀ field,
    (m'.row kind key).value field = (fields.lookup field).getD ((m.row kind key).value field)

/-- **An operation under a fresh clock is written**, if nothing is in its way. -/
theorem written_applyOp (fromStr : String → Option Value) (hstate : c.kind.IsState)
    {key : String} (hkey : Addresses m c.kind c.entityUid key) {stamp : Stamp}
    (hfresh : stamp.Fresh m) (hclocks : m.ClocksIn (Set.Iio stamp.hlc))
    (hbook : ∀ uid ∈ bookUid, m.forgottenReplacement (m.canonicalBookUid uid) = none)
    {restore : Bool} (hlive : (m.row c.kind key).deleted = true → restore = true)
    (fields : Fields) :
    let op := buildOp stamp c.kind c.entityUid bookUid false restore fields none
    Written m (m.applyOp fromStr op).1 c.kind key fields stamp.hlc ∧
      ∃ affected, (m.applyOp fromStr op).2 = .ok affected := by
  intro op
  have hdrops : m.drops op = false := by
    change (bookUid.any fun uid => (m.forgottenReplacement (m.canonicalBookUid uid)).isSome) = false
    cases bookUid with
    | none => rfl
    | some uid => rw [Option.any_some, hbook uid rfl, Option.isSome_none]
  have hkey' : m.stateKey op = .ok key := hkey op rfl rfl
  obtain ⟨hlookup, -⟩ := Mirror.row_applyOp fromStr hfresh.opId hstate hdrops hkey'
  have hrow : (m.applyOp fromStr op).1.row c.kind key =
      ((m.row c.kind key).touch (bookUid.map m.canonicalBookUid)).upsert op := by
    rw [Mirror.row]
    exact congrArg (·.getD {}) hlookup
  have hin := (hclocks.row hfresh.zero c.kind key).touch (bookUid.map m.canonicalBookUid)
  have hlive' : ((m.row c.kind key).touch (bookUid.map m.canonicalBookUid)).deleted = true →
      op.restore = true := hlive
  refine ⟨⟨Mirror.touched_applyOp fromStr hstate hkey', ?_, fun hmode field => ?_⟩, ?_⟩
  · rw [hrow]
    exact EntityRow.shines_upsert hin hfresh.zero hlive'
  · rw [hrow, EntityRow.value_upsert_of_newer hin hfresh.zero hlive' hmode]
    rfl
  · rw [Mirror.applyOp_eq_of_state fromStr hfresh.opId hstate hdrops hkey']
    exact ⟨_, rfl⟩

/-! ## The projection -/

/-- Two collections of one name go on under the smaller uid. -/
lemma joinNamed_eq (m : Mirror) (localUid uid : String) :
    joinNamed m localUid uid = if localUid = "" then m
      else m.mergeCollectionIdentity (max localUid uid) (min localUid uid) := by
  have hself (m : Mirror) (uid : String) : m.mergeCollectionIdentity uid uid = m := if_pos rfl
  unfold joinNamed keptUid
  dsimp only
  by_cases hempty : localUid = ""
  · simp [hempty]
  rw [if_neg hempty, if_neg hempty]
  rcases lt_trichotomy localUid uid with hlt | rfl | hlt
  · have hfirst : ¬(localUid ≠ "" ∧ localUid ≠ localUid) := fun h => h.2 rfl
    rw [if_pos hlt.le, if_pos hlt.ne, if_neg hfirst, min_eq_left hlt.le, max_eq_right hlt.le]
  · simp [hself]
  · rw [if_neg hlt.not_ge, if_neg (not_not.mpr rfl), if_pos ⟨hempty, hlt.ne'⟩,
      min_eq_right hlt.le, max_eq_left hlt.le]

/-- Projecting a collection changes the mirror only where it joins one of the same name. -/
lemma mirror_projectCollection (d : Device) (uid now : String) :
    (d.projectCollection uid now).1.mirror = d.mirror ∨
      ∃ name ∈ d.mirror.shelfName uid, d.catalog.localCollectionId uid = none ∧
        ∃ id ∈ d.catalog.collectionNamed name, (d.projectCollection uid now).1.mirror =
          joinNamed d.mirror ((collectionUid id d.catalog).getD "") uid := by
  unfold projectCollection
  dsimp only
  by_cases hdeleted : (d.mirror.loadState .collection uid).2 = true
  · rw [if_pos hdeleted]
    left
    split <;> rfl
  rw [if_neg hdeleted]
  cases hname : ((d.mirror.loadState .collection uid).1.lookup "name").bind Value.asStr with
  | none => exact .inl rfl
  | some name =>
    dsimp only
    cases hlocal : d.catalog.localCollectionId uid with
    | some id =>
      exact .inl (andThen_inv (P := fun d' : Device => d'.mirror = d.mirror) rfl fun _ _ h => h)
    | none =>
      dsimp only
      cases hid : d.catalog.collectionNamed name with
      | none =>
        exact .inl (andThen_inv (P := fun d' : Device => d'.mirror = d.mirror) rfl fun _ _ h => h)
      | some id =>
        refine .inr ⟨name, ?_, rfl, id, hid, ?_⟩
        · rw [Mirror.shelfName, if_neg hdeleted, hname]
          rfl
        · exact andThen_inv (P := fun d' : Device =>
            d'.mirror = joinNamed d.mirror ((collectionUid id d.catalog).getD "") uid) rfl
              fun _ _ h => h

/-- Projecting the row of another kind leaves the mirror. -/
lemma mirror_projectState (jsonReal : ℚ → Value) (d : Device) (source : CoverSource) (now : String)
    (item : Affected) : (d.projectState jsonReal source now item).1.mirror = d.mirror := by
  unfold projectState onCatalog
  dsimp only
  split
  · rfl
  · split_ifs
    · split <;> rfl
    · rfl

/-- The name under which a collection is projected. -/
lemma mem_chosenName {m' : Mirror} {key : String} {restore : Bool} {fields : Fields} {clock : Hlc}
    (hkey : key = m.entityKey .collection c.entityUid)
    (hcarried : c.Carried (m.row .collection c.entityUid) restore fields)
    (hwritten : Written m m' .collection key fields clock) {name : String}
    (hname : name ∈ m'.shelfName c.entityUid) : name ∈ m.chosenName c := by
  have hvalue : ((m'.row .collection c.entityUid).value "name").asStr = some name := by
    have hmem : "name" ∈ fieldNames .collection := by decide
    unfold Mirror.shelfName at hname
    split_ifs at hname
    · cases hname
    · rw [Mirror.lookup_loadState, if_pos hmem] at hname
      exact hname
  unfold Mirror.chosenName
  rw [← hkey]
  by_cases hsame : key = c.entityUid
  · rw [if_pos hsame]
    have hothers := hwritten.others rfl "name"
    rw [hsame] at hothers
    rw [hothers] at hvalue
    cases hfield : fields.lookup "name" with
    | some v =>
      rw [hfield, Option.getD_some, hcarried.keeps "name" v hfield] at hvalue
      exact hvalue
    | none =>
      have hnone : c.losing "name" = none := by
        cases hlosing : c.losing "name" with
        | none => rfl
        | some v => rw [hcarried.carries "name" v hlosing] at hfield; cases hfield
      rw [hfield] at hvalue
      rw [hnone]
      exact hvalue
  · rw [if_neg hsame]
    have hrow : m'.row .collection c.entityUid = m.row .collection c.entityUid := by
      unfold Mirror.row
      rw [hwritten.touched.lookup _ fun h => hsame (Prod.mk.inj h).2.symm]
    rw [hrow] at hvalue
    exact hvalue

/-- A row that has the fields of the operation holds the losing side. -/
lemma holdsLoser_of_shines {r r₀ : EntityRow} {restore : Bool} {fields : Fields} {clock : Hlc}
    (hcarried : c.Carried r₀ restore fields) (h : r.Shines fields clock) : r.HoldsLoser c :=
  ⟨h.live, fun field v hv => by rw [h.fields field v (hcarried.carries field v hv)]; rfl⟩

variable {jsonReal : ℚ → Value} {fromStr : String → Option Value} {d : Device} {i : ResolutionInput}

lemma writeAndApply_of_ok {op : Op} {affected : List Affected} (hstate : op.kind.IsState)
    (hnew : op.opId ∉ d.mirror.appliedOps)
    (hok : (d.mirror.applyOp fromStr op).2 = .ok affected) :
    d.writeAndApply jsonReal fromStr op =
      (({ d with mirror := (d.mirror.applyOp fromStr op).1 }, some op), .ok ()) := by
  unfold writeAndApply Device.applyOp
  rw [if_neg hnew, if_neg hstate.1]
  rcases hres : d.mirror.applyOp fromStr op with ⟨m', res⟩
  rw [hres] at hok
  cases hok
  rfl

/-- The collection that holds the losing side is still there after its projection. -/
lemma inForce_projectCollection {m' : Mirror} {restore : Bool} {fields : Fields} {clock : Hlc}
    (hkind : c.kind = .collection) (hshelf : ¬d.HandsOver c) (hzero : Hlc.zero < clock)
    (hclocks : d.mirror.ClocksIn (Set.Iio clock))
    (hcarried : c.Carried (d.mirror.row .collection c.entityUid) restore fields)
    (hwritten : Written d.mirror m' .collection (d.mirror.entityKey .collection c.entityUid) fields
      clock) (now : String) :
    d.mirror.InForce
      (projectCollection { d with mirror := m' } c.entityUid now).1.mirror c := by
  set key := d.mirror.entityKey .collection c.entityUid with hkey
  have hrows : ∀ uid ≠ key, m'.row .collection uid = d.mirror.row .collection uid := by
    intro uid hne
    unfold Mirror.row
    rw [hwritten.touched.lookup _ fun h => hne (Prod.mk.inj h).2]
  have hothers : ∀ uid ≠ key, (m'.row .collection uid).ClocksIn (Set.Iio clock) := by
    intro uid hne
    rw [hrows uid hne]
    exact hclocks.row hzero .collection uid
  unfold Mirror.InForce
  rw [hkind, ← hkey]
  rcases mirror_projectCollection { d with mirror := m' } c.entityUid now with
    hsame | ⟨name, hname, hlocal, id, hid, hjoined⟩
  · rw [hsame]
    exact ⟨key, .inl rfl, holdsLoser_of_shines hcarried hwritten.shines⟩
  · rw [hjoined]
    dsimp only
    rw [joinNamed_eq]
    set localUid := (collectionUid id d.catalog).getD "" with hlocalUid
    split_ifs with hempty
    · exact ⟨key, .inl rfl, holdsLoser_of_shines hcarried hwritten.shines⟩
    have hlive : (m'.row .collection c.entityUid).deleted = false := by
      unfold Mirror.shelfName at hname
      split_ifs at hname with hdeleted
      · cases hname
      · exact Bool.eq_false_of_not_eq_true hdeleted
    have hwinner : (m'.row .collection (min localUid c.entityUid)).deleted = false := by
      rcases le_or_gt c.entityUid localUid with hle | hlt
      · rw [min_eq_right hle]
        exact hlive
      · rw [min_eq_left hlt.le]
        by_cases hown : localUid = key
        · rw [hown]
          exact hwritten.shines.live
        · rw [hrows _ hown]
          by_contra hdeleted
          have huid : collectionUid id d.catalog = some localUid := by
            cases hcol : collectionUid id d.catalog with
            | none => rw [hcol] at hlocalUid; exact absurd hlocalUid hempty
            | some uid => rw [hcol] at hlocalUid; rw [hlocalUid, Option.getD_some]
          exact hshelf ⟨hkind, hlocal, name, mem_chosenName hkey hcarried hwritten hname, id,
            hid, localUid, huid, hempty, hlt, Bool.eq_true_of_not_eq_false hdeleted⟩
    obtain ⟨uid, hkeeps, hshines⟩ :=
      Mirror.shines_mergeCollectionIdentity hwritten.shines
        hothers hwinner
    exact ⟨uid, hkeeps, holdsLoser_of_shines hcarried hshines⟩

/-- What `openConflict` reads of a conflict. -/
def opened (m : Mirror) (c : ConflictRow) : OpenConflict :=
  ⟨c.kind, c.entityUid, c.field, (m.row c.kind c.entityUid).bookUid, c.loser⟩

/-- Without a stamp nothing is published. -/
lemma publishLoser_of_error (h : c.Replayable) {e : AppError} (hstamp : i.draw.stamp = .error e) :
    d.publishLoser jsonReal fromStr i (opened d.mirror c) = (d, .error e) := by
  obtain ⟨restore, fields, -, hreplay⟩ := exists_replay h d.mirror
    (d.mirror.row c.kind c.entityUid).bookUid
  unfold publishLoser applyLoser opened publish
  rw [hreplay, hstamp]
  rfl

/-- **Publishing the losing side puts it in force**, if nothing is in its way. -/
theorem inForce_publishLoser (h : c.Replayable) (hhold : d.Holdable c)
    (hgrounded : d.mirror.Grounded) {stamp : Stamp} (hstamp : i.draw.stamp = .ok stamp)
    (hfresh : stamp.Fresh d.mirror) :
    d.mirror.InForce (d.publishLoser jsonReal fromStr i (opened d.mirror c)).1.mirror c := by
  have hclocks := hgrounded.clocks stamp.hlc hfresh.zero hfresh.above
  obtain ⟨restore, fields, hcarried, hreplay⟩ := exists_replay h d.mirror
    (d.mirror.row c.kind c.entityUid).bookUid
  obtain ⟨hwritten, affected, hok⟩ := written_applyOp fromStr h.state
    (addresses_entityKey h d.mirror) hfresh hclocks hhold.book
    (fun hdeleted => hcarried.restores (hhold.entity hdeleted)) fields
  have hwrite : d.writeAndApply jsonReal fromStr _ = _ :=
    writeAndApply_of_ok h.state hfresh.opId hok
  generalize hm' : (d.mirror.applyOp fromStr (buildOp stamp c.kind c.entityUid
    (d.mirror.row c.kind c.entityUid).bookUid false restore fields none)).1 = m' at hwritten hwrite
  have happly : d.applyLoser jsonReal fromStr i.draw (opened d.mirror c) =
      ({ d with mirror := m' },
        .ok ⟨c.kind, c.entityUid, (d.mirror.row c.kind c.entityUid).bookUid⟩) := by
    unfold applyLoser opened publish
    rw [hreplay, hstamp]
    dsimp only
    rw [hwrite]
    rfl
  unfold publishLoser
  rw [happly, andThen_ok]
  have hself : ∀ d' : Device, d'.mirror = m' → d.mirror.InForce d'.mirror c := by
    rintro d' rfl
    exact ⟨_, .inl rfl, holdsLoser_of_shines hcarried hwritten.shines⟩
  unfold projectAffected
  dsimp only
  split
  · next hkind => exact absurd hkind h.state.1
  · next hkind =>
    rw [hkind] at hwritten hcarried
    exact inForce_projectCollection hkind hhold.shelf hfresh.zero hclocks hcarried hwritten i.now
  · next hkind => exact absurd hkind h.state.2
  · exact hself _ (mirror_projectState ..)

end Device

/-! ## The review -/

namespace Review

variable {s : Review} {e : ConflictEntry} {id : ℕ}

lemma mem_publish (he : e ∈ s.conflicts) (p : Publication) : e ∈ (s.publish p).conflicts := by
  have hrecord (s : Review) (r : Recording) (he : e ∈ s.conflicts) :
      e ∈ (s.recordConflict r).conflicts := by
    unfold recordConflict
    split
    · exact he
    · dsimp only
      split
      · split <;> exact List.mem_append_left _ he
      · exact List.mem_append_left _ he
  unfold publish
  generalize p.recordings = recordings
  have hstart : e ∈ ({ s with entities := p.entities } : Review).conflicts := he
  generalize ({ s with entities := p.entities } : Review) = s' at hstart
  induction recordings generalizing s' with
  | nil => exact hstart
  | cons r recordings ih => exact ih _ (hrecord _ r hstart)

/-- What a status refresh leaves of the conflicts: those that are settled stay, and no other one
comes back. -/
lemma conflicts_refreshStatus (s : Review) (env : Refresh) :
    (∀ e ∈ s.conflicts, e.row.resolvedAt = true → e ∈ (s.refreshStatus env).conflicts) ∧
      ∀ e ∈ (s.refreshStatus env).conflicts, e.row.resolvedAt = false → e ∈ s.conflicts := by
  have hissues (books : List String) (s : Review) : (books.foldl
      (fun s book => s.recordIssue ("hash-failed:" ++ book) "hash_failed") s).conflicts =
        s.conflicts := by
    induction books generalizing s with
    | nil => rfl
    | cons book books ih =>
      refine (ih _).trans ?_
      dsimp only
      unfold recordIssue
      split <;> rfl
  have hexpire (s : Review) (cutoff : String) :
      (∀ e ∈ s.conflicts, e.row.resolvedAt = true → e ∈ (s.expire cutoff).1.conflicts) ∧
        ∀ e ∈ (s.expire cutoff).1.conflicts, e ∈ s.conflicts := by
    unfold expire
    dsimp only
    split_ifs
    · exact ⟨fun e he _ => he, fun e he => he⟩
    · refine ⟨fun e he hresolved => List.mem_filter.mpr ⟨he, ?_⟩, fun e he => ?_⟩
      · simp [hresolved]
      · exact (List.mem_filter.mp he).1
  have hreconcile : (∀ e ∈ s.conflicts, e.row.resolvedAt = true → e ∈ s.reconcile.1.conflicts) ∧
      ∀ e ∈ s.reconcile.1.conflicts, e.row.resolvedAt = false → e ∈ s.conflicts := by
    rcases s.conflicts_reconcile with hsame | ⟨ids, -, hsettled⟩
    · rw [hsame]
      exact ⟨fun e he _ => he, fun e he _ => he⟩
    · rw [hsettled]
      refine ⟨fun e he hresolved => List.mem_map.mpr ⟨e, he, ?_⟩, fun e he hopen => ?_⟩
      · rw [if_neg (by simp [hresolved])]
      · exact mem_conflicts_resolveRows he hopen
  unfold refreshStatus
  rw [hissues]
  exact ⟨fun e he hresolved => (hexpire _ _).1 e (hreconcile.1 e he hresolved) hresolved,
    fun e he hopen => hreconcile.2 e ((hexpire _ _).2 e he) hopen⟩

/-- **After settling, the conflict is resolved and stays so.** -/
lemma settled_refreshStatus (he : e ∈ s.conflicts) (hid : e.id = id)
    (hopen : e.row.resolvedAt = false) (conflict : OpenConflict) (env : Refresh) :
    { e with row := { e.row with resolvedAt := true } } ∈
        ((s.settle id conflict).1.refreshStatus env).conflicts ∧
      ∀ e' ∈ ((s.settle id conflict).1.refreshStatus env).conflicts, e'.id = id →
        e'.row.resolvedAt = true := by
  have hconflicts : (s.settle id conflict).1.conflicts = (s.resolveRows [id]).conflicts := rfl
  obtain ⟨hkeep, hback⟩ := (s.settle id conflict).1.conflicts_refreshStatus env
  constructor
  · refine hkeep _ ?_ rfl
    rw [hconflicts]
    refine List.mem_map.mpr ⟨e, he, ?_⟩
    rw [if_pos ⟨by simp [hid], hopen⟩]
  · intro e' he' hid'
    by_contra hopen'
    have hold := hback e' he' (Bool.eq_false_of_not_eq_true hopen')
    rw [hconflicts] at hold
    obtain ⟨e₀, he₀, heq⟩ := List.mem_map.mp hold
    split_ifs at heq with hmem
    · exact hopen' (heq ▸ rfl)
    · refine hmem ⟨?_, ?_⟩
      · rw [heq]
        simp [hid']
      · rw [heq]
        exact Bool.eq_false_of_not_eq_true hopen'

/-- Applying the loser of a conflict that can be opened. -/
lemma resolveConflict_applyLoser {cutoff : String} {c : OpenConflict}
    (hopened : (s.expire cutoff).1.openConflict id = some c)
    (hblocked : applyBlockedReason c.kind = none) (publication : Option Publication)
    (env : Refresh) :
    s.resolveConflict id "apply_loser" cutoff publication env =
      match publication with
      | none => ((s.expire cutoff).1, .error (.invalidInput
          "sync is not connected; re-apply the value from its original screen"))
      | some p =>
        match p.outcome with
        | .error e => ((s.expire cutoff).1.publish p, .error e)
        | .ok () => (((((s.expire cutoff).1.publish p).settle id c).1).refreshStatus env,
            .ok true) := by
  have hparse : Resolution.parse "apply_loser" = some .applyLoser := by decide
  cases publication with
  | none => simp [resolveConflict, hparse, hopened, hblocked]
  | some p =>
    cases houtcome : p.outcome with
    | error e => simp [resolveConflict, hparse, hopened, hblocked, houtcome]
    | ok result => simp [resolveConflict, hparse, hopened, hblocked, houtcome]

end Review

/-! ## The resolution -/

namespace Device

variable {jsonReal : ℚ → Value} {fromStr : String → Option Value} {d : Device} {c : ConflictRow}
  {i : ResolutionInput} {id : ℕ}

/-- A conflict that is unresolved and has not expired is the one that is opened under its id. -/
lemma openConflict_expire (hstate : c.kind.IsState) (hc : d.mirror.conflicts[id]? = some c)
    (hopen : c.resolvedAt = false) (hlive : ¬i.createdAt id < i.cutoff) :
    ⟨id, i.createdAt id, c⟩ ∈ ((d.mirror.review i.createdAt).expire i.cutoff).1.conflicts ∧
      ((d.mirror.review i.createdAt).expire i.cutoff).1.openConflict id =
        some (opened d.mirror c) := by
  have hentry : ⟨id, i.createdAt id, c⟩ ∈ (d.mirror.review i.createdAt).conflicts := by
    obtain ⟨hlt, hget⟩ := List.getElem?_eq_some_iff.mp hc
    refine List.mem_mapIdx.mpr ⟨id, hlt, ?_⟩
    rw [hget]
  obtain ⟨hmem, hsub, hentities⟩ : ⟨id, i.createdAt id, c⟩ ∈
      ((d.mirror.review i.createdAt).expire i.cutoff).1.conflicts ∧
      (∀ e ∈ ((d.mirror.review i.createdAt).expire i.cutoff).1.conflicts,
        e ∈ (d.mirror.review i.createdAt).conflicts) ∧
      ((d.mirror.review i.createdAt).expire i.cutoff).1.entities = d.mirror.entities := by
    unfold Review.expire
    dsimp only
    split_ifs
    · exact ⟨hentry, fun _ he => he, rfl⟩
    · refine ⟨List.mem_filter.mpr ⟨hentry, ?_⟩, fun e he => (List.mem_filter.mp he).1, rfl⟩
      simp [hlive]
  refine ⟨hmem, ?_⟩
  unfold Review.openConflict
  rw [hentities]
  cases hfind : ((d.mirror.review i.createdAt).expire i.cutoff).1.conflicts.find?
      fun c => c.id == id && !c.row.resolvedAt with
  | none =>
    have hnone := List.find?_eq_none.mp hfind _ hmem
    simp [hopen] at hnone
  | some e =>
    have hid : e.id = id := by
      have hfound := List.find?_some hfind
      simp only [Bool.and_eq_true, beq_iff_eq] at hfound
      exact hfound.1
    have hrow := Mirror.mem_conflicts_review (hsub e (List.mem_of_find?_eq_some hfind))
    rw [hid, hc] at hrow
    have hrow : e.row = c := (Option.some.inj hrow).symm
    dsimp only
    rw [hrow, if_neg hstate.2]
    unfold opened Mirror.row
    cases d.mirror.entities.lookup (c.kind, c.entityUid) <;> rfl

/-- **The choice takes effect** in every state of a run in which nothing is in its way. -/
theorem takesEffect_of_meets (jsonReal : ℚ → Value) (fromStr : String → Option Value)
    (events : List ReviewQueue.Event) (catalog : Catalog)
    (hmeets : Guarded.Meets (ReviewQueue.after fromStr) ReviewQueue.Legal {} events) :
    let d : Device := ⟨events.foldl (ReviewQueue.after fromStr) {}, catalog⟩
    ∀ (id : ℕ) (c : ConflictRow) (i : ResolutionInput), d.mirror.conflicts[id]? = some c →
      c.resolvedAt = false → ¬i.createdAt id < i.cutoff →
      (∀ stamp, i.draw.stamp = .ok stamp → stamp.Fresh d.mirror) → d.Holdable c →
      d.TakesEffect id c i (d.published jsonReal fromStr id i).2
        (d.resolveLoser jsonReal fromStr id i) := by
  intro d id c i hc hopen hlive hfresh hhold
  have hgrounded : d.mirror.Grounded := ReviewQueue.grounded_of_meets hmeets
  have hreplayable := hgrounded.choices c (List.mem_of_getElem? hc) hopen
  have hstate := hreplayable.state
  obtain ⟨hmem, hopened⟩ := openConflict_expire hstate hc hopen hlive
  have hblocked : applyBlockedReason c.kind = none := if_neg hstate.1
  have hexpired : (d.expired i).mirror.Grounded :=
    @ReviewQueue.grounded_after _ fromStr (.expire i.createdAt i.cutoff) hgrounded trivial
  have hresolve := Review.resolveConflict_applyLoser hopened hblocked
  by_cases hconnected : i.connected = true
  · have hpublished : d.published jsonReal fromStr id i =
        (d.expired i).publishLoser jsonReal fromStr i (opened (d.expired i).mirror c) := by
      unfold published
      rw [hopened]
      exact if_pos ⟨hblocked, hconnected⟩
    have hforce : ∀ stamp, i.draw.stamp = .ok stamp →
        d.mirror.InForce (d.resolveLoser jsonReal fromStr id i).device.mirror c := by
      intro stamp hstamp
      obtain ⟨hnew, hzero, habove⟩ := hfresh stamp hstamp
      have hin := @inForce_publishLoser c jsonReal fromStr (d.expired i) i hreplayable
        ⟨hhold.book, hhold.entity, hhold.shelf⟩ hexpired stamp hstamp ⟨hnew, hzero, habove⟩
      rw [← hpublished] at hin
      exact hin
    obtain ⟨p, hp, hreview, hresult⟩ : ∃ p : Review.Publication,
        p.outcome = (d.published jsonReal fromStr id i).2 ∧
        (d.resolveLoser jsonReal fromStr id i).review = ((d.mirror.review
          i.createdAt).resolveConflict id "apply_loser" i.cutoff (some p) i.env).1 ∧
        (d.resolveLoser jsonReal fromStr id i).result = ((d.mirror.review
          i.createdAt).resolveConflict id "apply_loser" i.cutoff (some p) i.env).2 := by
      unfold resolveLoser
      dsimp only
      rw [if_pos hconnected]
      exact ⟨_, rfl, rfl, rfl⟩
    rw [hresolve] at hreview hresult
    dsimp only at hreview hresult
    cases houtcome : (d.published jsonReal fromStr id i).2 with
    | error e =>
      rw [hp, houtcome] at hreview hresult
      refine ⟨fun _ ⟨stamp, hstamp⟩ => hforce stamp hstamp, fun _ _ => hresult, fun _ hok => ?_,
        fun _ _ => ?_⟩
      · rw [hresult] at hok
        cases hok
      · rw [hreview]
        exact Review.mem_publish hmem _
    | ok u =>
      rw [hp, houtcome] at hreview hresult
      have hstamp : ∃ stamp, i.draw.stamp = .ok stamp := by
        cases hdraw : i.draw.stamp with
        | ok stamp => exact ⟨stamp, rfl⟩
        | error e =>
          rw [hpublished, publishLoser_of_error hreplayable hdraw] at houtcome
          cases houtcome
      refine ⟨fun _ ⟨stamp, hstamp⟩ => hforce stamp hstamp, fun _ _ => hresult, fun _ _ => ?_,
        fun _ herror => ?_⟩
      · obtain ⟨stamp, hstamp⟩ := hstamp
        obtain ⟨hsettled, hclosed⟩ := Review.settled_refreshStatus
          (Review.mem_publish hmem _) rfl hopen _ i.env
        rw [hreview]
        exact ⟨hforce stamp hstamp, hsettled, hclosed⟩
      · rw [hresult] at herror
        cases herror
  · have hreview : d.resolveLoser jsonReal fromStr id i =
        ⟨{ (d.published jsonReal fromStr id i).1 with
            mirror := (d.published jsonReal fromStr id i).1.mirror.reviewed
              ((d.mirror.review i.createdAt).expire i.cutoff).1 },
          ((d.mirror.review i.createdAt).expire i.cutoff).1, .error (.invalidInput
            "sync is not connected; re-apply the value from its original screen")⟩ := by
      unfold resolveLoser
      dsimp only
      rw [if_neg hconnected, hresolve]
    rw [hreview]
    refine ⟨fun h => absurd h hconnected, fun h => absurd h hconnected, fun _ hok => ?_,
      fun _ _ => hmem⟩
    cases hok

/-! ## A conflict about a note -/

/-- A note for a highlight. -/
def noteOp (wall : ℤ) (opId note : String) : Op :=
  { sampleOp EntityKind.annotation wall opId false false
      ((∅ : Fields).insert "note" (.str note)) with
    entityUid := "note-a"
    bookUid := some "book" }

/-- A note arrives, and then an older one that loses against it. -/
def notedRun : List ReviewQueue.Event :=
  [.apply (noteOp 2000 "0000000000000000000000000000000b" "kept"),
    .apply (noteOp 1000 "0000000000000000000000000000000a" "discarded")]

/-- Then another machine deletes the highlight. -/
def deletedRun : List ReviewQueue.Event :=
  notedRun ++ [ReviewQueue.Event.apply
    { noteOp 3000 "0000000000000000000000000000000c" "" with
      deleted := true
      fields := ∅ }]

lemma legal_apply {m : Mirror} {op : Op} (h : validateOp op = .ok ()) :
    ReviewQueue.Legal m (.apply op) := h

/-- The conflict between the two notes. -/
def noteConflict : ConflictRow where
  kind := EntityKind.annotation
  entityUid := "note-a"
  field := "note"
  winner := .str "kept"
  loser := .str "discarded"
  winnerHlc := ⟨2000, 0, "dddddddddddddddddddddddddddddddd"⟩
  loserHlc := ⟨1000, 0, "dddddddddddddddddddddddddddddddd"⟩
  resolvedAt := false

/-- A resolution in which nothing fails of itself. -/
def sampleResolution : ResolutionInput where
  createdAt _ := "2026-01-02T00:00:00.000Z"
  cutoff := "2026-01-01T00:00:00.000Z"
  connected := true
  draw := SyncEngine.sampleDraw 4000
  source := { path := "" }
  now := "2026-01-03T00:00:00.000Z"
  projectBook _ d := (d, .ok ())
  env := ⟨"2026-01-01T00:00:00.000Z", fun _ => false, []⟩

/-- The device after a run, with an empty library. -/
def afterRun (events : List ReviewQueue.Event) : Device :=
  ⟨events.foldl (ReviewQueue.after fun _ => none) {}, {}⟩

/-- The user chooses the older note, and it takes effect. -/
theorem takesEffect_noted :
    (afterRun notedRun).TakesEffect 0 noteConflict sampleResolution
      ((afterRun notedRun).published (fun _ => .null) (fun _ => none) 0 sampleResolution).2
      ((afterRun notedRun).resolveLoser (fun _ => .null) (fun _ => none) 0 sampleResolution) := by
  refine takesEffect_of_meets (fun _ => .null) (fun _ => none) notedRun {}
    ⟨legal_apply (by decide +kernel), legal_apply (by decide +kernel), trivial⟩ 0 noteConflict
    sampleResolution (by decide +kernel) rfl (by decide) ?_ ⟨?_, ?_, ?_⟩
  · intro stamp hstamp
    cases hstamp
    decide +kernel
  · intro uid huid
    have hbook : uid = "book" := Option.some.inj (huid.symm.trans (by decide +kernel))
    rw [hbook]
    decide +kernel
  · intro hdeleted
    exact absurd hdeleted (by decide +kernel)
  · rintro ⟨hkind, -⟩
    cases hkind

/-- The highlight is deleted. Its conflict is live and not blocked, and the user chooses the older
note: the operation is recorded as one more conflict, the highlight stays deleted, and the choice
is settled. -/
theorem not_takesEffect_deleted :
    let d := afterRun deletedRun
    let r := d.resolveLoser (fun _ => .null) (fun _ => none) 0 sampleResolution
    Guarded.Meets (ReviewQueue.after fun _ => none) ReviewQueue.Legal {} deletedRun ∧
      d.mirror.conflicts[0]? = some noteConflict ∧
      (d.mirror.review sampleResolution.createdAt).isLive noteConflict = .ok true ∧
      applyBlockedReason noteConflict.kind = none ∧ r.result = .ok true ∧
      (r.device.mirror.row EntityKind.annotation "note-a").deleted = true ∧
      (r.device.mirror.conflicts.map fun c => (c.field, c.loser.get "note", c.resolvedAt)) =
        [("note", none, true), ("__deleted__", some (.str "discarded"), false)] ∧
      ¬d.TakesEffect 0 noteConflict sampleResolution
        (d.published (fun _ => .null) (fun _ => none) 0 sampleResolution).2 r := by
  have hdeleted : (((afterRun deletedRun).resolveLoser (fun _ => .null) (fun _ => none) 0
      sampleResolution).device.mirror.row EntityKind.annotation "note-a").deleted = true := by
    decide +kernel
  have hresult : ((afterRun deletedRun).resolveLoser (fun _ => .null) (fun _ => none) 0
      sampleResolution).result = .ok true := by decide +kernel
  refine ⟨⟨legal_apply (by decide +kernel), legal_apply (by decide +kernel),
    legal_apply (by decide +kernel), trivial⟩, by decide +kernel, by decide +kernel, rfl, hresult,
    hdeleted, by decide +kernel, fun heffect => ?_⟩
  obtain ⟨⟨uid, hkeeps, hholds⟩, -⟩ := heffect.settled true hresult
  rcases hkeeps with rfl | ⟨hkind, -⟩
  · exact Bool.false_ne_true (hholds.live.symm.trans hdeleted)
  · cases hkind

end Device

end TuxBooks
