import TuxBooks.Device.Capture
import TuxBooks.Sync.Run

set_option relaxedAutoImplicit false
set_option autoImplicit false

/-!
# What publishing a state does to the mirror

`emitState` compares a state with the mirror and applies the difference here under a fresh clock.
Whatever the difference is, afterwards the mirror holds the state that was to be published, unless
a tombstone is in the way; every other entity is as before.

## Main definitions

* `TuxBooks.Above` — a clock that `next_hlc` hands out over the stored one.
* `TuxBooks.EntityRow.Behind` — a row whose clocks every such clock passes.
* `TuxBooks.Mirror.Touched` — a mirror that differs from another in one entity.
* `TuxBooks.EntityRow.Holds` — a row that holds a published state.

## Main results

* `TuxBooks.Device.touched_emitState` — publishing a state touches its entity only.
* `TuxBooks.Device.holds_emitState` — afterwards the entity holds the state.
-/

namespace TuxBooks

/-! ## Fresh clocks -/

/-- A clock above the stored wall and counter. -/
def Above (clock : Option (ℤ × ℕ)) (h : Hlc) : Prop :=
  ∀ c ∈ clock, c.1 < h.wall ∨ c.1 = h.wall ∧ c.2 < h.counter

instance (clock : Option (ℤ × ℕ)) (h : Hlc) : Decidable (Above clock h) :=
  match clock with
  | none => isTrue fun _ hc => nomatch hc
  | some c => decidable_of_iff (c.1 < h.wall ∨ c.1 = h.wall ∧ c.2 < h.counter)
      ⟨fun hc _ he => Option.some.inj he ▸ hc, fun hc => hc c rfl⟩

/-- A clock above the stored one is above what an operation moved it to. -/
lemma above_of_observeHlc {m : Mirror} {remote h : Hlc} (ha : Above (m.observeHlc remote).clock h) :
    Above m.clock h ∧ remote < h := by
  unfold Mirror.observeHlc Above at ha
  rw [Hlc.lt_iff]
  cases hclock : m.clock with
  | none =>
    rw [hclock] at ha
    have := ha _ rfl
    exact ⟨fun _ hc => (nomatch hc), by tauto⟩
  | some c =>
    rw [hclock] at ha
    dsimp only at ha
    have hc : ∀ c' ∈ (some c : Option (ℤ × ℕ)), c' = c := fun _ hc => (Option.some.inj hc).symm
    split_ifs at ha with hw hcount
    · have := ha _ rfl
      refine ⟨fun c' hc' => ?_, by tauto⟩
      rw [hc c' hc']
      dsimp only at this
      omega
    · have := ha _ rfl
      refine ⟨fun c' hc' => ?_, by tauto⟩
      rw [hc c' hc']
      dsimp only at this
      omega
    · have := ha _ rfl
      refine ⟨fun c' hc' => ?_, ?_⟩
      · rw [hc c' hc']
        exact this
      · dsimp only at this
        omega

/-- What `build_op` draws: a new id and a clock above everything stored. -/
structure Device.Stamp.Fresh (m : Mirror) (stamp : Device.Stamp) : Prop where
  opId : stamp.opId ∉ m.appliedOps
  zero : Hlc.zero < stamp.hlc
  above : Above m.clock stamp.hlc

instance (m : Mirror) (stamp : Device.Stamp) : Decidable (stamp.Fresh m) :=
  decidable_of_iff (stamp.opId ∉ m.appliedOps ∧ Hlc.zero < stamp.hlc ∧ Above m.clock stamp.hlc)
    ⟨fun h => ⟨h.1, h.2.1, h.2.2⟩, fun h => ⟨h.opId, h.zero, h.above⟩⟩

namespace EntityRow

/-- The clocks of the row are behind every clock above the stored one. -/
def Behind (clock : Option (ℤ × ℕ)) (r : EntityRow) : Prop :=
  ∀ h, Hlc.zero < h → Above clock h →
    r.hlc < h ∧ r.restoreClock ≤ h ∧ ∀ f w, r.fields.lookup f = some w → w.hlc < h

lemma behind_default (clock : Option (ℤ × ℕ)) : ({} : EntityRow).Behind clock := by
  intro h hzero _
  refine ⟨hzero, hzero.le, fun f w hw => ?_⟩
  simp at hw

lemma Behind.mono {clock clock' : Option (ℤ × ℕ)} {r : EntityRow} (hr : r.Behind clock)
    (hclock : ∀ h, Above clock' h → Above clock h) : r.Behind clock' :=
  fun h hzero ha => hr h hzero (hclock h ha)

/-- The value of a field, `null` when the row does not have it. -/
def value (r : EntityRow) (field : String) : Value :=
  match r.fields.lookup field with
  | some w => w.value
  | none => .null

@[simp] lemma value_touch (r : EntityRow) (bookUid : Option String) (field : String) :
    (r.touch bookUid).value field = r.value field := rfl

end EntityRow

/-! ## Reading states -/

lemma Mirror.lookup_loadState (m : Mirror) (kind : EntityKind) (uid field : String) :
    (m.loadState kind uid).1.lookup field =
      if field ∈ fieldNames kind then some ((m.row kind uid).value field) else none :=
  Table.lookup_ofKeys _ _ _

lemma Mirror.allNull_loadState (m : Mirror) (kind : EntityKind) (uid : String) :
    (m.loadState kind uid).1.allNull = true ↔
      ∀ field ∈ fieldNames kind, (m.row kind uid).value field = .null := by
  have hnull : ∀ v : Value, v.isNull = true ↔ v = .null := by
    intro v
    cases v <;> simp [Value.isNull]
  unfold State.allNull
  rw [List.all_eq_true]
  simp only [hnull]
  constructor
  · intro h field hfield
    have hlookup := m.lookup_loadState kind uid field
    rw [if_pos hfield] at hlookup
    exact h _ (AList.mem_lookup_iff.mp hlookup)
  · intro h e he
    have hlookup : (m.loadState kind uid).1.lookup e.1 = some e.2 := AList.mem_lookup_iff.mpr he
    rw [m.lookup_loadState] at hlookup
    split_ifs at hlookup with hfield
    rw [← Option.some.inj hlookup]
    exact h _ hfield

/-- A state has every field of its kind and no other. -/
def State.Complete (kind : EntityKind) (state : State) : Prop :=
  ∀ field, (state.lookup field).isSome ↔ field ∈ fieldNames kind

lemma complete_canonicalFromSnapshot (kind : EntityKind) (snapshot : Fields) :
    State.Complete kind (canonicalFromSnapshot kind snapshot) := by
  intro field
  rw [lookup_canonicalFromSnapshot]
  split_ifs with h <;> simp [h]

/-- Nothing changed exactly when every field of the state is as it was. -/
lemma changedFields_isEmpty {previous current : State} :
    (changedFields previous current).entries.isEmpty = true ↔
      ∀ field value, current.lookup field = some value → previous.lookup field = some value := by
  rw [List.isEmpty_iff, List.eq_nil_iff_forall_not_mem]
  constructor
  · intro h field value hvalue
    by_contra hne
    refine h ⟨field, value⟩ (AList.mem_lookup_iff.mp ?_)
    rw [Option.mem_def, lookup_changedFields, hvalue]
    simpa using hne
  · intro h e he
    have hlookup : (changedFields previous current).lookup e.1 = some e.2 :=
      AList.mem_lookup_iff.mpr he
    rw [lookup_changedFields, Option.filter_eq_some_iff] at hlookup
    simpa [h e.1 e.2 hlookup.1] using hlookup.2

/-! ## One entity of the mirror -/

/-- Of what operations read, `m'` differs from `m` in the entity `k`, in a clock that did not go
back and in the log. -/
structure Mirror.Touched (m : Mirror) (k : EntityKind × String) (m' : Mirror) : Prop where
  lookup : ∀ k', k' ≠ k → m'.entities.lookup k' = m.entities.lookup k'
  clock : ∀ h, Above m'.clock h → Above m.clock h
  merges : m'.merges = m.merges
  entityMerges : m'.entityMerges = m.entityMerges
  bookTrash : m'.bookTrash = m.bookTrash

namespace Mirror

variable {m m' m'' : Mirror} {k : EntityKind × String}

lemma Touched.refl (m : Mirror) (k : EntityKind × String) : m.Touched k m :=
  ⟨fun _ _ => rfl, fun _ h => h, rfl, rfl, rfl⟩

lemma Touched.trans (h : m.Touched k m') (h' : m'.Touched k m'') : m.Touched k m'' :=
  ⟨fun k' hk => (h'.lookup k' hk).trans (h.lookup k' hk), fun c hc => h.clock c (h'.clock c hc),
    h'.merges.trans h.merges, h'.entityMerges.trans h.entityMerges, h'.bookTrash.trans h.bookTrash⟩

lemma Wrote.touched {r : EntityRow} (h : m.Wrote k r m') : m.Touched k m' := by
  refine ⟨fun k' hk => ?_, fun c hc => ?_, h.merges, h.entityMerges, h.bookTrash⟩
  · rw [h.lookup, if_neg hk]
  · rwa [h.clock] at hc

lemma touched_markApplied (m : Mirror) (op : Op) : m.Touched k (m.markApplied op) :=
  ⟨fun _ _ => rfl, fun _ h => h, rfl, rfl, rfl⟩

lemma touched_observeHlc (m : Mirror) (remote : Hlc) : m.Touched k (m.observeHlc remote) :=
  ⟨fun _ _ => rfl, fun _ h => (above_of_observeHlc h).1, rfl, rfl, rfl⟩

lemma touched_recordIssue (m : Mirror) (key issue : String) :
    m.Touched k (m.recordIssue key issue) := by
  unfold recordIssue
  split_ifs <;> exact ⟨fun _ _ => rfl, fun _ h => h, rfl, rfl, rfl⟩

lemma touched_recordConflict (m : Mirror) (kind : EntityKind) (uid field : String)
    (winner loser : Value) (winnerHlc loserHlc : Hlc) :
    m.Touched k (m.recordConflict kind uid field winner loser winnerHlc loserHlc) := by
  have hissue := m.touched_recordIssue (k := k) (conflictIssueKey kind uid field) "conflict"
  unfold recordConflict
  split_ifs
  · exact Touched.refl m k
  · exact ⟨fun _ _ => rfl, fun _ h => h, rfl, rfl, rfl⟩
  · exact hissue.trans ⟨fun _ _ => rfl, fun _ h => h, rfl, rfl, rfl⟩

/-- Keeping an edit that met a tombstone leaves every entity. -/
lemma touched_recordTombstoneConflict (m : Mirror) (kind : EntityKind) (uid : String)
    (loser : State) (now : Hlc) : m.Touched k (m.recordTombstoneConflict kind uid loser now) := by
  unfold recordTombstoneConflict
  split_ifs
  · exact m.touched_recordConflict ..
  · exact Touched.refl m k

@[simp] lemma entities_recordTombstoneConflict (m : Mirror) (kind : EntityKind) (uid : String)
    (loser : State) (now : Hlc) :
    (m.recordTombstoneConflict kind uid loser now).entities = m.entities := by
  unfold recordTombstoneConflict
  split_ifs
  · rw [entities_recordConflict]
  · rfl

end Mirror

/-! ## Applying an operation of a state kind -/

section Apply

variable (fromStr : String → Option Value) {m : Mirror} {op : Op} {uid : String}

/-- An operation of a state kind touches the entity it addresses. -/
lemma Mirror.touched_applyOp (hstate : op.kind.IsState) (hkey : m.stateKey op = .ok uid) :
    m.Touched (op.kind, uid) (m.applyOp fromStr op).1 := by
  by_cases hnew : op.opId ∈ m.appliedOps
  · rw [applyOp_of_mem fromStr hnew]
    exact Touched.refl m _
  by_cases hlive : m.drops op = false
  · rw [applyOp_of_state fromStr hnew hstate hlive hkey]
    exact ((m.touched_observeHlc op.hlc).trans
      ((m.observeHlc op.hlc).wrote_applyStateOp hkey).touched).trans (touched_markApplied _ op)
  · have hdrops : (op.bookUid.any fun uid => ((m.observeHlc op.hlc).forgottenReplacement
        ((m.observeHlc op.hlc).canonicalBookUid uid)).isSome) = true :=
      Bool.eq_true_of_not_eq_false hlive
    unfold Mirror.applyOp
    rw [if_neg hnew]
    dsimp only
    rw [if_neg hstate.1, if_neg hstate.2, if_pos hdrops]
    exact (m.touched_observeHlc op.hlc).trans (touched_markApplied _ op)

/-- A new operation on a book that is not forgotten leaves the row that `EntityRow.step` gives. -/
lemma Mirror.row_applyOp (hnew : op.opId ∉ m.appliedOps) (hstate : op.kind.IsState)
    (hlive : m.drops op = false) (hkey : m.stateKey op = .ok uid) :
    (m.applyOp fromStr op).1.entities.lookup (op.kind, uid) =
        some ((m.row op.kind uid).step op (op.bookUid.map m.canonicalBookUid)) ∧
      (m.applyOp fromStr op).1.clock = (m.observeHlc op.hlc).clock := by
  have hwrote := (m.observeHlc op.hlc).wrote_applyStateOp hkey
  rw [applyOp_of_state fromStr hnew hstate hlive hkey]
  refine ⟨?_, hwrote.clock⟩
  exact (hwrote.lookup _).trans (if_pos rfl)

end Apply

/-! ## The row that is left -/

namespace EntityRow

variable {op : Op} {r : EntityRow} {clock clock' : Option (ℤ × ℕ)}

/-- An upsert under a clock that everything newer passes leaves a row that is behind. -/
lemma Behind.put (hr : r.Behind clock)
    (hclock : ∀ h, Above clock' h → Above clock h ∧ op.hlc < h) : (r.put op).Behind clock' := by
  intro h hzero ha
  obtain ⟨ha, hop⟩ := hclock h ha
  obtain ⟨hhlc, hrestore, hfields⟩ := hr h hzero ha
  have hflags := sameFlags_put op r
  have hrestore' : (r.put op).restoreClock ≤ h := by
    unfold restoreClock restoredHlc
    rw [hflags.restoredClock]
    exact hrestore
  cases hmode : op.kind.mergeMode with
  | field =>
    refine ⟨(hlc_put_of_field hmode r).symm ▸ hhlc, hrestore', fun f w hw => ?_⟩
    rw [lookup_fields_put hmode, Op.write] at hw
    cases hvalue : op.fields.lookup f with
    | none =>
      rw [hvalue] at hw
      exact hfields f w hw
    | some v =>
      rw [hvalue] at hw
      change Lww.put FieldRow.hlc (r.fields.lookup f) ⟨v, op.hlc⟩ = some w at hw
      cases hold : r.fields.lookup f with
      | none =>
        rw [hold] at hw
        cases hw
        exact hop
      | some old =>
        rw [hold, Lww.put] at hw
        split_ifs at hw
        · cases hw
          exact hop
        · cases hw
          exact hfields f _ hold
  | entity =>
    unfold EntityRow.put at hrestore' ⊢
    rw [hmode] at hrestore' ⊢
    dsimp only at hrestore' ⊢
    split_ifs with hle
    · exact ⟨hhlc, hrestore, hfields⟩
    · refine ⟨hop, hrestore, fun f w hw => ?_⟩
      rw [Table.lookup_mapRows, Option.map_eq_some_iff] at hw
      obtain ⟨v, -, rfl⟩ := hw
      exact hop

lemma Behind.kill (hr : r.Behind clock) (hclock : ∀ h, Above clock' h → Above clock h) :
    (r.kill op).Behind clock' :=
  hr.mono hclock

lemma Behind.touch (hr : r.Behind clock) (bookUid : Option String) :
    (r.touch bookUid).Behind clock :=
  hr

/-- What the fields of a row are after an upsert under a clock above all of them: the values of the
operation, and in field mode the old values of the other fields. -/
lemma value_put (hnew : r.hlc < op.hlc)
    (hfields : ∀ f w, r.fields.lookup f = some w → w.hlc < op.hlc)
    (field : String) : (r.put op).value field =
      match op.fields.lookup field, op.kind.mergeMode with
      | some v, _ => v
      | none, .field => r.value field
      | none, .entity => .null := by
  cases hmode : op.kind.mergeMode with
  | field =>
    unfold value
    rw [lookup_fields_put hmode, Op.write]
    cases op.fields.lookup field with
    | none => rfl
    | some v =>
      change (match Lww.put FieldRow.hlc (r.fields.lookup field) ⟨v, op.hlc⟩ with
        | some w => w.value
        | none => .null) = v
      cases hold : r.fields.lookup field with
      | none => rfl
      | some old => rw [Lww.put_of_lt (hfields field old hold)]
  | entity =>
    unfold value EntityRow.put
    rw [hmode]
    dsimp only
    rw [if_neg (not_le.mpr hnew), Table.lookup_mapRows]
    cases op.fields.lookup field <;> rfl

/-- A delete under a clock above those of a live row makes it a tombstone. -/
lemma step_delete (hlive : r.deleted = false) (hop : op.deleted = true)
    (hrestore : r.restoreClock ≤ op.hlc) (hhlc : r.hlc < op.hlc) {bookUid : Option String} :
    r.step op bookUid = (r.touch bookUid).kill op := by
  have hrestore' : ¬(r.touch bookUid).restoreClock > op.hlc := not_lt.mpr hrestore
  have hold : ¬(op.kind.mergeMode = .entity ∧ op.hlc < (r.touch bookUid).hlc) :=
    fun h => h.2.asymm hhlc
  unfold step delete
  rw [if_pos hop, if_neg (by simpa [touch] using hlive), if_neg hrestore', if_neg hold]

/-- An upsert of a live row writes its fields. -/
lemma step_upsert (hlive : r.deleted = false) (hop : op.deleted = false) {bookUid : Option String} :
    r.step op bookUid = (r.touch bookUid).put op := by
  unfold step upsert
  rw [if_neg (by simpa using hop), if_neg (by simpa [touch] using hlive)]

/-- What a row is after the publication of a state: a tombstone or nothing for a delete; else the
state, unless there was a tombstone, which stays. -/
def Holds (kind : EntityKind) (deleted : Bool) (state : State) (before after : EntityRow) : Prop :=
  if deleted then after.deleted = true ∨ ∀ field ∈ fieldNames kind, after.value field = .null
  else before.deleted = true ∨
    ∀ field ∈ fieldNames kind, state.lookup field = some (after.value field)

end EntityRow

/-- What a publication leaves of its entity, whether or not it succeeded. -/
structure Mirror.Published (m : Mirror) (kind : EntityKind) (uid : String)
    (bookUid : Option String) (deleted : Bool) (m' : Mirror) : Prop where
  behind : (m'.row kind uid).Behind m'.clock
  flag : deleted = false → (m'.row kind uid).deleted = (m.row kind uid).deleted
  book : ∀ row, m'.entities.lookup (kind, uid) = some row →
    row.bookUid = bookUid.or (m.row kind uid).bookUid ∨ m.entities.lookup (kind, uid) = some row

lemma Mirror.published_self {m : Mirror} {kind : EntityKind} {uid : String}
    (hbehind : (m.row kind uid).Behind m.clock) (bookUid : Option String) (deleted : Bool) :
    m.Published kind uid bookUid deleted m :=
  ⟨hbehind, fun _ => rfl, fun _ h => Or.inr h⟩

namespace Device

variable (jsonReal : ℚ → Value) (fromStr : String → Option Value)

/-- The mirror rows that operations on an entity address. -/
def Addresses (m : Mirror) (kind : EntityKind) (uid key : String) : Prop :=
  ∀ op : Op, op.kind = kind → op.entityUid = uid → m.stateKey op = .ok key

lemma addresses_self {m : Mirror} {kind : EntityKind} {uid : String}
    (h : kind ≠ .collection ∧ kind ≠ .membership) : Addresses m kind uid uid := by
  rintro op rfl rfl
  unfold Mirror.stateKey
  cases hk : op.kind <;> first | rfl | exact absurd hk h.1 | exact absurd hk h.2

variable {d : Device} {kind : EntityKind} {uid key : String} {bookUid : Option String}
  {deleted : Bool} {state : State} {draw : Draw}

lemma writeAndApply_fst {op : Op} (hstate : op.kind.IsState) :
    (d.writeAndApply jsonReal fromStr op).1.1 =
      { d with mirror := (d.mirror.applyOp fromStr op).1 } := by
  unfold writeAndApply Device.applyOp
  rw [if_neg hstate.1]
  by_cases hmem : op.opId ∈ d.mirror.appliedOps
  · rw [if_pos hmem, Mirror.applyOp_of_mem fromStr hmem]
  · rw [if_neg hmem]
    rcases d.mirror.applyOp fromStr op with ⟨m, _ | _⟩ <;> rfl

/-- **Publishing a state touches its entity only**, and no row of the catalog. -/
theorem touched_emitState (hstate : kind.IsState) (hkey : Addresses d.mirror kind uid key) :
    d.mirror.Touched (kind, key)
        (d.emitState jsonReal fromStr kind uid bookUid deleted false state draw).1.1.mirror ∧
      (d.emitState jsonReal fromStr kind uid bookUid deleted false state draw).1.1.catalog =
        d.catalog := by
  have hself : d.mirror.Touched (kind, key) d.mirror ∧ d.catalog = d.catalog :=
    ⟨Mirror.Touched.refl _ _, rfl⟩
  have hwrite : ∀ op : Op, op.kind = kind → op.entityUid = uid →
      d.mirror.Touched (kind, key) (d.writeAndApply jsonReal fromStr op).1.1.mirror ∧
        (d.writeAndApply jsonReal fromStr op).1.1.catalog = d.catalog := by
    intro op hkind huid
    have hop : op.kind.IsState := hkind.symm ▸ hstate
    rw [writeAndApply_fst jsonReal fromStr hop]
    exact ⟨hkind ▸ Mirror.touched_applyOp fromStr hop (hkey op hkind huid), rfl⟩
  unfold emitState
  dsimp only
  split_ifs
  · exact hself
  · cases draw.stamp with
    | error e => exact hself
    | ok stamp => exact hwrite _ rfl rfl
  · exact ⟨Mirror.touched_recordTombstoneConflict .., rfl⟩
  · exact hself
  · cases draw.stamp with
    | error e => exact hself
    | ok stamp => exact hwrite _ rfl rfl

/-- What `emitState` may rely on: it addresses its own entity, its book is not forgotten, the
stamp is fresh and the row is behind it. -/
structure Ready (m : Mirror) (kind : EntityKind) (uid : String) (bookUid : Option String)
    (draw : Draw) : Prop where
  state : kind.IsState
  key : Addresses m kind uid uid
  live : (bookUid.any fun uid => (m.forgottenReplacement (m.canonicalBookUid uid)).isSome) = false
  fresh : ∀ stamp, draw.stamp = .ok stamp → stamp.Fresh m
  behind : (m.row kind uid).Behind m.clock

/-- The mirror after a publication that was written. -/
lemma Ready.row_applyOp (h : Ready d.mirror kind uid bookUid draw) {stamp : Stamp}
    (hstamp : draw.stamp = .ok stamp) {op : Op} (hkind : op.kind = kind)
    (huid : op.entityUid = uid) (hid : op.opId = stamp.opId) (hbook : op.bookUid = bookUid) :
    (d.mirror.applyOp fromStr op).1.entities.lookup (kind, uid) =
        some ((d.mirror.row kind uid).step op (bookUid.map d.mirror.canonicalBookUid)) ∧
      (d.mirror.applyOp fromStr op).1.clock = (d.mirror.observeHlc op.hlc).clock := by
  have hnew : op.opId ∉ d.mirror.appliedOps := hid ▸ (h.fresh stamp hstamp).opId
  have hlive : d.mirror.drops op = false := by
    unfold Mirror.drops
    rw [hbook]
    exact h.live
  have hrow := Mirror.row_applyOp fromStr hnew (hkind.symm ▸ h.state) hlive (h.key op hkind huid)
  rw [hkind, hbook] at hrow
  exact hrow

/-- A publication that was written, seen from the row it leaves. -/
lemma Ready.published_of_step (h : Ready d.mirror kind uid bookUid draw) {stamp : Stamp}
    (hstamp : draw.stamp = .ok stamp) (op : Op) (hkind : op.kind = kind)
    (huid : op.entityUid = uid) (hid : op.opId = stamp.opId) (hbook : op.bookUid = bookUid)
    {r : EntityRow} (hstep : ((d.mirror.row kind uid).step op
      (bookUid.map d.mirror.canonicalBookUid)) = r)
    (hbehind : r.Behind (d.mirror.observeHlc op.hlc).clock)
    (hflag : op.deleted = false → r.deleted = (d.mirror.row kind uid).deleted)
    (huid' : r.bookUid =
      (bookUid.map d.mirror.canonicalBookUid).or (d.mirror.row kind uid).bookUid) :
    d.mirror.Published kind uid (bookUid.map d.mirror.canonicalBookUid) op.deleted
        (d.mirror.applyOp fromStr op).1 ∧
      (d.mirror.applyOp fromStr op).1.row kind uid = r := by
  obtain ⟨hlookup, hclock⟩ := h.row_applyOp fromStr hstamp hkind huid hid hbook
  rw [hstep] at hlookup
  have hrow : (d.mirror.applyOp fromStr op).1.row kind uid = r := by
    unfold Mirror.row
    rw [hlookup, Option.getD_some]
  refine ⟨⟨?_, fun hdel => ?_, fun row hrow' => ?_⟩, hrow⟩
  · rw [hrow, hclock]
    exact hbehind
  · rw [hrow]
    exact hflag hdel
  · rw [hlookup] at hrow'
    obtain rfl := Option.some.inj hrow'
    exact Or.inl huid'

/-- What the fields of an operation say about a field of the state: its value, or nothing when the
mirror has that value. -/
lemma some_value_emittedFields {field : String} {v : Value} (hfield : field ∈ fieldNames kind)
    (hv : state.lookup field = some v) :
    some (match (emittedFields kind (changedFields (d.mirror.loadState kind uid).1 state)
        state).lookup field, kind.mergeMode with
      | some v, _ => v
      | none, .field => (d.mirror.row kind uid).value field
      | none, .entity => .null) = some v := by
  unfold emittedFields
  cases kind.mergeMode with
  | entity => rw [hv]
  | field =>
    rw [lookup_changedFields, hv, Mirror.lookup_loadState, if_pos hfield]
    by_cases hsame : (d.mirror.row kind uid).value field = v
    · rw [hsame, Option.filter_some, if_neg (by simp)]
    · have hne : (some ((d.mirror.row kind uid).value field) != some v) = true := by
        simpa using hsame
      rw [Option.filter_some, if_pos hne]

/-- **Publishing a state leaves the state in the mirror**, or the tombstone that was there. -/
theorem holds_emitState (deleted : Bool) (h : Ready d.mirror kind uid bookUid draw)
    (hstate : State.Complete kind state) :
    let r := d.emitState jsonReal fromStr kind uid bookUid deleted false state draw
    d.mirror.Published kind uid (bookUid.map d.mirror.canonicalBookUid) deleted r.1.1.mirror ∧
      (r.2 = .ok () → EntityRow.Holds kind deleted state (d.mirror.row kind uid)
        (r.1.1.mirror.row kind uid)) := by
  have hself := Mirror.published_self h.behind (bookUid.map d.mirror.canonicalBookUid) deleted
  have hload : (d.mirror.loadState kind uid).2 = (d.mirror.row kind uid).deleted := rfl
  unfold emitState
  dsimp only
  rw [hload]
  by_cases hdel : deleted = true
  · subst hdel
    rw [if_pos rfl]
    by_cases hquiet : ((d.mirror.row kind uid).deleted ||
        (d.mirror.loadState kind uid).1.allNull) = true
    · rw [if_pos hquiet]
      refine ⟨hself, fun _ => ?_⟩
      unfold EntityRow.Holds
      rw [if_pos rfl]
      exact (Bool.or_eq_true _ _ ▸ hquiet).imp_right (Mirror.allNull_loadState _ _ _).mp
    · rw [if_neg hquiet]
      cases hstamp : draw.stamp with
      | error e => exact ⟨hself, fun herr => (nomatch herr)⟩
      | ok stamp =>
        have hlive : (d.mirror.row kind uid).deleted = false := by
          simp only [Bool.or_eq_true, not_or, Bool.not_eq_true] at hquiet
          exact hquiet.1
        have hfresh := h.fresh stamp hstamp
        obtain ⟨hhlc, hrestore, -⟩ := h.behind stamp.hlc hfresh.zero hfresh.above
        have hpub := h.published_of_step fromStr hstamp
          (buildOp stamp kind uid bookUid true false ∅ (some (d.mirror.loadState kind uid).1))
          rfl rfl rfl rfl (EntityRow.step_delete hlive rfl hrestore hhlc)
          (((h.behind.touch _).kill fun c hc => (above_of_observeHlc hc).1))
          (fun hd => (nomatch hd)) rfl
        dsimp only
        rw [writeAndApply_fst jsonReal fromStr h.state]
        refine ⟨hpub.1, fun _ => ?_⟩
        unfold EntityRow.Holds
        rw [if_pos rfl]
        exact Or.inl (congrArg EntityRow.deleted hpub.2)
  · rw [if_neg hdel]
    obtain rfl : deleted = false := Bool.eq_false_of_not_eq_true hdel
    by_cases hdead : ((d.mirror.row kind uid).deleted && !false) = true
    · rw [if_pos hdead]
      have hbefore : (d.mirror.row kind uid).deleted = true := by simpa using hdead
      have htouched := d.mirror.touched_recordTombstoneConflict (k := (kind, uid)) kind uid state
        draw.now
      have hrow : (d.mirror.recordTombstoneConflict kind uid state draw.now).row kind uid =
          d.mirror.row kind uid := by
        unfold Mirror.row
        rw [Mirror.entities_recordTombstoneConflict]
      refine ⟨⟨?_, fun _ => congrArg EntityRow.deleted hrow, fun row hlookup => Or.inr ?_⟩,
        fun _ => ?_⟩
      · rw [hrow]
        exact h.behind.mono htouched.clock
      · rwa [Mirror.entities_recordTombstoneConflict] at hlookup
      · unfold EntityRow.Holds
        rw [if_neg Bool.false_ne_true]
        exact Or.inl hbefore
    · rw [if_neg hdead]
      have hlive : (d.mirror.row kind uid).deleted = false := by simpa using hdead
      by_cases hsame : (changedFields (d.mirror.loadState kind uid).1 state).entries.isEmpty = true
      · rw [if_pos hsame]
        refine ⟨hself, fun _ => ?_⟩
        unfold EntityRow.Holds
        rw [if_neg Bool.false_ne_true]
        refine Or.inr fun field hfield => ?_
        obtain ⟨v, hv⟩ := Option.isSome_iff_exists.mp ((hstate field).mpr hfield)
        have hprev := changedFields_isEmpty.mp hsame field v hv
        rw [Mirror.lookup_loadState, if_pos hfield] at hprev
        rw [hv, ← hprev]
      · rw [if_neg hsame]
        cases hstamp : draw.stamp with
        | error e => exact ⟨hself, fun herr => (nomatch herr)⟩
        | ok stamp =>
          have hfresh := h.fresh stamp hstamp
          obtain ⟨hhlc, -, hfields⟩ := h.behind stamp.hlc hfresh.zero hfresh.above
          dsimp only
          have hpub := h.published_of_step fromStr hstamp
            (buildOp stamp kind uid bookUid false false (emittedFields kind
              (changedFields (d.mirror.loadState kind uid).1 state) state) none) rfl rfl rfl rfl
            (EntityRow.step_upsert hlive rfl)
            ((h.behind.touch _).put fun c hc => above_of_observeHlc hc)
            (fun _ => (EntityRow.sameFlags_put _ _).deleted) (EntityRow.bookUid_put _ _)
          rw [writeAndApply_fst jsonReal fromStr h.state]
          refine ⟨hpub.1, fun _ => ?_⟩
          unfold EntityRow.Holds
          rw [if_neg Bool.false_ne_true]
          refine Or.inr fun field hfield => ?_
          obtain ⟨v, hv⟩ := Option.isSome_iff_exists.mp ((hstate field).mpr hfield)
          rw [hv, hpub.2, EntityRow.value_put hhlc hfields]
          exact (some_value_emittedFields hfield hv).symm

end Device

end TuxBooks
