import TuxBooks.Lib.Lww
import TuxBooks.Sync.Merge

set_option relaxedAutoImplicit false
set_option autoImplicit false

/-!
# One entity row under one operation

A state operation writes one row of the mirror and, of everything operations read, nothing
else. This file gives the row after the operation as a function of the row before it, which is
what the convergence results are about.

## Main definitions

* `TuxBooks.EntityRow.step` — the row after one state operation.
* `TuxBooks.Mirror.Wrote` — a mirror that differs from another in one row only.
* `TuxBooks.Mirror.drops` — the operation names a forgotten book.

## Main results

* `TuxBooks.Mirror.wrote_applyStateOp` — a state operation writes `EntityRow.step` at its key.
* `TuxBooks.Mirror.wrote_applyOp` — so does the dispatcher, for an operation not seen before.
* `TuxBooks.EntityRow.lookup_fields_put` — a field is a last-writer-wins register.
-/

namespace TuxBooks

/-! ## The row functions -/

/-- The kinds whose operations go through the state path. -/
def EntityKind.IsState (kind : EntityKind) : Prop := kind ≠ .bookIdentity ∧ kind ≠ .book

instance (kind : EntityKind) : Decidable kind.IsState :=
  inferInstanceAs (Decidable (_ ∧ _))

/-- What an upsert writes to a field. -/
def Op.write (op : Op) (field : String) : Option FieldRow :=
  (op.fields.lookup field).map fun value => ⟨value, op.hlc⟩

namespace EntityRow

/-- Refresh the book uid of a row. -/
def touch (bookUid : Option String) (r : EntityRow) : EntityRow :=
  { r with bookUid := bookUid.or r.bookUid }

/-- Write one field unless the row has it with a clock that is at least as new. -/
def putField (op : Op) (r : EntityRow) (field : String) (value : Value) : EntityRow :=
  match r.fields.lookup field with
  | some existing =>
    if op.hlc ≤ existing.hlc then r
    else { r with fields := r.fields.insert field ⟨value, op.hlc⟩ }
  | none => { r with fields := r.fields.insert field ⟨value, op.hlc⟩ }

/-- Write the fields of an upsert by the merge mode of its kind. -/
def put (op : Op) (r : EntityRow) : EntityRow :=
  match op.kind.mergeMode with
  | .field => op.fields.entries.foldl (fun r e => r.putField op e.1 e.2) r
  | .entity =>
    if op.hlc ≤ r.hlc then r
    else { r with fields := op.fields.mapRows fun _ value => ⟨value, op.hlc⟩, hlc := op.hlc }

/-- The delete clock that an upsert on a tombstone compares with. -/
def deleteClock (r : EntityRow) : Hlc := r.deletedHlc.getD Hlc.zero

/-- The restore clock that deletes and restores compare with. -/
def restoreClock (r : EntityRow) : Hlc := r.restoredHlc.getD Hlc.zero

/-- A live row marked as restored by `op`. -/
def revive (op : Op) (r : EntityRow) : EntityRow :=
  { r with deleted := false, restoredClock := some op.hlc }

/-- A tombstone written by `op`. -/
def kill (op : Op) (r : EntityRow) : EntityRow :=
  { r with deleted := true, deletedClock := some op.hlc }

/-- The row after an upsert. -/
def upsert (op : Op) (r : EntityRow) : EntityRow :=
  if r.deleted then
    if ¬op.restore then r
    else if r.restoreClock > op.hlc ∨ r.deleteClock ≥ op.hlc then r
    else (r.revive op).put op
  else r.put op

/-- The row after a delete. -/
def delete (op : Op) (r : EntityRow) : EntityRow :=
  if r.deleted then r
  else if r.restoreClock > op.hlc then r
  else if op.kind.mergeMode = .entity ∧ op.hlc < r.hlc then r
  else r.kill op

/-- The row after one state operation. -/
def step (op : Op) (bookUid : Option String) (r : EntityRow) : EntityRow :=
  if op.deleted then (r.touch bookUid).delete op else (r.touch bookUid).upsert op

/-! ## Reading a row back -/

/-- One field write is one write to the register of that field. -/
lemma lookup_putField (op : Op) (r : EntityRow) (field : String) (value : Value) (f : String) :
    (r.putField op field value).fields.lookup f =
      if f = field then Lww.put FieldRow.hlc (r.fields.lookup f) ⟨value, op.hlc⟩
      else r.fields.lookup f := by
  unfold putField
  cases hrow : r.fields.lookup field with
  | none =>
    rw [Table.lookup_insert']
    split_ifs with hf
    · rw [hf, hrow, Lww.put_none]
    · rfl
  | some existing =>
    by_cases hle : op.hlc ≤ existing.hlc
    · simp only [if_pos hle]
      split_ifs with hf
      · rw [hf, hrow, Lww.put_of_le hle]
      · rfl
    · simp only [if_neg hle]
      rw [Table.lookup_insert']
      split_ifs with hf
      · rw [hf, hrow, Lww.put_of_lt (not_le.mp hle)]
      · rfl

/-- **A field of a field-mode row is a last-writer-wins register.** -/
theorem lookup_fields_put {op : Op} (hmode : op.kind.mergeMode = .field) (r : EntityRow)
    (f : String) :
    (r.put op).fields.lookup f = Lww.join FieldRow.hlc (r.fields.lookup f) (op.write f) := by
  unfold put
  rw [hmode]
  have hfold := Table.foldl_update_lookup op.fields (fun r f => EntityRow.fields r |>.lookup f)
    (fun r field value => r.putField op field value)
    (fun _ value current => Lww.put FieldRow.hlc current ⟨value, op.hlc⟩)
    (fun r field value => by rw [lookup_putField, if_pos rfl])
    (fun r field value f hf => by rw [lookup_putField, if_neg hf]) r f
  rw [Op.write]
  cases hvalue : op.fields.lookup f with
  | none => simpa [hvalue] using hfold
  | some value => simpa [hvalue, Lww.join] using hfold

/-- The flags and clocks of a row, which the fields do not affect. -/
structure SameFlags (r r' : EntityRow) : Prop where
  deleted : r'.deleted = r.deleted
  deletedClock : r'.deletedClock = r.deletedClock
  restoredClock : r'.restoredClock = r.restoredClock

lemma sameFlags_putField (op : Op) (r : EntityRow) (field : String) (value : Value) :
    SameFlags r (r.putField op field value) := by
  unfold putField
  split
  · split_ifs <;> exact ⟨rfl, rfl, rfl⟩
  · exact ⟨rfl, rfl, rfl⟩

/-- Writing fields leaves the flags of a row. -/
lemma sameFlags_put (op : Op) (r : EntityRow) : SameFlags r (r.put op) := by
  unfold put
  split
  · generalize op.fields.entries = entries
    induction entries generalizing r with
    | nil => exact ⟨rfl, rfl, rfl⟩
    | cons e entries ih =>
      have hstep := sameFlags_putField op r e.1 e.2
      have hrest := ih (r.putField op e.1 e.2)
      exact ⟨hrest.deleted.trans hstep.deleted, hrest.deletedClock.trans hstep.deletedClock,
        hrest.restoredClock.trans hstep.restoredClock⟩
  · split_ifs <;> exact ⟨rfl, rfl, rfl⟩

/-- Writing fields leaves the book of a row. -/
lemma bookUid_put (op : Op) (r : EntityRow) : (r.put op).bookUid = r.bookUid := by
  have hfield : ∀ (r : EntityRow) field value, (r.putField op field value).bookUid = r.bookUid := by
    intro r field value
    unfold putField
    split
    · split_ifs <;> rfl
    · rfl
  unfold put
  split
  · generalize op.fields.entries = entries
    induction entries generalizing r with
    | nil => rfl
    | cons e entries ih => exact (ih _).trans (hfield r e.1 e.2)
  · split_ifs <;> rfl

/-- Writing fields one by one leaves the clock of the row. -/
lemma hlc_put_of_field {op : Op} (hmode : op.kind.mergeMode = .field) (r : EntityRow) :
    (r.put op).hlc = r.hlc := by
  have hfield : ∀ (r : EntityRow) field value, (r.putField op field value).hlc = r.hlc := by
    intro r field value
    unfold putField
    split
    · split_ifs <;> rfl
    · rfl
  unfold put
  rw [hmode]
  dsimp only
  generalize op.fields.entries = entries
  induction entries generalizing r with
  | nil => rfl
  | cons e entries ih => exact (ih _).trans (hfield r e.1 e.2)

end EntityRow

/-! ## What a state operation writes -/

namespace Mirror

/-- `m'` is `m` with the row `r` at `k`; of what operations read, nothing else differs. -/
structure Wrote (m : Mirror) (k : EntityKind × String) (r : EntityRow) (m' : Mirror) : Prop where
  lookup : ∀ k', m'.entities.lookup k' = if k' = k then some r else m.entities.lookup k'
  clock : m'.clock = m.clock
  appliedOps : m'.appliedOps = m.appliedOps
  aliases : m'.aliases = m.aliases
  bindings : m'.bindings = m.bindings
  merges : m'.merges = m.merges
  entityMerges : m'.entityMerges = m.entityMerges
  bookTrash : m'.bookTrash = m.bookTrash

variable {m m' m'' : Mirror} {k : EntityKind × String} {r r' : EntityRow} {kind : EntityKind}
  {uid : String}

lemma Wrote.row (h : m.Wrote (kind, uid) r m') : m'.row kind uid = r := by
  rw [Mirror.row, h.lookup, if_pos rfl, Option.getD_some]

/-- Two writes of one row amount to the second. -/
lemma Wrote.trans (h : m.Wrote k r m') (h' : m'.Wrote k r' m'') : m.Wrote k r' m'' := by
  refine ⟨fun k' => ?_, h'.clock.trans h.clock, h'.appliedOps.trans h.appliedOps,
    h'.aliases.trans h.aliases, h'.bindings.trans h.bindings, h'.merges.trans h.merges,
    h'.entityMerges.trans h.entityMerges, h'.bookTrash.trans h.bookTrash⟩
  rw [h'.lookup, h.lookup]
  split_ifs <;> rfl

/-- A mirror wrote the row it already has. -/
lemma wrote_self (h : m.entities.lookup k = some r) : m.Wrote k r m := by
  refine ⟨fun k' => ?_, rfl, rfl, rfl, rfl, rfl, rfl, rfl⟩
  split_ifs with hk
  · rw [hk, h]
  · rfl

lemma wrote_setRow (m : Mirror) (kind : EntityKind) (uid : String) (r : EntityRow) :
    m.Wrote (kind, uid) r (m.setRow kind uid r) :=
  ⟨fun _ => Table.lookup_insert' _ _ _ _, rfl, rfl, rfl, rfl, rfl, rfl, rfl⟩

lemma wrote_touchRow (m : Mirror) (kind : EntityKind) (uid : String)
    (bookUid : Option String) :
    m.Wrote (kind, uid) ((m.row kind uid).touch bookUid) (m.touchRow kind uid bookUid) :=
  wrote_setRow m kind uid _

/-- Recording an issue leaves everything that operations read. -/
lemma Wrote.recordIssue (h : m.Wrote k r m') (key issue : String) :
    m.Wrote k r (m'.recordIssue key issue) := by
  unfold Mirror.recordIssue
  split_ifs
  · exact h
  · exact ⟨h.lookup, h.clock, h.appliedOps, h.aliases, h.bindings, h.merges, h.entityMerges,
      h.bookTrash⟩

/-- Recording a conflict leaves everything that operations read. -/
lemma Wrote.recordConflict (h : m.Wrote k r m') (kind : EntityKind) (uid field : String)
    (winner loser : Value) (winnerHlc loserHlc : Hlc) :
    m.Wrote k r (m'.recordConflict kind uid field winner loser winnerHlc loserHlc) := by
  have hissue := h.recordIssue (conflictIssueKey kind uid field) "conflict"
  unfold Mirror.recordConflict
  split_ifs
  · exact h
  · exact ⟨h.lookup, h.clock, h.appliedOps, h.aliases, h.bindings, h.merges, h.entityMerges,
      h.bookTrash⟩
  · exact ⟨hissue.lookup, hissue.clock, hissue.appliedOps, hissue.aliases, hissue.bindings,
      hissue.merges, hissue.entityMerges, hissue.bookTrash⟩

lemma Wrote.closeTrash (h : m.Wrote k r m') (kind : EntityKind) (uid : String) :
    m.Wrote k r (m'.closeTrash kind uid) :=
  ⟨h.lookup, h.clock, h.appliedOps, h.aliases, h.bindings, h.merges, h.entityMerges, h.bookTrash⟩

lemma Wrote.insertTrash (h : m.Wrote k r m') (t : TrashRow) : m.Wrote k r (m'.insertTrash t) := by
  unfold Mirror.insertTrash
  split_ifs
  · exact h
  · exact ⟨h.lookup, h.clock, h.appliedOps, h.aliases, h.bindings, h.merges, h.entityMerges,
      h.bookTrash⟩

section StateOp

variable {op : Op}

lemma Wrote.applyField (h : m.Wrote (op.kind, uid) r m') (field : String) (value : Value) :
    m.Wrote (op.kind, uid) (r.putField op field value) (m'.applyField op uid field value) := by
  unfold Mirror.applyField EntityRow.putField
  simp only [h.row]
  cases r.fields.lookup field with
  | none => exact h.trans (wrote_setRow ..)
  | some existing =>
    by_cases hle : op.hlc ≤ existing.hlc
    · simp only [if_pos hle]
      split_ifs
      · exact h.recordConflict ..
      · exact h
    · simp only [if_neg hle]
      exact h.trans (wrote_setRow ..)

lemma Wrote.applyFields (h : m.Wrote (op.kind, uid) r m') :
    m.Wrote (op.kind, uid) (op.fields.entries.foldl (fun r e => r.putField op e.1 e.2) r)
      (m'.applyFields op uid) := by
  unfold Mirror.applyFields
  generalize op.fields.entries = entries
  induction entries generalizing r m' with
  | nil => exact h
  | cons e entries ih => exact ih (h.applyField e.1 e.2)

lemma Wrote.applyEntity (h : m.Wrote (op.kind, uid) r m') (hmode : op.kind.mergeMode = .entity) :
    m.Wrote (op.kind, uid) (r.put op) (m'.applyEntity op uid r.hlc) := by
  unfold Mirror.applyEntity EntityRow.put
  simp only [hmode, h.row]
  split_ifs
  · exact h.recordConflict ..
  · exact h.trans (wrote_setRow ..)

lemma Wrote.mergeByMode (h : m.Wrote (op.kind, uid) r m') :
    m.Wrote (op.kind, uid) (r.put op) (m'.mergeByMode op uid r.hlc) := by
  unfold Mirror.mergeByMode
  cases hmode : op.kind.mergeMode with
  | field =>
    have hfields := h.applyFields
    unfold EntityRow.put
    rw [hmode]
    exact hfields
  | entity => exact h.applyEntity hmode

/-- The upsert path writes `EntityRow.upsert`. -/
lemma Wrote.applyUpsert (h : m.Wrote (op.kind, uid) r m') :
    m.Wrote (op.kind, uid) (r.upsert op) (m'.applyUpsert op uid) := by
  unfold Mirror.applyUpsert EntityRow.upsert EntityRow.restoreClock EntityRow.deleteClock
  simp only [h.row]
  by_cases hdel : r.deleted = true
  · simp only [if_pos hdel]
    by_cases hrestore : ¬op.restore = true
    · simp only [if_pos hrestore]
      exact h.recordConflict ..
    · simp only [if_neg hrestore]
      by_cases hlate : r.restoredHlc.getD Hlc.zero > op.hlc ∨ r.deletedHlc.getD Hlc.zero ≥ op.hlc
      · simp only [if_pos hlate]
        exact h.recordConflict ..
      · simp only [if_neg hlate]
        have hrevived : m.Wrote (op.kind, uid) (r.revive op)
            ((m'.setRow op.kind uid (r.revive op)).closeTrash op.kind uid) :=
          (h.trans (wrote_setRow ..)).closeTrash ..
        exact hrevived.mergeByMode
  · simp only [if_neg hdel]
    exact h.mergeByMode

/-- The delete path writes `EntityRow.delete`. -/
lemma Wrote.applyDelete (h : m.Wrote (op.kind, uid) r m') (bookUid : Option String) :
    m.Wrote (op.kind, uid) (r.delete op) (m'.applyDelete op uid bookUid) := by
  have hdead := h.trans (wrote_setRow m' op.kind uid (r.kill op))
  unfold Mirror.applyDelete EntityRow.delete EntityRow.restoreClock
  simp only [h.row]
  by_cases hdel : r.deleted = true
  · simp only [if_pos hdel]
    exact h
  by_cases hrest : r.restoredHlc.getD Hlc.zero > op.hlc
  · simp only [if_neg hdel, if_pos hrest]
    exact h
  simp only [if_neg hdel, if_neg hrest]
  cases hmode : op.kind.mergeMode with
  | entity =>
    by_cases hold : op.hlc < r.hlc
    · simp only [true_and, if_pos hold]
      exact h
    · simp only [true_and, if_neg hold]
      exact hdead
  | field => exact hdead.insertTrash _

/-- **A state operation writes one row**, the one `EntityRow.step` gives. -/
theorem wrote_applyStateOp (m : Mirror) (hkey : m.stateKey op = .ok uid) :
    m.Wrote (op.kind, uid) ((m.row op.kind uid).step op (op.bookUid.map m.canonicalBookUid))
      (m.applyStateOp op).1 := by
  have htouch := wrote_touchRow m op.kind uid (op.bookUid.map m.canonicalBookUid)
  unfold Mirror.applyStateOp EntityRow.step
  rw [hkey]
  dsimp only
  split_ifs
  · exact htouch.applyDelete _
  · exact htouch.applyUpsert

end StateOp

/-! ## The dispatcher -/

section Dispatch

variable (fromStr : String → Option Value) {op : Op}

/-- The operation names a book that is forgotten, so only the dedupe log takes note of it. -/
def drops (m : Mirror) (op : Op) : Bool :=
  op.bookUid.any fun uid => (m.forgottenReplacement (m.canonicalBookUid uid)).isSome

/-- An operation whose id is in the log is skipped. -/
lemma applyOp_of_mem (h : op.opId ∈ m.appliedOps) : m.applyOp fromStr op = (m, .ok []) := by
  rw [Mirror.applyOp, if_pos h]

lemma mem_markApplied (m : Mirror) (op : Op) (id : String) :
    id ∈ (m.markApplied op).appliedOps ↔ id = op.opId ∨ id ∈ m.appliedOps :=
  List.mem_insert_iff

/-- A new operation of a state kind, on a book that is not forgotten, is applied by the state
path on a mirror whose clock has moved, and then logged. -/
lemma applyOp_eq_of_state (hnew : op.opId ∉ m.appliedOps) (hstate : op.kind.IsState)
    (hlive : m.drops op = false) (hkey : m.stateKey op = .ok uid) :
    m.applyOp fromStr op = (((m.observeHlc op.hlc).applyStateOp op).1.markApplied op,
      .ok [⟨op.kind, uid, op.bookUid.map m.canonicalBookUid⟩]) := by
  have hdrops : (op.bookUid.any fun uid => ((m.observeHlc op.hlc).forgottenReplacement
      ((m.observeHlc op.hlc).canonicalBookUid uid)).isSome) = false := hlive
  have hok : ((m.observeHlc op.hlc).applyStateOp op).2 =
      .ok [⟨op.kind, uid, op.bookUid.map m.canonicalBookUid⟩] := by
    have hkey' : (m.observeHlc op.hlc).stateKey op = .ok uid := hkey
    rw [applyStateOp, hkey']
    rfl
  rw [applyOp, if_neg hnew]
  dsimp only
  rw [if_neg hstate.1, if_neg hstate.2, hdrops, if_neg Bool.false_ne_true]
  rcases hres : (m.observeHlc op.hlc).applyStateOp op with ⟨m', res⟩
  rw [hres] at hok
  rw [show res = _ from hok]

lemma applyOp_of_state (hnew : op.opId ∉ m.appliedOps) (hstate : op.kind.IsState)
    (hlive : m.drops op = false) (hkey : m.stateKey op = .ok uid) :
    (m.applyOp fromStr op).1 = ((m.observeHlc op.hlc).applyStateOp op).1.markApplied op := by
  rw [applyOp_eq_of_state fromStr hnew hstate hlive hkey]

end Dispatch

end Mirror

end TuxBooks
