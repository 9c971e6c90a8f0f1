import TuxBooks.Sync.Run

set_option relaxedAutoImplicit false
set_option autoImplicit false

/-!
# The lifecycle of a book

Forgets, restores and discards of one book, as `apply_book` of `sidecar/src/sync/merge.rs` keeps
them in `sync_book_trash` and in the state row of the book. What the next operation can see of
the trash row is its `Life`: two clocks, the status, and whether a snapshot is kept.

A newest restore that carries no snapshot depends on what arrived before it: after a Forget with
a snapshot it restores, before it it discards. And a newest restore at wall zero is read back as
absent, so older operations still pass it.

## Main definitions

* `TuxBooks.BookStatus`, `TuxBooks.BookTrashRow.status`, `TuxBooks.Op.bookStatus`.
* `TuxBooks.Life`, `TuxBooks.Life.step` — the trash row as a state machine.
* `TuxBooks.Mirror.Records` — the trash row and the state row record a status.
* `TuxBooks.Decisive` — the newest operation decides the status in every order.

## Main results

* `TuxBooks.Mirror.Follows.applyOp` — applying an operation is a step of the machine.
* `TuxBooks.Life.Sound.step` — where the clocks and the snapshot of a life come from.
* `TuxBooks.status_run_of_decisive`, `TuxBooks.decisive_of_status_run` — the two directions.
* `TuxBooks.Mirror.lifecycle_converges_iff` — every delivery ends with the newest operation's status
  exactly if that operation is decisive.
-/

namespace TuxBooks

open Delivery

/-! ## Status -/

/-- What `project_book_lifecycle` tells apart. -/
inductive BookStatus where
  | forgotten
  | restored
  | discarded
  deriving DecidableEq, Repr

/-- The status a trash row records. -/
def BookTrashRow.status (t : BookTrashRow) : BookStatus :=
  if t.restoredAt then if t.discarded then .discarded else .restored else .forgotten

namespace Op

/-- The operation closes the trash entry without a restore. -/
def discards (op : Op) : Bool := ((op.fields.lookup "discarded").bind Value.asBool).getD false

/-- The snapshot that a whole-book operation carries. -/
def bookSnapshot (op : Op) : Option String :=
  if op.deleted then ((op.prior.getD ∅).lookup "snapshot").bind Value.asStr
  else (op.fields.lookup "snapshot").bind Value.asStr

/-- The operation carries a snapshot. -/
def carries (op : Op) : Bool := op.bookSnapshot.isSome

/-- The status that the operation asks for. -/
def bookStatus (op : Op) : BookStatus :=
  if op.deleted then .forgotten else if op.discards then .discarded else .restored

lemma bookStatus_eq_forgotten {op : Op} : op.bookStatus = .forgotten ↔ op.deleted = true := by
  unfold bookStatus
  cases op.deleted <;> cases op.discards <;> simp

end Op

/-! ## The machine -/

/-- What an operation can see of a trash row. -/
structure Life where
  killed : Hlc
  revived : Hlc
  status : BookStatus
  carried : Bool
  deriving DecidableEq

namespace Life

/-- The life that a trash row holds. -/
def ofRow (t : BookTrashRow) : Life :=
  ⟨t.deletedClock, t.restoredClock, t.status, t.snapshot.isSome⟩

/-- The operation comes too late to take effect. A restore clock of wall zero is not seen. -/
def Stale (l : Life) (op : Op) : Prop :=
  if op.deleted then op.hlc ≤ l.killed ∨ ∃ r ∈ l.revived.stored, op.hlc ≤ r
  else op.hlc < l.killed ∨ ∃ r ∈ l.revived.stored, op.hlc < r

instance (l : Life) (op : Op) : Decidable (l.Stale op) := by
  unfold Stale
  infer_instance

/-- The status after a restore or discard, given whether a snapshot is kept. -/
def closed (op : Op) (kept : Bool) : BookStatus :=
  if op.discards || !(op.carries || kept) then .discarded else .restored

/-- The life after an operation that takes effect. -/
def write (l : Option Life) (op : Op) : Life :=
  if op.deleted then ⟨op.hlc, Hlc.zero, .forgotten, op.carries || l.any carried⟩
  else match l with
    | none => ⟨op.hlc, op.hlc, closed op false, op.carries⟩
    | some l => { l with revived := op.hlc, status := closed op l.carried }

/-- One operation. -/
def step (l : Option Life) (op : Op) : Life :=
  match l with
  | none => write none op
  | some l => if l.Stale op then l else write (some l) op

/-- A sequence of operations. -/
def run (l : Option Life) (ops : List Op) : Option Life :=
  ops.foldl (fun l op => some (step l op)) l

@[simp] lemma run_nil (l : Option Life) : run l [] = l := rfl

@[simp] lemma run_cons (l : Option Life) (op : Op) (ops : List Op) :
    run l (op :: ops) = run (some (step l op)) ops := rfl

lemma run_append (l : Option Life) (ops ops' : List Op) :
    run l (ops ++ ops') = run (run l ops) ops' := List.foldl_append

lemma step_of_stale {l : Life} {op : Op} (h : l.Stale op) : step (some l) op = l := if_pos h

lemma step_of_not_stale {l : Life} {op : Op} (h : ¬l.Stale op) :
    step (some l) op = write (some l) op := if_neg h

lemma stale_of_deleted {l : Life} {op : Op} (h : op.deleted = true) :
    l.Stale op ↔ op.hlc ≤ l.killed ∨ ∃ r ∈ l.revived.stored, op.hlc ≤ r := by
  unfold Stale
  rw [if_pos h]

lemma stale_of_live {l : Life} {op : Op} (h : op.deleted = false) :
    l.Stale op ↔ op.hlc < l.killed ∨ ∃ r ∈ l.revived.stored, op.hlc < r := by
  unfold Stale
  rw [if_neg (by rw [h]; exact Bool.false_ne_true)]

end Life

/-! ## The mirror follows the machine -/

namespace Mirror

/-- The trash row and the state row of the book record the status. -/
def Records (m : Mirror) (uid : String) (s : BookStatus) : Prop :=
  (∃ t, m.bookTrash.lookup uid = some t ∧ t.status = s) ∧
    (m.row .book uid).deleted = decide (s ≠ .restored)

/-- The rows of the book hold the life `l`. -/
structure Follows (m : Mirror) (uid : String) (l : Option Life) : Prop where
  root : m.canonicalBookUid uid = uid
  life : (m.bookTrash.lookup uid).map Life.ofRow = l
  row : ∀ x ∈ l, (m.row .book uid).deleted = decide (x.status ≠ .restored)

section Follows

variable (fromStr : String → Option Value) {m : Mirror} {uid : String} {l : Option Life} {op : Op}

lemma Follows.records {x : Life} (h : m.Follows uid (some x)) : m.Records uid x.status := by
  obtain ⟨t, ht, hx⟩ := Option.map_eq_some_iff.mp h.life
  refine ⟨⟨t, ht, ?_⟩, h.row x rfl⟩
  rw [← hx]
  rfl

/-- What the two branches of `apply_book` share: a new trash row, a new state row, and whatever
happens to aliases and issues. -/
structure WroteBook (m : Mirror) (uid : String) (t : BookTrashRow) (m' : Mirror) : Prop where
  merges : m'.merges = m.merges
  appliedOps : m'.appliedOps = m.appliedOps
  trash : m'.bookTrash.lookup uid = some t
  row : (m'.row .book uid).deleted = decide (t.status ≠ .restored)

lemma wroteBook_write (m : Mirror) (uid : String) (t : BookTrashRow) (r : EntityRow)
    (hr : r.deleted = decide (t.status ≠ .restored)) :
    m.WroteBook uid t ({ m with bookTrash := m.bookTrash.insert uid t }.setRow .book uid r) :=
  ⟨rfl, rfl, AList.lookup_insert _,
    (congrArg EntityRow.deleted (row_setRow _ .book uid r)).trans hr⟩

lemma WroteBook.aliases {t : BookTrashRow} {m' : Mirror} (h : m.WroteBook uid t m')
    (a : Table String String) : m.WroteBook uid t { m' with aliases := a } :=
  ⟨h.merges, h.appliedOps, h.trash, h.row⟩

lemma WroteBook.recordIssue {t : BookTrashRow} {m' : Mirror} (h : m.WroteBook uid t m')
    (key issue : String) : m.WroteBook uid t (m'.recordIssue key issue) := by
  unfold Mirror.recordIssue
  split
  · exact h
  · exact ⟨h.merges, h.appliedOps, h.trash, h.row⟩

/-- **A Forget that takes effect** writes the life of the machine. -/
lemma wroteBook_forgetBook (m : Mirror) (uid : String) (hop : op.deleted = true) :
    ∃ t, m.WroteBook uid t (m.forgetBook fromStr op uid) ∧
      Life.ofRow t = Life.write ((m.bookTrash.lookup uid).map Life.ofRow) op := by
  refine ⟨⟨((op.prior.getD ∅).lookup "replacement_book_uid").bind Value.asStr,
    (((op.prior.getD ∅).lookup "snapshot").bind Value.asStr).or
      ((m.bookTrash.lookup uid).bind (·.snapshot)), op.hlc, false, false, Hlc.zero⟩, ?_, ?_⟩
  · unfold forgetBook
    dsimp only
    cases ((op.prior.getD ∅).lookup "replacement_book_uid").bind Value.asStr with
    | none =>
      refine ⟨rfl, rfl, AList.lookup_insert _, ?_⟩
      exact congrArg EntityRow.deleted (row_setRow _ .book uid _)
    | some replacement =>
      refine ⟨rfl, rfl, AList.lookup_insert _, ?_⟩
      exact congrArg EntityRow.deleted (row_setRow _ .book uid _)
  · have hsnap : ((((op.prior.getD ∅).lookup "snapshot").bind Value.asStr).or
        ((m.bookTrash.lookup uid).bind (·.snapshot))).isSome =
        (op.carries || ((m.bookTrash.lookup uid).map Life.ofRow).any Life.carried) := by
      unfold Op.carries Op.bookSnapshot
      rw [if_pos hop, Option.isSome_or]
      cases m.bookTrash.lookup uid <;> rfl
    unfold Life.write
    rw [if_pos hop]
    exact congrArg (fun carried => (⟨op.hlc, Hlc.zero, .forgotten, carried⟩ : Life)) hsnap

/-- The trash row that `restore_book` writes. -/
def closedRow (existing : Option BookTrashRow) (op : Op) : BookTrashRow :=
  let replacement := ((op.fields.lookup "replacement_book_uid").bind Value.asStr).or
    (existing.bind (·.replacement))
  let snapshot := ((op.fields.lookup "snapshot").bind Value.asStr).or
    (existing.bind (·.snapshot))
  let discarded := op.discards || snapshot.isNone
  match existing with
  | none => ⟨replacement, snapshot, op.hlc, true, discarded, op.hlc⟩
  | some row => { row with
      replacement := replacement.or row.replacement
      restoredAt := true
      discarded := discarded
      restoredClock := op.hlc }

lemma ofRow_closedRow (existing : Option BookTrashRow) (hop : op.deleted = false) :
    Life.ofRow (closedRow existing op) = Life.write (existing.map Life.ofRow) op := by
  have hcarries : op.carries = ((op.fields.lookup "snapshot").bind Value.asStr).isSome := by
    unfold Op.carries Op.bookSnapshot
    rw [hop]
    rfl
  have hlive : ¬op.deleted = true := by rw [hop]; exact Bool.false_ne_true
  unfold Life.write
  rw [if_neg hlive]
  cases existing with
  | none =>
    simp only [closedRow, Life.ofRow, BookTrashRow.status, Life.closed, Option.map_none, hcarries,
      Option.bind_none, Option.or_none, Bool.or_false, if_true, Option.not_isSome]
  | some row =>
    simp only [closedRow, Life.ofRow, BookTrashRow.status, Life.closed, Option.map_some, hcarries,
      Option.bind_some, if_true, ← Option.isSome_or, Option.not_isSome]
    rfl

/-- **A restore or discard that takes effect** writes the life of the machine. -/
lemma wroteBook_restoreBook (m : Mirror) (uid : String) (hop : op.deleted = false) :
    ∃ t, m.WroteBook uid t (m.restoreBook fromStr op uid) ∧
      Life.ofRow t = Life.write ((m.bookTrash.lookup uid).map Life.ofRow) op := by
  refine ⟨closedRow (m.bookTrash.lookup uid) op, ?_, ofRow_closedRow _ hop⟩
  have hwrote := fun r => wroteBook_write m uid (closedRow (m.bookTrash.lookup uid) op) r
  have hstatus : (op.discards || (((op.fields.lookup "snapshot").bind Value.asStr).or
      ((m.bookTrash.lookup uid).bind (·.snapshot))).isNone) =
      decide ((closedRow (m.bookTrash.lookup uid) op).status ≠ .restored) := by
    unfold closedRow BookTrashRow.status
    cases m.bookTrash.lookup uid with
    | none =>
      dsimp only
      rw [if_pos rfl]
      split
      · next h => rw [h]; rfl
      · next h => rw [Bool.not_eq_true] at h; rw [h]; rfl
    | some row =>
      dsimp only
      rw [if_pos rfl]
      split
      · next h => rw [h]; rfl
      · next h => rw [Bool.not_eq_true] at h; rw [h]; rfl
  unfold restoreBook
  dsimp only
  have hbase := hwrote
    { m.row .book uid with
      bookUid := some uid
      hlc := op.hlc
      deleted := op.discards || (((op.fields.lookup "snapshot").bind Value.asStr).or
        ((m.bookTrash.lookup uid).bind (·.snapshot))).isNone
      restoredClock := some op.hlc } hstatus
  split
  · refine WroteBook.recordIssue ?_ _ _
    split
    · exact hbase
    · split
      · exact (hbase.aliases _).aliases _
      · exact hbase.aliases _
  · split
    · exact hbase
    · split
      · exact (hbase.aliases _).aliases _
      · exact hbase.aliases _

/-- The outcome of `apply_book` where the book has no trash row. -/
lemma applyBook_of_none (huid : m.canonicalBookUid op.entityUid = uid)
    (ht : m.bookTrash.lookup uid = none) :
    (m.applyBook fromStr op).1 =
      if op.deleted then m.forgetBook fromStr op uid else m.restoreBook fromStr op uid := by
  subst huid
  unfold applyBook
  dsimp only
  rw [ht]
  cases op.deleted <;> rfl

/-- The outcome of `apply_book` where the book has a trash row. -/
lemma applyBook_of_some (huid : m.canonicalBookUid op.entityUid = uid) {t : BookTrashRow}
    (ht : m.bookTrash.lookup uid = some t) :
    (m.applyBook fromStr op).1 =
      if (Life.ofRow t).Stale op then m
      else if op.deleted then m.forgetBook fromStr op uid else m.restoreBook fromStr op uid := by
  subst huid
  cases hdel : op.deleted with
  | true =>
    have hiff : (Life.ofRow t).Stale op ↔ t.deletedClock ≥ op.hlc ∨
        ∃ r, t.restoredClock.stored = some r ∧ r ≥ op.hlc := Life.stale_of_deleted hdel
    by_cases hstale : (Life.ofRow t).Stale op
    · rw [if_pos hstale]
      rw [hiff] at hstale
      unfold applyBook
      dsimp only
      rw [ht, hdel]
      simp only [Option.any_eq_true, decide_eq_true_eq]
      rcases hstale with hkilled | hrevived
      · rw [if_pos hkilled]
      · split <;> rfl
    · rw [if_neg hstale]
      rw [hiff, not_or] at hstale
      unfold applyBook
      dsimp only
      rw [ht, hdel]
      simp only [Option.any_eq_true, decide_eq_true_eq, if_true]
      rw [if_neg hstale.1, if_neg hstale.2]
  | false =>
    have hiff : (Life.ofRow t).Stale op ↔ t.deletedClock > op.hlc ∨
        ∃ r, t.restoredClock.stored = some r ∧ r > op.hlc := Life.stale_of_live hdel
    by_cases hstale : (Life.ofRow t).Stale op
    · rw [if_pos hstale]
      rw [hiff] at hstale
      unfold applyBook
      dsimp only
      rw [ht, hdel]
      simp only [Option.any_eq_true, decide_eq_true_eq]
      rcases hstale with hkilled | hrevived
      · rw [if_pos hkilled]
      · split <;> rfl
    · rw [if_neg hstale]
      rw [hiff, not_or] at hstale
      unfold applyBook
      dsimp only
      rw [ht, hdel]
      simp only [Option.any_eq_true, decide_eq_true_eq, Bool.false_eq_true, if_false]
      rw [if_neg hstale.1, if_neg hstale.2]

/-- **What `apply_book` does** to the rows of a book that is not merged away. -/
lemma Follows.applyBook (h : m.Follows uid l) (huid : op.entityUid = uid) :
    let m' := (m.applyBook fromStr op).1
    m'.Follows uid (some (Life.step l op)) ∧ m'.merges = m.merges ∧
      m'.appliedOps = m.appliedOps := by
  intro m'
  have hroot : m.canonicalBookUid op.entityUid = uid := by rw [huid, h.root]
  -- Both branches write the life of the machine.
  have hwrite : ∃ t, m.WroteBook uid t
      (if op.deleted then m.forgetBook fromStr op uid else m.restoreBook fromStr op uid) ∧
      Life.ofRow t = Life.write l op := by
    rw [← h.life]
    cases hdel : op.deleted with
    | true => exact wroteBook_forgetBook fromStr m uid hdel
    | false => exact wroteBook_restoreBook fromStr m uid hdel
  have hwrote : m' = (if op.deleted then m.forgetBook fromStr op uid
      else m.restoreBook fromStr op uid) → Life.step l op = Life.write l op →
      m'.Follows uid (some (Life.step l op)) ∧ m'.merges = m.merges ∧
        m'.appliedOps = m.appliedOps := by
    intro hm' hstep
    obtain ⟨t, ht, hlife⟩ := hwrite
    rw [← hm'] at ht
    refine ⟨⟨?_, ?_, ?_⟩, ht.merges, ht.appliedOps⟩
    · rw [canonicalBookUid_congr ht.merges, h.root]
    · rw [ht.trash, hstep, ← hlife, Option.map_some]
    · intro x hx
      obtain rfl : Life.step l op = x := Option.some.inj hx
      rw [ht.row, hstep, ← hlife]
      rfl
  have hl := h.life
  cases ht : m.bookTrash.lookup uid with
  | none =>
    rw [ht] at hl
    subst hl
    exact hwrote (applyBook_of_none fromStr hroot ht) rfl
  | some t =>
    rw [ht] at hl
    subst hl
    have happly := applyBook_of_some fromStr hroot ht
    by_cases hstale : (Life.ofRow t).Stale op
    · rw [if_pos hstale] at happly
      have hm' : m' = m := happly
      rw [hm', Option.map_some, Life.step_of_stale hstale]
      exact ⟨h, rfl, rfl⟩
    · rw [if_neg hstale] at happly
      exact hwrote happly (Life.step_of_not_stale hstale)

lemma appliedOps_applyBook (m : Mirror) (op : Op) :
    (m.applyBook fromStr op).1.appliedOps = m.appliedOps := by
  have hwrite : (if op.deleted then m.forgetBook fromStr op (m.canonicalBookUid op.entityUid)
      else m.restoreBook fromStr op (m.canonicalBookUid op.entityUid)).appliedOps =
        m.appliedOps := by
    cases hdel : op.deleted with
    | true =>
      obtain ⟨t, ht, -⟩ := wroteBook_forgetBook fromStr m (m.canonicalBookUid op.entityUid) hdel
      exact ht.appliedOps
    | false =>
      obtain ⟨t, ht, -⟩ := wroteBook_restoreBook fromStr m (m.canonicalBookUid op.entityUid) hdel
      exact ht.appliedOps
  cases ht : m.bookTrash.lookup (m.canonicalBookUid op.entityUid) with
  | none => rw [applyBook_of_none fromStr rfl ht, hwrite]
  | some t =>
    rw [applyBook_of_some fromStr rfl ht]
    split
    · rfl
    · exact hwrite

/-- A new whole-book operation is applied by `apply_book` and then logged. -/
lemma applyOp_of_book (hnew : op.opId ∉ m.appliedOps) (hkind : op.kind = .book) :
    (m.applyOp fromStr op).1 =
      ((m.observeHlc op.hlc).applyBook fromStr op).1.markApplied op := by
  simp only [Mirror.applyOp, if_neg hnew, hkind]
  rfl

/-- **Applying a new operation** on the book is a step of the machine. -/
lemma Follows.applyOp (h : m.Follows uid l) (hkind : op.kind = .book) (huid : op.entityUid = uid)
    (hnew : op.opId ∉ m.appliedOps) :
    let m' := (m.applyOp fromStr op).1
    m'.Follows uid (some (Life.step l op)) ∧
      ∀ id, id ∈ m'.appliedOps ↔ id = op.opId ∨ id ∈ m.appliedOps := by
  intro m'
  have hclock : (m.observeHlc op.hlc).Follows uid l := ⟨h.root, h.life, h.row⟩
  obtain ⟨hfollows, -, hlog⟩ := hclock.applyBook fromStr huid
  have hm' : m' = ((m.observeHlc op.hlc).applyBook fromStr op).1.markApplied op :=
    applyOp_of_book fromStr hnew hkind
  rw [hm']
  refine ⟨⟨hfollows.root, hfollows.life, hfollows.row⟩, ?_⟩
  intro id
  rw [mem_markApplied, hlog]
  rfl

end Follows

end Mirror

/-! ## Where a life comes from -/

namespace Life

/-- The clocks and the snapshot of a life come from the operations of `T`: an operation at or
below the kill clock set the snapshot first, and a kept snapshot was carried by one of these. -/
structure Sound (T : Set Op) (l : Life) : Prop where
  killed : ∃ D ∈ T, l.killed = D.hlc
  revived : l.revived = Hlc.zero ∨ ∃ R ∈ T, l.revived = R.hlc
  initial : ∃ I ∈ T, I.hlc ≤ l.killed ∧ (I.carries = true → l.carried = true)
  source : l.carried = true → ∃ C ∈ T, C.hlc ≤ l.killed ∧ C.carries = true

lemma Sound.mono {T T' : Set Op} {l : Life} (h : l.Sound T) (hT : T ⊆ T') : l.Sound T' where
  killed := by
    obtain ⟨D, hD, heq⟩ := h.killed
    exact ⟨D, hT hD, heq⟩
  revived := by
    refine h.revived.imp id ?_
    rintro ⟨R, hR, heq⟩
    exact ⟨R, hT hR, heq⟩
  initial := by
    obtain ⟨I, hI, hle⟩ := h.initial
    exact ⟨I, hT hI, hle⟩
  source := by
    intro hc
    obtain ⟨C, hC, hle⟩ := h.source hc
    exact ⟨C, hT hC, hle⟩

/-- The first operation. -/
lemma sound_write_none {T : Set Op} {op : Op} (hop : op ∈ T) : (write none op).Sound T := by
  unfold write
  split
  · exact ⟨⟨op, hop, rfl⟩, Or.inl rfl, ⟨op, hop, le_rfl, fun h => by simpa using h⟩,
      fun h => ⟨op, hop, le_rfl, by simpa using h⟩⟩
  · exact ⟨⟨op, hop, rfl⟩, Or.inr ⟨op, hop, rfl⟩, ⟨op, hop, le_rfl, id⟩,
      fun h => ⟨op, hop, le_rfl, h⟩⟩

/-- A later operation that takes effect. -/
lemma Sound.write {T : Set Op} {l : Life} (h : l.Sound T) {op : Op} (hop : op ∈ T)
    (hstale : ¬l.Stale op) : (write (some l) op).Sound T := by
  unfold Life.write
  split
  · next hdel =>
    rw [stale_of_deleted hdel, not_or, not_le] at hstale
    obtain ⟨I, hI, hle, hcarried⟩ := h.initial
    refine ⟨⟨op, hop, rfl⟩, Or.inl rfl, ⟨I, hI, hle.trans hstale.1.le, ?_⟩, ?_⟩
    · intro hc
      simp [hcarried hc]
    · intro hc
      simp only [Option.any_some, Bool.or_eq_true] at hc
      rcases hc with hc | hc
      · exact ⟨op, hop, le_rfl, hc⟩
      · obtain ⟨C, hC, hleC, hcC⟩ := h.source hc
        exact ⟨C, hC, hleC.trans hstale.1.le, hcC⟩
  · exact ⟨h.killed, Or.inr ⟨op, hop, rfl⟩, h.initial, h.source⟩

/-- **One operation** keeps a life sound. -/
theorem Sound.step {T : Set Op} {l : Option Life} (h : ∀ x ∈ l, Sound T x) {op : Op}
    (hop : op ∈ T) : (step l op).Sound T := by
  cases l with
  | none => exact sound_write_none hop
  | some l =>
    by_cases hstale : l.Stale op
    · rw [step_of_stale hstale]
      exact h l rfl
    · rw [step_of_not_stale hstale]
      exact (h l rfl).write hop hstale

/-- **A run** keeps a life sound. -/
theorem Sound.run {T : Set Op} {l : Option Life} (h : ∀ x ∈ l, Sound T x) {ops : List Op}
    (hops : ∀ op ∈ ops, op ∈ T) : ∀ x ∈ run l ops, Sound T x := by
  induction ops generalizing l with
  | nil => exact h
  | cons op ops ih =>
    have hstep := Sound.step h (hops op List.mem_cons_self)
    refine ih ?_ fun o ho => hops o (List.mem_cons_of_mem op ho)
    intro x hx
    obtain rfl := Option.some.inj hx
    exact hstep

/-! ## The newest operation -/

/-- An operation above all that a life has seen takes effect. -/
lemma Sound.not_stale {T : Set Op} {l : Life} (h : l.Sound T) {M : Op} (hM : Hlc.zero < M.hlc)
    (hT : ∀ op ∈ T, op.hlc < M.hlc) : ¬l.Stale M := by
  obtain ⟨D, hD, hkilled⟩ := h.killed
  have hkill : l.killed < M.hlc := hkilled ▸ hT D hD
  have hrevive : ∀ r ∈ l.revived.stored, r < M.hlc := by
    intro r hr
    have hr' : l.revived = r := by
      unfold Hlc.stored at hr
      split at hr
      · exact Option.some.inj hr
      · cases hr
    rcases h.revived with hzero | ⟨R, hR, heq⟩
    · rw [← hr', hzero]
      exact hM
    · rw [← hr', heq]
      exact hT R hR
  unfold Stale
  split
  · rintro (hle | ⟨r, hr, hle⟩)
    · exact absurd hkill hle.not_gt
    · exact absurd (hrevive r hr) hle.not_gt
  · rintro (hlt | ⟨r, hr, hlt⟩)
    · exact lt_asymm hkill hlt
    · exact lt_asymm (hrevive r hr) hlt

/-- Every operation below `M` is stale. -/
def ClosedBy (M : Op) (l : Life) : Prop := l.killed = M.hlc ∨ l.revived.stored = some M.hlc

lemma ClosedBy.stale {M : Op} {l : Life} (h : l.ClosedBy M) {op : Op} (hlt : op.hlc < M.hlc) :
    l.Stale op := by
  unfold Stale
  rcases h with hkilled | hrevived
  · rw [hkilled]
    split
    · exact Or.inl hlt.le
    · exact Or.inl hlt
  · split
    · exact Or.inr ⟨M.hlc, hrevived, hlt.le⟩
    · exact Or.inr ⟨M.hlc, hrevived, hlt⟩

/-- Nothing below `M` changes a life that `M` closed. -/
lemma ClosedBy.run {M : Op} {l : Life} (h : l.ClosedBy M) {ops : List Op}
    (hops : ∀ op ∈ ops, op.hlc < M.hlc) : Life.run (some l) ops = some l := by
  induction ops with
  | nil => rfl
  | cons op ops ih =>
    rw [run_cons, step_of_stale (h.stale (hops op List.mem_cons_self))]
    exact ih fun o ho => hops o (List.mem_cons_of_mem op ho)

lemma closedBy_write_of_deleted {M : Op} (hM : M.deleted = true) (l : Option Life) :
    (write l M).ClosedBy M := by
  unfold write
  rw [if_pos hM]
  exact Or.inl rfl

lemma closedBy_write_none (M : Op) : (write none M).ClosedBy M := by
  unfold write
  split
  · exact Or.inl rfl
  · exact Or.inl rfl

lemma closedBy_write_of_wall {M : Op} (hM : M.deleted = false) (hwall : M.hlc.wall ≠ 0)
    (l : Option Life) : (write l M).ClosedBy M := by
  have hstored : M.hlc.stored = some M.hlc := if_pos hwall
  unfold write
  rw [if_neg (by rw [hM]; exact Bool.false_ne_true)]
  cases l with
  | none => exact Or.inr hstored
  | some l => exact Or.inr hstored

/-- The status after an operation that takes effect on a kept snapshot or none. -/
lemma status_write {op : Op} (l : Option Life) :
    (write l op).status = if op.deleted then .forgotten else closed op (l.any carried) := by
  unfold write
  split
  · rfl
  · cases l <;> rfl

/-- An operation that brings what it needs gets the status it asks for. -/
lemma status_write_of_complete {M : Op} (h : M.deleted = true ∨ (M.discards || M.carries) = true)
    (l : Option Life) : (write l M).status = M.bookStatus := by
  rw [status_write]
  unfold Op.bookStatus closed
  grind

end Life

/-! ## Decisive operations -/

/-- The status when `D` came first, then a newest operation at wall zero, then `X`. -/
def outcome (D X : Op) : BookStatus :=
  if X.deleted then .forgotten else Life.closed X D.carries

/-- The newest operation `M` decides the status in every order: it is a Forget, or it brings what
it needs and is either visible as a restore clock or agrees with what an older pair would leave. -/
def Decisive (S : Set Op) (M : Op) : Prop :=
  M.deleted = true ∨ (M.discards || M.carries) = true ∧ (M.hlc.wall ≠ 0 ∨
    ∀ D ∈ S, ∀ X ∈ S, D.hlc < X.hlc → X.hlc < M.hlc → outcome D X = M.bookStatus)

section Decisive

variable {uid : String} {S : Set Op} {M : Op}

/-- `M` is the newest operation of the batch. -/
structure NewestBook (uid : String) (S : Set Op) (M : Op) : Prop where
  batch : Batch .book uid S
  mem : M ∈ S
  max : ∀ op ∈ S, op.hlc ≤ M.hlc

lemma NewestBook.lt (h : NewestBook uid S M) {op : Op} (hop : op ∈ S) (hne : op ≠ M) :
    op.hlc < M.hlc :=
  lt_of_le_of_ne (h.max op hop) fun heq => hne (h.batch.hlc_injOn hop h.mem heq)

lemma NewestBook.zero_lt (h : NewestBook uid S M) : Hlc.zero < M.hlc :=
  (accepted_of_validateOp (h.batch.accepted M h.mem)).zero_lt

namespace Life

/-- **After a newest operation at wall zero** an older one changes nothing if the pairs agree. -/
lemma status_step_of_agrees {T : Set Op} {l : Life} (hsound : l.Sound T) (hT : T ⊆ S)
    (hagree : ∀ D ∈ S, ∀ X ∈ S, D.hlc < X.hlc → X.hlc < M.hlc → outcome D X = M.bookStatus)
    (hinj : Set.InjOn Op.hlc S) (hstatus : l.status = M.bookStatus) {X : Op} (hX : X ∈ S)
    (hnew : X ∉ T) (hlt : X.hlc < M.hlc) : (step (some l) X).status = M.bookStatus := by
  by_cases hstale : l.Stale X
  · rw [step_of_stale hstale, hstatus]
  · have hkilled : l.killed < X.hlc := by
      obtain ⟨D, hD, heq⟩ := hsound.killed
      have hne : l.killed ≠ X.hlc := by
        intro hclock
        rw [heq] at hclock
        exact hnew (hinj (hT hD) hX hclock ▸ hD)
      refine lt_of_le_of_ne (not_lt.mp fun h => hstale ?_) hne
      unfold Stale
      split
      · exact Or.inl h.le
      · exact Or.inl h
    have hpair : ∀ D ∈ T, D.hlc ≤ l.killed → outcome D X = M.bookStatus := fun D hD hle =>
      hagree D (hT hD) X hX (hle.trans_lt hkilled) hlt
    rw [step_of_not_stale hstale, status_write]
    -- The kept snapshot agrees with the operation that set it.
    cases hcarried : l.carried with
    | true =>
      obtain ⟨C, hC, hle, hcarries⟩ := hsound.source hcarried
      rw [← hpair C hC hle]
      unfold outcome
      rw [hcarries, Option.any_some, hcarried]
    | false =>
      obtain ⟨I, hI, hle, hcarries⟩ := hsound.initial
      have hnone : I.carries = false := by
        rw [Bool.eq_false_iff]
        intro h
        rw [hcarries h] at hcarried
        exact absurd hcarried (by decide)
      rw [← hpair I hI hle]
      unfold outcome
      rw [hnone, Option.any_some, hcarried]

/-- A run of older operations changes nothing if the pairs agree. -/
lemma status_run_of_agrees {T : Set Op} {l : Life} (hsound : l.Sound T) (hT : T ⊆ S)
    (hagree : ∀ D ∈ S, ∀ X ∈ S, D.hlc < X.hlc → X.hlc < M.hlc → outcome D X = M.bookStatus)
    (hinj : Set.InjOn Op.hlc S) (hstatus : l.status = M.bookStatus) {ops : List Op}
    (hops : ∀ op ∈ ops, op ∈ S ∧ op ∉ T ∧ op.hlc < M.hlc) (hnodup : ops.Nodup) :
    ∃ l', run (some l) ops = some l' ∧ l'.status = M.bookStatus := by
  induction ops generalizing T l with
  | nil => exact ⟨l, rfl, hstatus⟩
  | cons X ops ih =>
    obtain ⟨hX, hnew, hlt⟩ := hops X List.mem_cons_self
    rw [List.nodup_cons] at hnodup
    have hnext := status_step_of_agrees hsound hT hagree hinj hstatus hX hnew hlt
    have hsound' : (step (some l) X).Sound (insert X T) := by
      refine Sound.step ?_ (Set.mem_insert X T)
      intro x hx
      obtain rfl := Option.some.inj hx
      exact hsound.mono (Set.subset_insert X T)
    refine ih hsound' (Set.insert_subset hX hT) hnext ?_ hnodup.2
    intro op hop
    obtain ⟨hS, hT', hlt'⟩ := hops op (List.mem_cons_of_mem X hop)
    refine ⟨hS, ?_, hlt'⟩
    rintro (rfl | h)
    · exact hnodup.1 hop
    · exact hT' h

end Life

/-- **A decisive operation decides**: every order ends with its status. -/
theorem status_run_of_decisive (h : NewestBook uid S M) (hdec : Decisive S M) {o : List Op}
    (ho : Order S o) : ∃ l, Life.run none o = some l ∧ l.status = M.bookStatus := by
  obtain ⟨before, rest, rfl⟩ := List.append_of_mem ((ho.delivers M).mpr h.mem)
  have hmem : ∀ op ∈ before ++ rest, op ∈ S ∧ op.hlc < M.hlc := by
    intro op hop
    have hin : op ∈ before ++ M :: rest := by
      rcases List.mem_append.mp hop with hop | hop
      · exact List.mem_append_left _ hop
      · exact List.mem_append_right _ (List.mem_cons_of_mem M hop)
    have hS := (ho.delivers op).mp hin
    refine ⟨hS, h.lt hS ?_⟩
    rintro rfl
    have hnodup := ho.nodup
    rw [List.nodup_middle, List.nodup_cons] at hnodup
    exact hnodup.1 hop
  have hbefore : ∀ op ∈ before, op.hlc < M.hlc := fun op hop =>
    (hmem op (List.mem_append_left _ hop)).2
  have hrest : ∀ op ∈ rest, op.hlc < M.hlc := fun op hop =>
    (hmem op (List.mem_append_right _ hop)).2
  have hsound : ∀ x ∈ Life.run none before, Life.Sound {op | op ∈ before} x :=
    Life.Sound.run (by simp) fun _ hop => hop
  -- The newest operation takes effect on whatever came before it.
  have hstep : Life.step (Life.run none before) M = Life.write (Life.run none before) M := by
    cases hl : Life.run none before with
    | none => rfl
    | some l =>
      exact Life.step_of_not_stale ((hsound l hl).not_stale h.zero_lt hbefore)
  rw [Life.run_append, Life.run_cons, hstep]
  have hcomplete : M.deleted = true ∨ (M.discards || M.carries) = true := hdec.imp id And.left
  have hstatus := Life.status_write_of_complete hcomplete (Life.run none before)
  have hfixed : (Life.write (Life.run none before) M).ClosedBy M →
      ∃ l, Life.run (some (Life.write (Life.run none before) M)) rest = some l ∧
        l.status = M.bookStatus := fun hclosed => ⟨_, hclosed.run hrest, hstatus⟩
  cases hdel : M.deleted with
  | true => exact hfixed (Life.closedBy_write_of_deleted hdel _)
  | false =>
    rcases hdec with hdec | ⟨-, hwall | hagree⟩
    · rw [hdel] at hdec
      exact absurd hdec (by decide)
    · exact hfixed (Life.closedBy_write_of_wall hdel hwall _)
    · have hsound' : (Life.write (Life.run none before) M).Sound {op | op ∈ before ++ [M]} := by
        rw [← hstep]
        refine Life.Sound.step ?_ (by simp)
        intro x hx
        exact (hsound x hx).mono fun op hop => List.mem_append_left _ hop
      refine Life.status_run_of_agrees hsound' ?_ hagree h.batch.hlc_injOn hstatus ?_ ?_
      · intro op hop
        rcases List.mem_append.mp hop with hop | hop
        · exact (hmem op (List.mem_append_left _ hop)).1
        · rw [List.mem_singleton.mp hop]
          exact h.mem
      · intro op hop
        refine ⟨(hmem op (List.mem_append_right _ hop)).1, ?_, hrest op hop⟩
        intro hin
        have hnodup := ho.nodup
        rw [List.append_cons, List.nodup_append] at hnodup
        exact hnodup.2.2 op hin op hop rfl
      · have hnodup := ho.nodup
        rw [List.nodup_append, List.nodup_cons] at hnodup
        exact hnodup.2.1.2

namespace Life

/-- A restore or discard on an existing row, with a clock that is not seen, leaves the kill
clock and the snapshot. -/
structure Open (D : Op) (l : Life) : Prop where
  killed : l.killed = D.hlc
  revived : l.revived.stored = none
  carried : l.carried = D.carries

lemma Open.step {D : Op} {l : Life} (h : l.Open D) {Y : Op} (hY : Y.deleted = false)
    (hwall : Y.hlc.wall = 0) : (step (some l) Y).Open D := by
  by_cases hstale : l.Stale Y
  · rw [step_of_stale hstale]
    exact h
  · rw [step_of_not_stale hstale]
    unfold write
    rw [if_neg (by rw [hY]; exact Bool.false_ne_true)]
    exact ⟨h.killed, by simp [Hlc.stored, hwall], h.carried⟩

lemma Open.run {D : Op} {l : Life} (h : l.Open D) {ops : List Op}
    (hops : ∀ Y ∈ ops, Y.deleted = false ∧ Y.hlc.wall = 0) :
    ∃ l', Life.run (some l) ops = some l' ∧ l'.Open D := by
  induction ops generalizing l with
  | nil => exact ⟨l, rfl, h⟩
  | cons Y ops ih =>
    obtain ⟨hY, hwall⟩ := hops Y List.mem_cons_self
    exact ih (h.step hY hwall) fun o ho => hops o (List.mem_cons_of_mem Y ho)

lemma open_write_none {D : Op} (hwall : D.hlc.wall = 0) : (write none D).Open D := by
  unfold write
  split
  · exact ⟨rfl, by simp [Hlc.stored, Hlc.zero], by simp⟩
  · exact ⟨rfl, by simp [Hlc.stored, hwall], rfl⟩

/-- A later operation takes effect and leaves the outcome of the pair. -/
lemma Open.status_step {D : Op} {l : Life} (h : l.Open D) {X : Op} (hlt : D.hlc < X.hlc) :
    (Life.step (some l) X).status = outcome D X := by
  have hstale : ¬l.Stale X := by
    unfold Stale
    rw [h.killed, h.revived]
    split
    · rintro (hle | ⟨r, hr, -⟩)
      · exact absurd hlt hle.not_gt
      · cases hr
    · rintro (hgt | ⟨r, hr, -⟩)
      · exact lt_asymm hlt hgt
      · cases hr
  rw [step_of_not_stale hstale, status_write, Option.any_some, h.carried]
  rfl

/-- Forgets leave a status that is not `s` as it is, or make it forgotten. -/
lemma status_run_forgets {s : BookStatus} (hs : s ≠ .forgotten) {l : Life} (hl : l.status ≠ s)
    {ops : List Op} (hops : ∀ Y ∈ ops, Y.deleted = true) :
    ∃ l', run (some l) ops = some l' ∧ l'.status ≠ s := by
  induction ops generalizing l with
  | nil => exact ⟨l, rfl, hl⟩
  | cons Y ops ih =>
    refine ih ?_ fun o ho => hops o (List.mem_cons_of_mem Y ho)
    by_cases hstale : l.Stale Y
    · rw [step_of_stale hstale]
      exact hl
    · rw [step_of_not_stale hstale, status_write, if_pos (hops Y List.mem_cons_self)]
      exact hs.symm

end Life

/-- A newest restore without a snapshot discards when it comes first. -/
lemma exists_order_of_incomplete (h : NewestBook uid S M) (hdel : M.deleted = false)
    (hbare : (M.discards || M.carries) = false) :
    ∃ o, Order S o ∧ ∃ l, Life.run none o = some l ∧ l.status ≠ M.bookStatus := by
  obtain ⟨rest, hrest⟩ := exists_order_of_finite
    (h.batch.finite.subset (Set.sdiff_subset (t := {M})))
  have horder : Order S ([M] ++ rest) := by
    have happend := (order_singleton M).append hrest fun op hop hin => hin.2 hop
    rwa [Set.union_sdiff_cancel (Set.singleton_subset_iff.mpr h.mem)] at happend
  refine ⟨[M] ++ rest, horder, Life.write none M, ?_, ?_⟩
  · refine (Life.closedBy_write_none M).run ?_
    intro op hop
    obtain ⟨hS, hne⟩ := (hrest.delivers op).mp hop
    exact h.lt hS hne
  · rw [Bool.or_eq_false_iff] at hbare
    rw [Life.status_write]
    simp [Op.bookStatus, Life.closed, hdel, hbare.1, hbare.2]

/-- The walls of a batch whose newest clock has wall zero are all zero. -/
lemma NewestBook.wall_eq_zero (h : NewestBook uid S M) (hwall : M.hlc.wall = 0)
    {op : Op} (hop : op ∈ S) :
    op.hlc.wall = 0 := by
  have hpos := (accepted_of_validateOp (h.batch.accepted op hop)).wall
  have hle := h.max op hop
  rcases hle.lt_or_eq with hlt | heq
  · rw [Hlc.lt_iff] at hlt
    omega
  · rw [heq, hwall]

/-- A pair that disagrees with a newest operation at wall zero has an order that shows it: the
older one of the pair, the newest operation, the other restores, the newer one, the Forgets. -/
lemma exists_order_of_disagree (h : NewestBook uid S M) (hdel : M.deleted = false)
    (hwall : M.hlc.wall = 0) {D X : Op} (hD : D ∈ S) (hX : X ∈ S) (hDX : D.hlc < X.hlc)
    (hXM : X.hlc < M.hlc) (hout : outcome D X ≠ M.bookStatus) :
    ∃ o, Order S o ∧ ∃ l, Life.run none o = some l ∧ l.status ≠ M.bookStatus := by
  have hneDX : D ≠ X := fun heq => (heq ▸ hDX).false
  have hneXM : X ≠ M := fun heq => (heq ▸ hXM).false
  have hneDM : D ≠ M := fun heq => (heq ▸ hDX.trans hXM).false
  obtain ⟨lives, hlives⟩ := exists_order_of_finite
    (h.batch.finite.subset (Set.sep_subset S fun Y => Y.deleted = false ∧ Y ≠ D ∧ Y ≠ M ∧ Y ≠ X))
  obtain ⟨forgets, hforgets⟩ := exists_order_of_finite
    (h.batch.finite.subset (Set.sep_subset S fun Y => Y.deleted = true ∧ Y ≠ D ∧ Y ≠ X))
  have horder : Order S ([D] ++ [M] ++ lives ++ [X] ++ forgets) := by
    have h1 := (order_singleton D).append (order_singleton M) (by
      rintro op rfl heq
      exact hneDM heq)
    have h2 := h1.append hlives (by
      rintro op (rfl | rfl) ⟨-, -, hne, hne', -⟩
      · exact hne rfl
      · exact hne' rfl)
    have h3 := h2.append (order_singleton X) (by
      rintro op ((rfl | rfl) | ⟨-, -, -, -, hne⟩) heq
      · exact hneDX heq
      · exact hneXM heq.symm
      · exact hne heq)
    have h4 := h3.append hforgets (by
      rintro op (((rfl | rfl) | ⟨-, hlive, -⟩) | rfl) ⟨-, hdead, hne, hne'⟩
      · exact hne rfl
      · rw [hdel] at hdead
        exact absurd hdead (by decide)
      · rw [hlive] at hdead
        exact absurd hdead (by decide)
      · exact hne' rfl)
    refine ⟨h4.nodup, fun op => (h4.delivers op).trans ⟨?_, fun hop => ?_⟩⟩
    · rintro ((((rfl | rfl) | hin) | rfl) | hin)
      · exact hD
      · exact h.mem
      · exact hin.1
      · exact hX
      · exact hin.1
    · by_cases heqD : op = D
      · exact Or.inl (Or.inl (Or.inl (Or.inl heqD)))
      · by_cases heqM : op = M
        · exact Or.inl (Or.inl (Or.inl (Or.inr heqM)))
        · by_cases heqX : op = X
          · exact Or.inl (Or.inr heqX)
          · cases hop' : op.deleted with
            | true => exact Or.inr ⟨hop, hop', heqD, heqX⟩
            | false => exact Or.inl (Or.inl (Or.inr ⟨hop, hop', heqD, heqM, heqX⟩))
  refine ⟨_, horder, ?_⟩
  have hopen := (Life.open_write_none (h.wall_eq_zero hwall hD)).step hdel hwall
  have hquiet : ∀ Y ∈ lives, Y.deleted = false ∧ Y.hlc.wall = 0 := by
    intro Y hY
    obtain ⟨hS, hlive, -⟩ := (hlives.delivers Y).mp hY
    exact ⟨hlive, h.wall_eq_zero hwall hS⟩
  obtain ⟨l, hrun, hl⟩ := hopen.run hquiet
  have hbad : (Life.step (some l) X).status ≠ M.bookStatus := by
    rw [hl.status_step hDX]
    exact hout
  have hs : M.bookStatus ≠ .forgotten := by
    rw [Ne, Op.bookStatus_eq_forgotten, hdel]
    exact Bool.false_ne_true
  have hdead : ∀ Y ∈ forgets, Y.deleted = true := fun Y hY =>
    ((hforgets.delivers Y).mp hY).2.1
  obtain ⟨l', hrun', hl'⟩ := Life.status_run_forgets hs hbad hdead
  refine ⟨l', ?_, hl'⟩
  rw [Life.run_append, Life.run_append, Life.run_append]
  have hstart : Life.run none ([D] ++ [M]) = some (Life.step (some (Life.write none D)) M) := rfl
  rw [hstart, hrun]
  exact hrun'

/-- **Only a decisive operation decides**: otherwise some order ends with another status. -/
theorem decisive_of_status_run (h : NewestBook uid S M)
    (hall : ∀ o, Order S o → ∃ l, Life.run none o = some l ∧ l.status = M.bookStatus) :
    Decisive S M := by
  have hno : ¬∃ o, Order S o ∧ ∃ l, Life.run none o = some l ∧ l.status ≠ M.bookStatus := by
    rintro ⟨o, ho, l, hl, hne⟩
    obtain ⟨l', hl', heq⟩ := hall o ho
    rw [hl] at hl'
    exact hne (Option.some.inj hl' ▸ heq)
  cases hdel : M.deleted with
  | true => exact Or.inl hdel
  | false =>
    refine Or.inr ⟨?_, ?_⟩
    · by_contra hbare
      rw [Bool.not_eq_true] at hbare
      exact hno (exists_order_of_incomplete h hdel hbare)
    · by_contra hnot
      push Not at hnot
      obtain ⟨hwall, D, hD, X, hX, hDX, hXM, hout⟩ := hnot
      exact hno (exists_order_of_disagree h hdel hwall hD hX hDX hXM hout)

end Decisive

/-! ## Deliveries -/

namespace Mirror

section Deliveries

variable (fromStr : String → Option Value) {m : Mirror} {uid : String} {S : Set Op}

/-- The mirror has no trash row for the book, which is not merged away, and has applied none of
the operations. -/
structure Untouched (m : Mirror) (uid : String) (S : Set Op) : Prop where
  root : m.canonicalBookUid uid = uid
  noRow : m.bookTrash.lookup uid = none
  unseen : ∀ op ∈ S, op.opId ∉ m.appliedOps

lemma Untouched.follows (h : m.Untouched uid S) : m.Follows uid none :=
  ⟨h.root, by rw [h.noRow]; rfl, fun _ hx => by cases hx⟩

/-- **A run of new operations** is a run of the machine. -/
theorem Follows.applyAll {l : Option Life} (h : m.Follows uid l) {ops : List Op}
    (hkind : ∀ op ∈ ops, op.kind = .book) (huid : ∀ op ∈ ops, op.entityUid = uid)
    (hids : (ops.map Op.opId).Nodup) (hnew : ∀ op ∈ ops, op.opId ∉ m.appliedOps) :
    (m.applyAll fromStr ops).Follows uid (Life.run l ops) := by
  induction ops generalizing m l with
  | nil => exact h
  | cons op ops ih =>
    rw [List.map_cons, List.nodup_cons] at hids
    obtain ⟨hstep, hlog⟩ := h.applyOp fromStr (hkind op List.mem_cons_self)
      (huid op List.mem_cons_self) (hnew op List.mem_cons_self)
    refine ih hstep (fun o ho => hkind o (List.mem_cons_of_mem op ho))
      (fun o ho => huid o (List.mem_cons_of_mem op ho)) hids.2 ?_
    intro o ho hin
    rcases (hlog _).mp hin with heq | hin
    · exact hids.1 (heq ▸ List.mem_map_of_mem ho)
    · exact hnew o (List.mem_cons_of_mem op ho) hin

/-- The dispatcher skips the whole-book operations it has applied and logs the others. -/
lemma dedupes_applyOp_book : Dedupes (fun m op => (Mirror.applyOp fromStr m op).1) Op.opId
    Mirror.appliedOps (fun op => op.kind = .book) where
  skip := fun m op h => by rw [Mirror.applyOp_of_mem fromStr h]
  mark := by
    intro m op hkind id
    by_cases hseen : op.opId ∈ m.appliedOps
    · rw [Mirror.applyOp_of_mem fromStr hseen]
      exact ⟨Or.inr, fun h => h.elim (fun heq => heq ▸ hseen) fun h => h⟩
    · rw [applyOp_of_book fromStr hseen hkind, mem_markApplied, appliedOps_applyBook]
      rfl

/-- **The lifecycle of a book converges.** Every delivery of the batch ends with the status of
its newest operation, in the trash row and in the state row, exactly if that operation is
decisive. -/
theorem lifecycle_converges_iff {M : Op} (hm : m.Untouched uid S) (hM : NewestBook uid S M) :
    (∀ l, Delivers S l → (m.applyAll fromStr l).Records uid M.bookStatus) ↔ Decisive S M := by
  constructor
  · intro hall
    refine decisive_of_status_run hM fun o ho => ?_
    have hmem : ∀ op ∈ o, op ∈ S := fun op hop => (ho.delivers op).mp hop
    have hfollows := hm.follows.applyAll fromStr (fun op hop => hM.batch.kind_eq op (hmem op hop))
      (fun op hop => hM.batch.uid_eq op (hmem op hop))
      (List.Nodup.map_on (fun a ha b hb => hM.batch.opId_injOn (hmem a ha) (hmem b hb)) ho.nodup)
      fun op hop => hm.unseen op (hmem op hop)
    have hrecords := hall o ho.delivers
    obtain ⟨⟨t, ht, hstatus⟩, -⟩ := hrecords
    refine ⟨Life.ofRow t, ?_, hstatus⟩
    rw [← hfollows.life, ht, Option.map_some]
  · intro hdec l hl
    have horder : Order S (firsts Op.opId m.appliedOps l) :=
      ⟨nodup_firsts, delivers_firsts hM.batch.opId_injOn hl hm.unseen⟩
    have hmem : ∀ op ∈ firsts Op.opId m.appliedOps l, op ∈ S := fun op hop =>
      (horder.delivers op).mp hop
    have hrun : m.applyAll fromStr l = m.applyAll fromStr (firsts Op.opId m.appliedOps l) :=
      foldl_firsts (dedupes_applyOp_book fromStr)
        (fun op hop => hM.batch.kind_eq op ((hl op).mp hop)) fun _ => Iff.rfl
    have hfollows := hm.follows.applyAll fromStr (fun op hop => hM.batch.kind_eq op (hmem op hop))
      (fun op hop => hM.batch.uid_eq op (hmem op hop)) nodup_map_firsts
      fun op hop => (mem_of_mem_firsts hop).2
    obtain ⟨x, hx, hstatus⟩ := status_run_of_decisive hM hdec horder
    rw [hx] at hfollows
    rw [hrun, ← hstatus]
    exact hfollows.records

end Deliveries

end Mirror

/-- A whole-book operation of one device, for the runs below. -/
def bookOp (wall : ℤ) (opId : String) (deleted : Bool) (fields prior : Fields) : Op :=
  { sampleOp .book wall opId deleted false fields with
    entityUid := "book"
    prior := if deleted then some prior else none }

/-- A Forget that carries a snapshot. -/
def forgetOp : Op :=
  bookOp 1000 "00000000000000000000000000000001" true ∅
    ((∅ : Fields).insert "snapshot" (.str "snapshot"))

/-- A newer restore that carries one too. -/
def restoreOp : Op :=
  bookOp 2000 "00000000000000000000000000000002" false
    ((∅ : Fields).insert "snapshot" (.str "snapshot")) ∅

/-- A newer restore that relies on the Forget's. -/
def bareRestoreOp : Op := bookOp 2000 "00000000000000000000000000000002" false ∅ ∅

lemma newestBook_of_list {l : List Op} (hbatch : Batch .book "book" {op | op ∈ l}) {M : Op}
    (hM : M ∈ l) (hmax : ∀ op ∈ l, op.hlc ≤ M.hlc) : NewestBook "book" {op | op ∈ l} M :=
  ⟨hbatch, hM, hmax⟩

lemma untouched_empty (S : Set Op) : ({} : Mirror).Untouched "book" S :=
  ⟨MergeForest.find_of_root rfl 32, rfl, fun _ _ => List.not_mem_nil⟩

/-- A Forget and a restore, both with a snapshot. -/
theorem lifecycle_converges_sample :
    ({} : Mirror).Untouched "book" {op | op ∈ [forgetOp, restoreOp]} ∧
      NewestBook "book" {op | op ∈ [forgetOp, restoreOp]} restoreOp ∧
      ((∀ l, Delivers {op | op ∈ [forgetOp, restoreOp]} l →
        (({} : Mirror).applyAll (fun _ => none) l).Records "book" .restored) ↔
          Decisive {op | op ∈ [forgetOp, restoreOp]} restoreOp) := by
  have hbatch : Batch .book "book" {op | op ∈ [forgetOp, restoreOp]} := batch_of_list
    (by decide) (by decide) (by decide) (by decide) (by decide)
  have hM := newestBook_of_list hbatch (M := restoreOp) (by simp) (by decide)
  have hm := untouched_empty {op | op ∈ [forgetOp, restoreOp]}
  exact ⟨hm, hM, Mirror.lifecycle_converges_iff (fun _ => none) hm hM⟩

/-- A restore without a snapshot restores after the Forget and discards before it. -/
theorem lifecycle_diverges :
    NewestBook "book" {op | op ∈ [forgetOp, bareRestoreOp]} bareRestoreOp ∧
      Delivers {op | op ∈ [forgetOp, bareRestoreOp]} [forgetOp, bareRestoreOp] ∧
      Delivers {op | op ∈ [forgetOp, bareRestoreOp]} [bareRestoreOp, forgetOp] ∧
      (({} : Mirror).applyAll (fun _ => none) [forgetOp, bareRestoreOp]).Records "book" .restored ∧
      (({} : Mirror).applyAll (fun _ => none) [bareRestoreOp, forgetOp]).Records "book"
        .discarded := by
  have hbatch : Batch .book "book" {op | op ∈ [forgetOp, bareRestoreOp]} := batch_of_list
    (by decide) (by decide) (by decide) (by decide) (by decide)
  refine ⟨newestBook_of_list hbatch (by simp) (by decide), fun _ => Iff.rfl, fun op => ?_, ?_, ?_⟩
  · simp [or_comm]
  · exact ⟨⟨_, rfl, by decide⟩, by decide⟩
  · exact ⟨⟨_, rfl, by decide⟩, by decide⟩

end TuxBooks
