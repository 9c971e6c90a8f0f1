import Mathlib.Data.List.TakeWhile
import Mathlib.Data.Set.Finite.Basic
import TuxBooks.Lib.Delivery
import TuxBooks.Sync.Row

set_option relaxedAutoImplicit false
set_option autoImplicit false

/-!
# Runs over one entity

The setting of the convergence results: a finite set of accepted operations on one entity, each
delivered at least once in any order. Deduplication by operation id reduces a delivery to an
order of the set without repetition, and the mirror row to a fold of `EntityRow.step`.

## Main definitions

* `TuxBooks.Batch` — finitely many accepted operations on one entity with distinct ids and clocks.
* `TuxBooks.Mirror.Fresh` — the mirror has not seen the entity or any of its operations.
* `TuxBooks.Order` — an order of a set, without repetition.
* `TuxBooks.EntityRow.run` — the row after a sequence of operations.

## Main results

* `TuxBooks.Mirror.fresh_empty` — the empty mirror is fresh for every batch.
* `TuxBooks.exists_order` — the row after a delivery is the row after some order.
* `TuxBooks.row_of_order` — every order is a delivery.
-/

namespace TuxBooks

open Delivery

/-- Finitely many accepted operations on one entity; an operation is known by its id, and no
two share a clock. -/
structure Batch (kind : EntityKind) (uid : String) (S : Set Op) : Prop where
  finite : S.Finite
  accepted : ∀ op ∈ S, validateOp op = .ok ()
  kind_eq : ∀ op ∈ S, op.kind = kind
  uid_eq : ∀ op ∈ S, op.entityUid = uid
  opId_injOn : Set.InjOn Op.opId S
  hlc_injOn : Set.InjOn Op.hlc S

/-- The sequence `l` is an order of the set `S`. -/
structure Order (S : Set Op) (l : List Op) : Prop where
  nodup : l.Nodup
  delivers : Delivers S l

/-! ## Building orders -/

lemma exists_order_of_finite {S : Set Op} (hS : S.Finite) : ∃ l, Order S l :=
  ⟨hS.toFinset.toList, Finset.nodup_toList _, fun op => by simp⟩

lemma order_nil : Order ∅ [] := ⟨List.nodup_nil, fun _ => by simp⟩

lemma order_singleton (op : Op) : Order {op} [op] := ⟨List.nodup_singleton op, fun _ => by simp⟩

/-- An order of one set followed by an order of a disjoint one. -/
lemma Order.append {S T : Set Op} {l l' : List Op} (h : Order S l) (h' : Order T l')
    (hdisj : ∀ op ∈ S, op ∉ T) : Order (S ∪ T) (l ++ l') where
  nodup := by
    refine List.nodup_append.mpr ⟨h.nodup, h'.nodup, ?_⟩
    rintro a ha _ hb rfl
    exact hdisj a ((h.delivers a).mp ha) ((h'.delivers a).mp hb)
  delivers := fun op => by rw [List.mem_append, h.delivers, h'.delivers, Set.mem_union]

/-! ## Where a state operation writes -/

namespace Mirror

/-- The operations of `S` address the row `uid` and none of them names a forgotten book. -/
structure Serves (m : Mirror) (uid : String) (S : Set Op) : Prop where
  key : ∀ op ∈ S, m.stateKey op = .ok uid
  live : ∀ op ∈ S, m.drops op = false

/-- The mirror has no row for the entity, has applied none of the operations, and neither the
entity nor a book of these operations is merged away or forgotten. -/
structure Fresh (m : Mirror) (kind : EntityKind) (uid : String) (S : Set Op) : Prop where
  serves : m.Serves uid S
  noRow : m.entities.lookup (kind, uid) = none
  unseen : ∀ op ∈ S, op.opId ∉ m.appliedOps

lemma Fresh.row {m : Mirror} {kind : EntityKind} {uid : String} {S : Set Op}
    (h : m.Fresh kind uid S) : m.row kind uid = {} := by
  rw [Mirror.row, h.noRow, Option.getD_none]

/-- The row an operation addresses depends on the merge tables only. -/
lemma stateKey_congr {m m' : Mirror} (hm : m'.merges = m.merges)
    (he : m'.entityMerges = m.entityMerges) (op : Op) : m'.stateKey op = m.stateKey op := by
  unfold stateKey canonicalEntityUid canonicalBookUid
  rw [hm, he]

/-- Whether an operation is dropped depends on the merge table and the book trash only. -/
lemma drops_congr {m m' : Mirror} (hm : m'.merges = m.merges)
    (ht : m'.bookTrash = m.bookTrash) (op : Op) : m'.drops op = m.drops op := by
  unfold drops forgottenReplacement canonicalBookUid
  rw [hm, ht]

lemma canonicalBookUid_congr {m m' : Mirror} (hm : m'.merges = m.merges) :
    m'.canonicalBookUid = m.canonicalBookUid := by
  funext uid
  unfold canonicalBookUid
  rw [hm]

end Mirror

/-- A text with the separator splits. -/
lemma exists_splitOnce {c : Char} {s : String} (h : c ∈ s.toList) :
    ∃ p, splitOnce c s = some p := by
  unfold splitOnce
  cases hdrop : s.toList.dropWhile (· != c) with
  | nil => simpa using List.dropWhile_eq_nil_iff.mp hdrop _ h
  | cons a rest => exact ⟨_, rfl⟩

/-- A membership uid that the validator accepts has its separator. -/
lemma Op.Accepted.splitOnce_membership {op : Op} (h : op.Accepted) (hk : op.kind = .membership) :
    ∃ collection book, splitOnce ':' op.entityUid = some (collection, book) := by
  by_cases hcolon : ':' ∈ op.entityUid.toList
  · obtain ⟨p, hsplit⟩ := exists_splitOnce hcolon
    exact ⟨p.1, p.2, hsplit⟩
  · have hmem := h.membership
    unfold validateMembership at hmem
    rw [if_pos hk, List.splitOn_eq_singleton hcolon] at hmem
    cases hmem

/-- An accepted state operation addresses a row in every mirror. -/
lemma Op.Accepted.exists_stateKey {op : Op} (h : op.Accepted) (m : Mirror) :
    ∃ uid, m.stateKey op = .ok uid := by
  unfold Mirror.stateKey
  cases hk : op.kind with
  | membership =>
    obtain ⟨collection, book, hsplit⟩ := h.splitOnce_membership hk
    exact ⟨_, by rw [hsplit]⟩
  | _ => exact ⟨_, rfl⟩

/-- With no merges recorded an accepted operation addresses its own uid. -/
lemma Op.Accepted.stateKey_empty {op : Op} (h : op.Accepted) :
    ({} : Mirror).stateKey op = .ok op.entityUid := by
  have hroot : ∀ uid, ({} : Mirror).canonicalBookUid uid = uid := fun uid =>
    MergeForest.find_of_root rfl 32
  have hentity : ∀ kind uid, ({} : Mirror).canonicalEntityUid kind uid = uid := fun kind uid =>
    MergeForest.find_of_root rfl 32
  unfold Mirror.stateKey
  cases hk : op.kind with
  | collection => rw [hentity]
  | membership =>
    obtain ⟨collection, book, hsplit⟩ := h.splitOnce_membership hk
    rw [hsplit]
    dsimp only
    rw [hentity, hroot]
    exact congrArg Except.ok (splitOnce_eq_some hsplit)
  | _ => rfl

/-- The empty mirror is fresh for every batch. -/
lemma Mirror.fresh_empty {kind : EntityKind} {uid : String} {S : Set Op}
    (hS : Batch kind uid S) : ({} : Mirror).Fresh kind uid S where
  serves := by
    refine ⟨fun op hop => ?_, fun op _ => ?_⟩
    · rw [(accepted_of_validateOp (hS.accepted op hop)).stateKey_empty, hS.uid_eq op hop]
    · unfold Mirror.drops
      cases op.bookUid with
      | none => rfl
      | some book =>
        simp [Mirror.forgottenReplacement, AList.lookup_empty]
  noRow := rfl
  unseen := fun _ _ => List.not_mem_nil

/-! ## The row after a run -/

/-- The row after a sequence of operations, under a map of book uids to canonical ones. -/
def EntityRow.run (canon : String → String) (r : EntityRow) (l : List Op) : EntityRow :=
  l.foldl (fun r op => r.step op (op.bookUid.map canon)) r

@[simp] lemma EntityRow.run_nil (canon : String → String) (r : EntityRow) : r.run canon [] = r :=
  rfl

@[simp] lemma EntityRow.run_cons (canon : String → String) (r : EntityRow) (op : Op)
    (l : List Op) :
    r.run canon (op :: l) = (r.step op (op.bookUid.map canon)).run canon l := rfl

lemma EntityRow.run_append (canon : String → String) (r : EntityRow) (l l' : List Op) :
    r.run canon (l ++ l') = (r.run canon l).run canon l' := List.foldl_append

section Run

variable (fromStr : String → Option Value) {kind : EntityKind} {uid : String} {S : Set Op}
  {m : Mirror}

/-- What one new operation of a served set does to the mirror. -/
lemma Mirror.Serves.applyOp (h : m.Serves uid S) {op : Op} (hop : op ∈ S)
    (hstate : op.kind.IsState) (hnew : op.opId ∉ m.appliedOps) :
    let m' := (m.applyOp fromStr op).1
    m'.Serves uid S ∧ m'.canonicalBookUid = m.canonicalBookUid ∧
      (∀ id, id ∈ m'.appliedOps ↔ id = op.opId ∨ id ∈ m.appliedOps) ∧
      m'.row op.kind uid =
        (m.row op.kind uid).step op (op.bookUid.map m.canonicalBookUid) := by
  intro m'
  have hwrote := Mirror.wrote_applyStateOp (m.observeHlc op.hlc) (h.key op hop)
  have hm' : m' = ((m.observeHlc op.hlc).applyStateOp op).1.markApplied op :=
    Mirror.applyOp_of_state fromStr hnew hstate (h.live op hop) (h.key op hop)
  have hmerges : m'.merges = m.merges := by rw [hm']; exact hwrote.merges
  have hentity : m'.entityMerges = m.entityMerges := by rw [hm']; exact hwrote.entityMerges
  have htrash : m'.bookTrash = m.bookTrash := by rw [hm']; exact hwrote.bookTrash
  refine ⟨⟨fun op' hop' => ?_, fun op' hop' => ?_⟩, ?_, fun id => ?_, ?_⟩
  · rw [Mirror.stateKey_congr hmerges hentity, h.key op' hop']
  · rw [Mirror.drops_congr hmerges htrash, h.live op' hop']
  · exact Mirror.canonicalBookUid_congr hmerges
  · rw [hm', Mirror.mem_markApplied, hwrote.appliedOps]
    rfl
  · rw [hm']
    exact hwrote.row

/-- **A run of new operations folds `EntityRow.step`.** -/
lemma Mirror.Serves.row_applyAll (h : m.Serves uid S) (hstate : kind.IsState) {l : List Op}
    (hmem : ∀ op ∈ l, op ∈ S) (hkind : ∀ op ∈ l, op.kind = kind)
    (hids : (l.map Op.opId).Nodup) (hnew : ∀ op ∈ l, op.opId ∉ m.appliedOps) :
    (m.applyAll fromStr l).row kind uid =
      (m.row kind uid).run m.canonicalBookUid l := by
  induction l generalizing m with
  | nil => rfl
  | cons op l ih =>
    rw [List.map_cons, List.nodup_cons] at hids
    have hk : op.kind = kind := hkind op List.mem_cons_self
    obtain ⟨hserves, hcanon, hlog, hrow⟩ := h.applyOp fromStr (hmem op List.mem_cons_self)
      (hk ▸ hstate) (hnew op List.mem_cons_self)
    have hrest := ih hserves (fun o ho => hmem o (List.mem_cons_of_mem _ ho))
      (fun o ho => hkind o (List.mem_cons_of_mem _ ho)) hids.2 fun o ho hin => by
        rcases (hlog _).mp hin with heq | hin
        · exact hids.1 (heq ▸ List.mem_map_of_mem ho)
        · exact hnew o (List.mem_cons_of_mem _ ho) hin
    rw [hk] at hrow
    rw [hcanon, hrow] at hrest
    exact hrest

/-- The dispatcher skips what it has applied and logs what it applies. -/
lemma dedupes_applyOp : Dedupes (fun m op => (Mirror.applyOp fromStr m op).1) Op.opId
    Mirror.appliedOps (fun op => op.kind.IsState ∧ op.Accepted) where
  skip := fun m op h => by rw [Mirror.applyOp_of_mem fromStr h]
  mark := by
    rintro m op ⟨hstate, hacc⟩ id
    by_cases hseen : op.opId ∈ m.appliedOps
    · rw [Mirror.applyOp_of_mem fromStr hseen]
      exact ⟨Or.inr, fun h => h.elim (fun heq => heq ▸ hseen) fun h => h⟩
    · obtain ⟨uid, hkey⟩ := hacc.exists_stateKey m
      cases hdrop : m.drops op with
      | false =>
        have hwrote := Mirror.wrote_applyStateOp (m.observeHlc op.hlc) hkey
        rw [Mirror.applyOp_of_state fromStr hseen hstate hdrop hkey, Mirror.mem_markApplied,
          hwrote.appliedOps]
        rfl
      | true =>
        have hdrop' : (op.bookUid.any fun uid => ((m.observeHlc op.hlc).forgottenReplacement
            ((m.observeHlc op.hlc).canonicalBookUid uid)).isSome) = true := hdrop
        rw [Mirror.applyOp, if_neg hseen]
        dsimp only
        rw [if_neg hstate.1, if_neg hstate.2, hdrop', if_pos rfl, Mirror.mem_markApplied]
        rfl

/-- **The row after a delivery is the row after some order.** -/
theorem exists_order (hS : Batch kind uid S) (hstate : kind.IsState) (hm : m.Fresh kind uid S)
    {l : List Op} (hl : Delivers S l) :
    ∃ o, Order S o ∧ (m.applyAll fromStr l).row kind uid =
      EntityRow.run m.canonicalBookUid {} o := by
  have hord : Order S (firsts Op.opId m.appliedOps l) :=
    ⟨nodup_firsts, delivers_firsts hS.opId_injOn hl hm.unseen⟩
  have hmem : ∀ op ∈ firsts Op.opId m.appliedOps l, op ∈ S := fun op h =>
    (hord.delivers op).mp h
  refine ⟨_, hord, ?_⟩
  have hp : ∀ op ∈ l, op.kind.IsState ∧ op.Accepted := fun op h => by
    have hop := (hl op).mp h
    exact ⟨hS.kind_eq op hop ▸ hstate, accepted_of_validateOp (hS.accepted op hop)⟩
  have hrun := hm.serves.row_applyAll fromStr hstate hmem
    (fun op h => hS.kind_eq op (hmem op h)) nodup_map_firsts fun op h => (mem_of_mem_firsts h).2
  rw [hm.row] at hrun
  rw [← hrun]
  unfold Mirror.applyAll
  rw [foldl_firsts (dedupes_applyOp fromStr) hp fun _ => Iff.rfl]

/-- **Every order is a delivery**, and the row after it is a fold. -/
theorem row_of_order (hS : Batch kind uid S) (hstate : kind.IsState) (hm : m.Fresh kind uid S)
    {o : List Op} (ho : Order S o) :
    (m.applyAll fromStr o).row kind uid = EntityRow.run m.canonicalBookUid {} o := by
  have hmem : ∀ op ∈ o, op ∈ S := fun op h => (ho.delivers op).mp h
  have hids : (o.map Op.opId).Nodup :=
    List.Nodup.map_on (fun a ha b hb => hS.opId_injOn (hmem a ha) (hmem b hb)) ho.nodup
  have hrun := hm.serves.row_applyAll fromStr hstate hmem (fun op h => hS.kind_eq op (hmem op h))
    hids fun op h => hm.unseen op (hmem op h)
  rwa [hm.row] at hrun

end Run

/-! ## Batches given by a list -/

/-- A list of accepted operations on one entity, with distinct ids and clocks, is a batch. -/
lemma batch_of_list {kind : EntityKind} {uid : String} {l : List Op}
    (haccepted : ∀ op ∈ l, validateOp op = .ok ()) (hkind : ∀ op ∈ l, op.kind = kind)
    (huid : ∀ op ∈ l, op.entityUid = uid) (hid : (l.map Op.opId).Nodup)
    (hhlc : (l.map Op.hlc).Nodup) : Batch kind uid {op | op ∈ l} where
  finite := l.finite_toSet
  accepted := haccepted
  kind_eq := hkind
  uid_eq := huid
  opId_injOn := fun _ ha _ hb h => List.inj_on_of_nodup_map hid ha hb h
  hlc_injOn := fun _ ha _ hb h => List.inj_on_of_nodup_map hhlc ha hb h

/-- An operation of one device on the row `item:book`, for the runs below. -/
def sampleOp (kind : EntityKind) (wall : ℤ) (opId : String) (deleted restore : Bool)
    (fields : Fields) : Op where
  schema := opSchema
  opId := opId
  deviceId := "dddddddddddddddddddddddddddddddd"
  hlc := ⟨wall, 0, "dddddddddddddddddddddddddddddddd"⟩
  kind := kind
  entityUid := "item:book"
  bookUid := some "book"
  deleted := deleted
  restore := restore
  fields := fields
  prior := none
  createdAt := "2026-01-01T00:00:00.000Z"

end TuxBooks
