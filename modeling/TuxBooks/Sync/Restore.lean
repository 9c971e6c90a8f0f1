import TuxBooks.Sync.FieldMode

set_option relaxedAutoImplicit false
set_option autoImplicit false

/-!
# What a deleted annotation can be restored to

A delete of an annotation carries the full state of the deleting device. A receiver keeps a prior
state in `sync_trash` for the Restore action, which publishes it with a fresh clock. `apply_delete`
takes the receiver's own state as a whole, and the carried one only if its own is all null: a
receiver that the delete overtook keeps what it had, with nulls for the fields it had not seen.

## Main definitions

* `TuxBooks.restoreFields` — the fields that restoring a trash row publishes.
* `TuxBooks.Dominates` — a state has every field of the deleting device, at least as new.
* `TuxBooks.Deletion` — a delete of an annotation and the devices that send and receive it.

## Main results

* `TuxBooks.Mirror.Awaits.applyDelete` — what the delete puts into the trash.
* `TuxBooks.Mirror.Holds.applyAll` — the trash row keeps its prior.
* `TuxBooks.restore_recovers_iff` — the prior recovers what was deleted exactly if the receiver
  held nothing or already held it.
-/

namespace TuxBooks

open Delivery

/-! ## Trash rows under state operations -/

namespace Mirror

variable {m : Mirror} {op : Op} {uid : String}

@[simp] lemma trash_recordIssue (m : Mirror) (key kind : String) :
    (m.recordIssue key kind).trash = m.trash := by
  unfold recordIssue
  split <;> rfl

@[simp] lemma trash_recordConflict (m : Mirror) (kind : EntityKind) (uid field : String)
    (winner loser : Value) (winnerHlc loserHlc : Hlc) :
    (m.recordConflict kind uid field winner loser winnerHlc loserHlc).trash = m.trash := by
  unfold recordConflict
  split
  · rfl
  · dsimp only
    split
    · rfl
    · exact trash_recordIssue m _ _

lemma trash_applyField (m : Mirror) (op : Op) (uid field : String) (value : Value) :
    (m.applyField op uid field value).trash = m.trash := by
  unfold applyField
  dsimp only
  split
  · split
    · split
      · exact trash_recordConflict m _ _ _ _ _ _ _
      · rfl
    · rfl
  · rfl

lemma trash_mergeByMode (m : Mirror) (op : Op) (uid : String) (entityHlc : Hlc) :
    (m.mergeByMode op uid entityHlc).trash = m.trash := by
  unfold mergeByMode
  split
  · unfold applyFields
    generalize op.fields.entries = entries
    induction entries generalizing m with
    | nil => rfl
    | cons e entries ih => exact (ih _).trans (trash_applyField m op uid e.1 e.2)
  · unfold applyEntity
    split
    · exact trash_recordConflict m _ _ _ _ _ _ _
    · rfl

/-- An upsert closes trash rows and changes nothing else in the trash. -/
lemma trash_applyUpsert (m : Mirror) (op : Op) (uid : String) :
    (m.applyUpsert op uid).trash = m.trash ∨
      (m.applyUpsert op uid).trash = (m.closeTrash op.kind uid).trash := by
  unfold applyUpsert
  dsimp only
  split
  · split
    · exact Or.inl (trash_recordConflict m _ _ _ _ _ _ _)
    · split
      · exact Or.inl (trash_recordConflict m _ _ _ _ _ _ _)
      · exact Or.inr (trash_mergeByMode _ op uid _)
  · exact Or.inl (trash_mergeByMode m op uid _)


/-- The trash row stems from the delete with clock `hlc` of the entity. -/
def Stems (kind : EntityKind) (uid : String) (hlc : Hlc) (t : TrashRow) : Prop :=
  t.kind = kind ∧ t.entityUid = uid ∧ t.deletedClock = hlc

/-- The trash has a row for the delete, and its prior is `prior`. -/
structure Holds (m : Mirror) (kind : EntityKind) (uid : String) (hlc : Hlc) (prior : State) :
    Prop where
  exists_row : ∃ t ∈ m.trash, Stems kind uid hlc t
  prior_eq : ∀ t ∈ m.trash, Stems kind uid hlc t → t.prior = prior

section Holds

variable {kind : EntityKind} {hlc : Hlc} {prior : State} {m' : Mirror}

/-- Closing rows keeps their keys and priors. -/
lemma Holds.closeTrash (h : m.Holds kind uid hlc prior) (kind' : EntityKind) (uid' : String) :
    (m.closeTrash kind' uid').Holds kind uid hlc prior where
  exists_row := by
    obtain ⟨t, ht, hstems⟩ := h.exists_row
    refine ⟨_, List.mem_map_of_mem ht, ?_⟩
    split
    · exact hstems
    · exact hstems
  prior_eq := by
    intro t' ht' hstems
    obtain ⟨t, ht, heq⟩ := List.mem_map.mp ht'
    split at heq
    · subst heq
      exact h.prior_eq t ht hstems
    · subst heq
      exact h.prior_eq t ht hstems

lemma Holds.congr (h : m.Holds kind uid hlc prior) (ht : m'.trash = m.trash) :
    m'.Holds kind uid hlc prior := by
  refine ⟨?_, ?_⟩
  · rw [ht]
    exact h.exists_row
  · rw [ht]
    exact h.prior_eq

end Holds

section Apply

variable (fromStr : String → Option Value) {S : Set Op}

/-- What applying an upsert of a served set does to the trash. -/
lemma Serves.trash_applyOp (h : m.Serves uid S) (hop : op ∈ S) (hstate : op.kind.IsState)
    (hup : op.deleted = false) : (m.applyOp fromStr op).1.trash = m.trash ∨
      (m.applyOp fromStr op).1.trash = (m.closeTrash op.kind uid).trash := by
  by_cases hseen : op.opId ∈ m.appliedOps
  · rw [applyOp_of_mem fromStr hseen]
    exact Or.inl rfl
  · have hkey : (m.observeHlc op.hlc).stateKey op = .ok uid := h.key op hop
    rw [applyOp_of_state fromStr hseen hstate (h.live op hop) (h.key op hop)]
    have htrash : ((m.observeHlc op.hlc).applyStateOp op).1 =
        ((m.observeHlc op.hlc).touchRow op.kind uid
          (op.bookUid.map (m.observeHlc op.hlc).canonicalBookUid)).applyUpsert op uid := by
      unfold applyStateOp
      rw [hkey]
      dsimp only
      rw [if_neg (by rw [hup]; exact Bool.false_ne_true)]
    show ((m.observeHlc op.hlc).applyStateOp op).1.trash = _ ∨
      ((m.observeHlc op.hlc).applyStateOp op).1.trash = _
    rw [htrash]
    exact trash_applyUpsert _ op uid

/-- The annotation is live, the delete `D` has not arrived, and the trash has no row of it. -/
structure Awaits (m : Mirror) (uid : String) (S : Set Op) (D : Op) : Prop where
  serves : m.Serves uid S
  live : (m.row EntityKind.annotation uid).deleted = false
  restored : (m.row EntityKind.annotation uid).restoredClock = none
  unseen : D.opId ∉ m.appliedOps
  noTrash : ∀ t ∈ m.trash, ¬(t.kind = EntityKind.annotation ∧ t.entityUid = uid)

/-- **One upsert** keeps the delete awaited. -/
lemma Awaits.applyOp {D : Op} (h : m.Awaits uid S D) (hop : op ∈ S)
    (hkind : op.kind = EntityKind.annotation)
    (hup : op.deleted = false) (hid : op.opId ≠ D.opId) :
    (m.applyOp fromStr op).1.Awaits uid S D := by
  by_cases hseen : op.opId ∈ m.appliedOps
  · rw [applyOp_of_mem fromStr hseen]
    exact h
  · have hstate : op.kind.IsState := by rw [hkind]; decide
    obtain ⟨hserves, -, hlog, hrow⟩ := h.serves.applyOp fromStr hop hstate hseen
    rw [hkind] at hrow
    have hflags := EntityRow.sameFlags_run_of_live h.live (l := [op])
      (fun o ho => by rw [List.mem_singleton.mp ho]; exact hup) m.canonicalBookUid
    rw [EntityRow.run_cons, EntityRow.run_nil] at hflags
    refine ⟨hserves, ?_, ?_, ?_, ?_⟩
    · rw [hrow, hflags.deleted, h.live]
    · rw [hrow, hflags.restoredClock, h.restored]
    · intro hin
      rcases (hlog _).mp hin with heq | hin
      · exact hid heq.symm
      · exact h.unseen hin
    · intro t ht
      rcases h.serves.trash_applyOp fromStr hop hstate hup with heq | heq
      · rw [heq] at ht
        exact h.noTrash t ht
      · rw [heq] at ht
        obtain ⟨t', ht', rfl⟩ := List.mem_map.mp ht
        have hno := h.noTrash t' ht'
        split
        · exact hno
        · exact hno

/-- The prior that `apply_delete` keeps. -/
def keptPrior (own : State) (carried : Fields) : State :=
  if own.allNull then canonicalFromSnapshot EntityKind.annotation carried else own

/-- A row of an entity that has none in the trash is inserted. -/
lemma holds_insertTrash {kind : EntityKind}
    (hno : ∀ t ∈ m.trash, ¬(t.kind = kind ∧ t.entityUid = uid)) (row : TrashRow)
    (hkind : row.kind = kind) (huid : row.entityUid = uid) :
    (m.insertTrash row).Holds kind uid row.deletedClock row.prior := by
  unfold insertTrash
  rw [if_neg]
  · refine ⟨⟨row, List.mem_append_right _ List.mem_cons_self, hkind, huid, rfl⟩, ?_⟩
    intro t ht hstems
    rcases List.mem_append.mp ht with ht | ht
    · exact absurd ⟨hstems.1, hstems.2.1⟩ (hno t ht)
    · rw [List.mem_singleton.mp ht]
  · intro hany
    obtain ⟨t, ht, heq⟩ := List.any_eq_true.mp hany
    simp only [Bool.and_eq_true, beq_iff_eq] at heq
    exact hno t ht ⟨heq.1.1.trans hkind, heq.1.2.trans huid⟩

/-- The delete path on a live annotation that nothing has restored. -/
lemma holds_applyDelete {D : Op} (hkind : D.kind = EntityKind.annotation)
    (hlive : (m.row EntityKind.annotation uid).deleted = false)
    (hrestored : (m.row EntityKind.annotation uid).restoredClock = none) (hpos : Hlc.zero < D.hlc)
    (hno : ∀ t ∈ m.trash, ¬(t.kind = EntityKind.annotation ∧ t.entityUid = uid)) {carried : Fields}
    (hprior : D.prior = some carried) (bookUid : Option String) :
    (m.applyDelete D uid bookUid).Holds EntityKind.annotation uid D.hlc
      (keptPrior (m.loadStateTx EntityKind.annotation uid) carried) := by
  have hzero : ¬((m.row EntityKind.annotation uid).restoredHlc.getD Hlc.zero > D.hlc) := by
    unfold EntityRow.restoredHlc
    rw [hrestored]
    exact hpos.not_gt
  unfold applyDelete keptPrior
  rw [hkind]
  dsimp only
  rw [if_neg (by rw [hlive]; exact Bool.false_ne_true), if_neg hzero, hprior]
  have hdead : ∀ t ∈ (m.setRow EntityKind.annotation uid { m.row EntityKind.annotation uid with
      deleted := true, deletedClock := some D.hlc }).trash,
      ¬(t.kind = EntityKind.annotation ∧ t.entityUid = uid) := hno
  cases hnull : (m.loadStateTx EntityKind.annotation uid).allNull with
  | true =>
    rw [if_pos rfl]
    exact holds_insertTrash hdead
      ⟨ EntityKind.annotation, uid, bookUid, canonicalFromSnapshot EntityKind.annotation carried,
        D.hlc, false⟩ rfl rfl
  | false =>
    rw [if_neg Bool.false_ne_true]
    exact holds_insertTrash hdead
      ⟨ EntityKind.annotation, uid, bookUid, m.loadStateTx EntityKind.annotation uid,
        D.hlc, false⟩ rfl rfl

/-- **The delete** puts the receiver's own state into the trash, or the carried one if that is
all null. -/
theorem Awaits.applyDelete {D : Op} (h : m.Awaits uid S D) (hD : D ∈ S)
    (hkind : D.kind = EntityKind.annotation) (hdel : D.deleted = true) (hpos : Hlc.zero < D.hlc)
    {carried : Fields} (hprior : D.prior = some carried) :
    (m.applyOp fromStr D).1.Holds EntityKind.annotation uid D.hlc
      (keptPrior (m.loadStateTx EntityKind.annotation uid) carried) := by
  have hstate : D.kind.IsState := by rw [hkind]; decide
  have hkey : (m.observeHlc D.hlc).stateKey D = .ok uid := h.serves.key D hD
  rw [applyOp_of_state fromStr h.unseen hstate (h.serves.live D hD) (h.serves.key D hD)]
  generalize hbook : D.bookUid.map (m.observeHlc D.hlc).canonicalBookUid = bookUid
  generalize htouched : (m.observeHlc D.hlc).touchRow EntityKind.annotation uid bookUid = touched
  have happly : ((m.observeHlc D.hlc).applyStateOp D).1 = touched.applyDelete D uid bookUid := by
    unfold applyStateOp
    rw [hkey]
    dsimp only
    rw [if_pos hdel, hbook, hkind, htouched]
  have hrow : touched.row EntityKind.annotation uid =
      (m.row EntityKind.annotation uid).touch bookUid := by
    rw [← htouched]
    exact row_setRow _ EntityKind.annotation uid _
  have hown : touched.loadStateTx EntityKind.annotation uid =
      m.loadStateTx EntityKind.annotation uid := by
    unfold loadStateTx
    rw [hrow]
    rfl
  have htrash : touched.trash = m.trash := by
    rw [← htouched]
    rfl
  have hholds := holds_applyDelete (m := touched) hkind (by rw [hrow]; exact h.live)
    (by rw [hrow]; exact h.restored) hpos (by rw [htrash]; exact h.noTrash) hprior bookUid
  rw [hown] at hholds
  rw [happly]
  exact hholds.congr rfl

/-- **Later upserts** leave the prior in the trash. -/
theorem Holds.applyAll {l : List Op} {kind : EntityKind} {hlc : Hlc} {prior : State}
    (h : m.Holds kind uid hlc prior) (hserves : m.Serves uid S) (hmem : ∀ op ∈ l, op ∈ S)
    (hstate : ∀ op ∈ l, op.kind.IsState)
    (hup : ∀ op ∈ l, op.deleted = false ∨ op.opId ∈ m.appliedOps) :
    (m.applyAll fromStr l).Holds kind uid hlc prior := by
  induction l generalizing m with
  | nil => exact h
  | cons op l ih =>
    by_cases hseen : op.opId ∈ m.appliedOps
    · have hskip : (m.applyOp fromStr op).1 = m := by rw [applyOp_of_mem fromStr hseen]
      show ((m.applyOp fromStr op).1.applyAll fromStr l).Holds kind uid hlc prior
      rw [hskip]
      exact ih h hserves (fun o ho => hmem o (List.mem_cons_of_mem op ho))
        (fun o ho => hstate o (List.mem_cons_of_mem op ho))
        fun o ho => hup o (List.mem_cons_of_mem op ho)
    · have hop := hmem op List.mem_cons_self
      have hop' := hstate op List.mem_cons_self
      have hlive := (hup op List.mem_cons_self).resolve_right hseen
      obtain ⟨hserves', -, hlog, -⟩ := hserves.applyOp fromStr hop hop' hseen
      have hholds : (m.applyOp fromStr op).1.Holds kind uid hlc prior := by
        rcases hserves.trash_applyOp fromStr hop hop' hlive with heq | heq
        · exact h.congr heq
        · exact (h.closeTrash op.kind uid).congr heq
      refine ih hholds hserves' (fun o ho => hmem o (List.mem_cons_of_mem op ho))
        (fun o ho => hstate o (List.mem_cons_of_mem op ho)) fun o ho => ?_
      exact (hup o (List.mem_cons_of_mem op ho)).imp id fun hin => (hlog _).mpr (Or.inr hin)

/-- **Upserts before the delete** keep it awaited. -/
theorem Awaits.applyAll {D : Op} {l : List Op} (h : m.Awaits uid S D)
    (hl : ∀ op ∈ l, op ∈ S ∧ op.kind = EntityKind.annotation ∧ op.deleted = false ∧
      op.opId ≠ D.opId) :
    (m.applyAll fromStr l).Awaits uid S D := by
  induction l generalizing m with
  | nil => exact h
  | cons op l ih =>
    obtain ⟨hop, hkind, hup, hid⟩ := hl op List.mem_cons_self
    exact ih (h.applyOp fromStr hop hkind hup hid) fun o ho => hl o (List.mem_cons_of_mem op ho)

end Apply

end Mirror

/-! ## Recovery -/

/-- The fields that `write_restore` publishes for a trash row. -/
def restoreFields (t : TrashRow) : Fields := canonicalFromSnapshot t.kind t.prior

/-- For every field that the operations `T` set, the state has a value that an operation of `S`
at least as new gave it, and no null in place of a value. -/
def Dominates (S T : Set Op) (state : Fields) : Prop :=
  ∀ field G, Newest T field G → ∃ X ∈ S, ∃ value, X.fields.lookup field = some value ∧
    state.lookup field = some value ∧ G.hlc ≤ X.hlc ∧
    (G.fields.lookup field ≠ some .null → value ≠ .null)

/-- A delete `D` of an annotation. The deleting device `m₀` has received the upserts `T` by `l₀`,
and the delete carries its full state. The receiver `m` knows nothing of the annotation yet. -/
structure Deletion (fromStr : String → Option Value) (m₀ m : Mirror) (uid : String) (S T : Set Op)
    (l₀ : List Op) (D : Op) : Prop where
  batch : Batch EntityKind.annotation uid (insert D S)
  upserts : ∀ op ∈ S, op.deleted = false
  delete : D.deleted = true
  known : T ⊆ S
  delivers : Delivers T l₀
  sender : m₀.Fresh EntityKind.annotation uid T
  prior : D.prior = some ((m₀.applyAll fromStr l₀).loadState EntityKind.annotation uid).1
  receiver : m.Fresh EntityKind.annotation uid (insert D S)
  noTrash : ∀ t ∈ m.trash, ¬(t.kind = EntityKind.annotation ∧ t.entityUid = uid)

section Recovery

variable (fromStr : String → Option Value) {m₀ m : Mirror} {uid : String} {S T : Set Op}
  {l₀ : List Op} {D : Op}

lemma Batch.mono {kind : EntityKind} (h : Batch kind uid S) (hT : T ⊆ S) : Batch kind uid T where
  finite := h.finite.subset hT
  accepted := fun op hop => h.accepted op (hT hop)
  kind_eq := fun op hop => h.kind_eq op (hT hop)
  uid_eq := fun op hop => h.uid_eq op (hT hop)
  opId_injOn := h.opId_injOn.mono hT
  hlc_injOn := h.hlc_injOn.mono hT

/-- A state that a canonical copy is taken of dominates if the state does. -/
lemma Dominates.canonical (hT : ∀ op ∈ T, op.Accepted ∧ op.kind = EntityKind.annotation)
    {state : Fields}
    (h : Dominates S T state) :
      Dominates S T (canonicalFromSnapshot EntityKind.annotation state) := by
  intro field G hG
  obtain ⟨X, hX, value, hvalue, hstate, hle, hnull⟩ := h field G hG
  obtain ⟨v, hv⟩ := hG.carries
  obtain ⟨haccepted, hkind⟩ := hT G hG.mem
  have hfield := haccepted.mem_fieldNames hv
  rw [hkind] at hfield
  refine ⟨X, hX, value, hvalue, ?_, hle, hnull⟩
  rw [lookup_canonicalFromSnapshot, if_pos hfield, hstate, Option.getD_some]

/-- The carried state dominates itself. -/
lemma Deletion.dominates_prior (h : Deletion fromStr m₀ m uid S T l₀ D) :
    Dominates S T ((m₀.applyAll fromStr l₀).loadState EntityKind.annotation uid).1 := by
  have hbatch : Batch EntityKind.annotation uid T :=
    h.batch.mono (h.known.trans (Set.subset_insert D S))
  intro field G hG
  obtain ⟨value, hvalue⟩ := hG.carries
  have haccepted := accepted_of_validateOp (hbatch.accepted G hG.mem)
  have hfield := haccepted.mem_fieldNames hvalue
  rw [hbatch.kind_eq G hG.mem] at hfield
  have hrow := (field_eq_newest fromStr rfl (by decide) hbatch
    (fun op hop => h.upserts op (h.known hop)) h.sender h.delivers field).1 G hG
  refine ⟨G, h.known hG.mem, value, hvalue, ?_, le_rfl, ?_⟩
  · unfold Mirror.loadState Mirror.loadStateTx
    rw [Table.lookup_ofKeys, if_pos hfield, hrow, hvalue]
    rfl
  · intro hne heq
    exact hne (heq ▸ hvalue)

/-- **Restore recovers what was deleted** exactly if, when the delete arrives, the receiver holds
no value of the annotation or a state that already dominates the deleted one. -/
theorem restore_recovers_iff (h : Deletion fromStr m₀ m uid S T l₀ D) {before rest : List Op}
    (hl : Delivers (insert D S) (before ++ D :: rest)) (hfirst : D ∉ before) :
    (∃ t ∈ (m.applyAll fromStr (before ++ D :: rest)).trash,
        Mirror.Stems EntityKind.annotation uid D.hlc t ∧
        Dominates S T t.prior ∧ Dominates S T (restoreFields t)) ↔
      ((m.applyAll fromStr before).loadStateTx EntityKind.annotation uid).allNull = true ∨
        Dominates S T ((m.applyAll fromStr before).loadStateTx EntityKind.annotation uid) := by
  have hT : ∀ op ∈ T, op.Accepted ∧ op.kind = EntityKind.annotation := fun op hop =>
    ⟨accepted_of_validateOp (h.batch.accepted op (Or.inr (h.known hop))),
      h.batch.kind_eq op (Or.inr (h.known hop))⟩
  have hD : D ∈ insert D S := Set.mem_insert D S
  have hpos := (accepted_of_validateOp (h.batch.accepted D hD)).zero_lt
  have hstart : m.Awaits uid (insert D S) D := by
    have hrow := h.receiver.row
    refine ⟨h.receiver.serves, ?_, ?_, h.receiver.unseen D hD, h.noTrash⟩
    · rw [hrow]
    · rw [hrow]
  have hbefore : ∀ op ∈ before, op ∈ insert D S ∧
      op.kind = EntityKind.annotation ∧ op.deleted = false ∧
      op.opId ≠ D.opId := by
    intro op hop
    have hin := (hl op).mp (List.mem_append_left _ hop)
    have hne : op ≠ D := fun heq => hfirst (heq ▸ hop)
    have hS := hin.resolve_left hne
    exact ⟨hin, h.batch.kind_eq op hin, h.upserts op hS, fun heq =>
      hne (h.batch.opId_injOn hin hD heq)⟩
  have hawaits := hstart.applyAll fromStr hbefore
  have hkill := hawaits.applyDelete fromStr hD (h.batch.kind_eq D hD) h.delete hpos h.prior
  have hstate : ∀ op ∈ insert D S, op.kind.IsState := by
    intro op hop
    rw [h.batch.kind_eq op hop]
    decide
  obtain ⟨hserves, -, hlog, -⟩ := hawaits.serves.applyOp fromStr hD (hstate D hD) hawaits.unseen
  have hrest : ∀ op ∈ rest, op ∈ insert D S := fun op hop =>
    (hl op).mp (List.mem_append_right _ (List.mem_cons_of_mem D hop))
  have hfinal := hkill.applyAll fromStr hserves hrest (fun op hop => hstate op (hrest op hop))
    fun op hop => by
      rcases hrest op hop with heq | hS
      · exact Or.inr ((hlog _).mpr (Or.inl (congrArg Op.opId heq)))
      · exact Or.inl (h.upserts op hS)
  have hsplit : m.applyAll fromStr (before ++ D :: rest) =
      ((m.applyAll fromStr before).applyOp fromStr D).1.applyAll fromStr rest := by
    unfold Mirror.applyAll
    rw [List.foldl_append, List.foldl_cons]
  rw [hsplit]
  generalize hown : (m.applyAll fromStr before).loadStateTx EntityKind.annotation
    uid = own at hfinal ⊢
  -- The prior in the trash is the receiver's own state, or the carried one.
  have hkept : (∃ t ∈ (((m.applyAll fromStr before).applyOp fromStr D).1.applyAll fromStr
        rest).trash, Mirror.Stems EntityKind.annotation uid D.hlc t ∧ Dominates S T t.prior ∧
        Dominates S T (restoreFields t)) ↔
      Dominates S T (Mirror.keptPrior own
        ((m₀.applyAll fromStr l₀).loadState EntityKind.annotation uid).1) := by
    constructor
    · rintro ⟨t, ht, hstems, hprior, -⟩
      rwa [hfinal.prior_eq t ht hstems] at hprior
    · intro hdom
      obtain ⟨t, ht, hstems⟩ := hfinal.exists_row
      rw [← hfinal.prior_eq t ht hstems] at hdom
      refine ⟨t, ht, hstems, hdom, ?_⟩
      unfold restoreFields
      rw [hstems.1]
      exact hdom.canonical hT
  rw [hkept]
  unfold Mirror.keptPrior
  cases hnull : own.allNull with
  | true =>
    rw [if_pos rfl]
    exact iff_of_true ((h.dominates_prior fromStr).canonical hT) (Or.inl rfl)
  | false =>
    rw [if_neg Bool.false_ne_true]
    exact ⟨Or.inr, fun hor => hor.resolve_left Bool.false_ne_true⟩

end Recovery

/-- The annotation gets a note. -/
def noteOp : Op :=
  sampleOp EntityKind.annotation 2000 "00000000000000000000000000000002" false false
    ((∅ : Fields).insert "note" (.str "kept?"))

/-- Its colour changes. -/
def colorOp : Op :=
  sampleOp EntityKind.annotation 3000 "00000000000000000000000000000003" false false
    ((∅ : Fields).insert "color" (.str "red"))

/-- The device that has both deletes it. -/
def deathOp : Op :=
  { sampleOp EntityKind.annotation 4000 "00000000000000000000000000000004" true false ∅ with
    prior := some ((({} : Mirror).applyAll (fun _ => none) [noteOp, colorOp]).loadState
      EntityKind.annotation "item:book").1 }

lemma deletion_sample : Deletion (fun _ => none) {} {} "item:book" {op | op ∈ [noteOp, colorOp]}
    {op | op ∈ [noteOp, colorOp]} [noteOp, colorOp] deathOp := by
  have hbatch : Batch EntityKind.annotation "item:book" {op | op ∈ [deathOp, noteOp, colorOp]} :=
    batch_of_list (by decide) (by decide) (by decide) (by decide) (by decide)
  have hset : insert deathOp {op | op ∈ [noteOp, colorOp]} =
      {op | op ∈ [deathOp, noteOp, colorOp]} := by
    ext op
    simp
  have hupserts : ∀ op ∈ [noteOp, colorOp], op.deleted = false := by decide
  have hsub : {op | op ∈ [noteOp, colorOp]} ⊆ {op | op ∈ [deathOp, noteOp, colorOp]} :=
    fun op hop => List.mem_cons_of_mem deathOp hop
  refine ⟨?_, hupserts, rfl, fun _ h => h, fun _ => Iff.rfl, ?_, rfl, ?_, fun _ h => by cases h⟩
  · rw [hset]
    exact hbatch
  · exact Mirror.fresh_empty (hbatch.mono hsub)
  · rw [hset]
    exact Mirror.fresh_empty hbatch

/-- The delete overtakes both edits, and the carried state is kept. -/
theorem restore_recovers_sample :
    let receive := ({} : Mirror).applyAll (fun _ => none)
    let S := {op | op ∈ [noteOp, colorOp]}
    Deletion (fun _ => none) {} {} "item:book" S S [noteOp, colorOp] deathOp ∧
      ((∃ t ∈ (receive [deathOp, noteOp, colorOp]).trash,
          Mirror.Stems EntityKind.annotation "item:book" deathOp.hlc t ∧ Dominates S S t.prior ∧
          Dominates S S (restoreFields t)) ↔
        ((receive []).loadStateTx EntityKind.annotation "item:book").allNull = true ∨
          Dominates S S ((receive []).loadStateTx EntityKind.annotation "item:book")) := by
  refine ⟨deletion_sample, ?_⟩
  have hdelivers : Delivers (insert deathOp {op | op ∈ [noteOp, colorOp]})
      ([] ++ deathOp :: [noteOp, colorOp]) := fun op => by simp
  have hrecovers := restore_recovers_iff (fun _ => none) deletion_sample hdelivers List.not_mem_nil
  exact hrecovers

/-- The delete overtakes the note only: the receiver keeps its colour and loses the note. -/
theorem restore_loses_note :
    Deletion (fun _ => none) {} {} "item:book" {op | op ∈ [noteOp, colorOp]}
        {op | op ∈ [noteOp, colorOp]} [noteOp, colorOp] deathOp ∧
      Delivers (insert deathOp {op | op ∈ [noteOp, colorOp]}) [colorOp, deathOp, noteOp] ∧
      (deathOp.prior.bind fun prior => prior.lookup "note") = some (.str "kept?") ∧
      ∀ t ∈ (({} : Mirror).applyAll (fun _ => none) [colorOp, deathOp, noteOp]).trash,
        t.prior.lookup "note" = some .null ∧ (restoreFields t).lookup "note" = some .null := by
  refine ⟨deletion_sample, ?_, by decide, by decide⟩
  intro op
  simp only [List.mem_cons, List.not_mem_nil, or_false, Set.mem_insert_iff, Set.mem_ofPred_eq]
  tauto

end TuxBooks
