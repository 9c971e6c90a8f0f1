import Mathlib.Data.Set.Finite.Lemmas
import TuxBooks.Sync.Tombstone

set_option relaxedAutoImplicit false
set_option autoImplicit false

/-!
# Convergence of field-mode entities

Annotations, metadata and collections merge per field. Without deletes such an entity is a
last-writer-wins register map. With deletes and restores two devices that have received the
same operations can disagree about the tombstone, and about fields; this file gives the exact
condition on the operations under which they agree.

## Main definitions

* `TuxBooks.Newest` — the newest operation of a set that carries a field.

## Main results

* `TuxBooks.field_eq_newest` — each field holds the newest write.
* `TuxBooks.deleted_converges_iff` — the tombstone flag converges exactly when no restore is
  above the clock that some delete shows.
* `TuxBooks.fields_converge_iff` — the fields converge exactly when, for every delete that can
  be undone, the newest operation on each field is a restore above it.
-/

namespace TuxBooks

open Delivery

/-- `op` is the newest operation of `S` that carries `field`. -/
structure Newest (S : Set Op) (field : String) (op : Op) : Prop where
  mem : op ∈ S
  carries : ∃ value, op.fields.lookup field = some value
  le : ∀ op' ∈ S, (∃ value, op'.fields.lookup field = some value) → op'.hlc ≤ op.hlc

lemma exists_newest {S : Set Op} (hS : S.Finite) {field : String} {op : Op} (hop : op ∈ S)
    (hcarries : ∃ value, op.fields.lookup field = some value) : ∃ G, Newest S field G := by
  obtain ⟨G, ⟨hmem, hG⟩, hmax⟩ := Set.exists_max_image
    {op ∈ S | ∃ value, op.fields.lookup field = some value} Op.hlc
    (hS.subset fun _ h => h.1) ⟨op, hop, hcarries⟩
  exact ⟨G, hmem, hG, fun op' hop' hc => hmax op' ⟨hop', hc⟩⟩

lemma Op.write_eq_some {op : Op} {field : String} {w : FieldRow} :
    op.write field = some w ↔ op.fields.lookup field = some w.value ∧ w.hlc = op.hlc := by
  unfold Op.write
  rw [Option.map_eq_some_iff]
  constructor
  · rintro ⟨value, hvalue, rfl⟩
    exact ⟨hvalue, rfl⟩
  · rintro ⟨hvalue, hhlc⟩
    exact ⟨w.value, hvalue, by rw [← hhlc]⟩

/-! ## Sample operations -/

/-- An annotation is created with the colour red. -/
def sampleCreate : Op :=
  sampleOp EntityKind.annotation 2 "22222222222222222222222222222222" false false
    ((∅ : Fields).insert "color" (.str "red"))

/-- The annotation is deleted. -/
def sampleDelete : Op :=
  sampleOp EntityKind.annotation 3 "33333333333333333333333333333333" true false ∅

/-- Its note is edited. -/
def sampleEdit : Op :=
  sampleOp EntityKind.annotation 4 "44444444444444444444444444444444" false false
    ((∅ : Fields).insert "note" (.str "kept?"))

/-- It is restored with the colour blue. -/
def sampleRestore : Op :=
  sampleOp EntityKind.annotation 5 "55555555555555555555555555555555" false true
    ((∅ : Fields).insert "color" (.str "blue"))

namespace EntityRow

/-! ## Fields under one step -/

section Step

variable {op : Op} {r : EntityRow}

/-- An upsert that takes effect writes each field register. -/
lemma lookup_step_of_admits (hmode : op.kind.mergeMode = .field) (hop : op.deleted = false)
    (h : r.Admits op) (bookUid : Option String) (f : String) :
    (r.step op bookUid).fields.lookup f =
      Lww.join FieldRow.hlc (r.fields.lookup f) (op.write f) := by
  generalize hstep : r.step op bookUid = r'
  have hout : StepOutcome op bookUid r r' := hstep ▸ stepOutcome op bookUid r
  cases hout with
  | ignored h => simp [hop] at h
  | killed h => simp [hop] at h
  | refused _ hno => exact absurd h hno
  | wrote => exact lookup_fields_put hmode _ f
  | revived => exact lookup_fields_put hmode _ f

/-- A delete and a refused upsert leave the fields. -/
lemma fields_step_of_not_admits (h : op.deleted = false → ¬r.Admits op)
    (bookUid : Option String) : (r.step op bookUid).fields = r.fields := by
  generalize hstep : r.step op bookUid = r'
  have hout : StepOutcome op bookUid r r' := hstep ▸ stepOutcome op bookUid r
  cases hout with
  | ignored => rfl
  | killed => rfl
  | refused => rfl
  | wrote hop hlive => exact absurd (Or.inl hlive) (h hop)
  | revived hop _ hadmits => exact absurd hadmits (h hop)

end Step

/-! ## Fields along a run -/

section Run

variable {S : Set Op} {f : String} {G : Op} {r : EntityRow}

/-- Upserts on a live row leave the newest of their writes and the old value. -/
lemma lookup_run_of_live (hr : r.deleted = false) {l : List Op}
    (hl : ∀ op ∈ l, op.kind.mergeMode = .field ∧ op.deleted = false) (canon : String → String)
    (f : String) :
    (r.run canon l).fields.lookup f =
      Lww.join FieldRow.hlc (r.fields.lookup f)
        ((l.filterMap (·.write f)).argmax FieldRow.hlc) := by
  induction l using List.reverseRecOn with
  | nil => rfl
  | append_singleton l op ih =>
    have hl' : ∀ o ∈ l, o.kind.mergeMode = .field ∧ o.deleted = false := fun o ho =>
      hl o (List.mem_append_left _ ho)
    have hop := hl op (List.mem_append_right _ List.mem_cons_self)
    have hlive := (sameFlags_run_of_live hr (fun o ho => (hl' o ho).2) canon).deleted.trans hr
    rw [run_append, run_cons, run_nil, lookup_step_of_admits hop.1 hop.2 (Or.inl hlive), ih hl',
      List.filterMap_append]
    cases hw : op.write f with
    | none => simp [hw]
    | some w =>
      have hlast : [op].filterMap (·.write f) = [w] := List.filterMap_cons_some hw
      rw [hlast, Lww.argmax_concat, Lww.join_put]
      rfl

/-- Upserts on a fresh row leave the write that is newer than all the others. -/
lemma lookup_run_of_newest_write {l : List Op}
    (hl : ∀ op ∈ l, op.kind.mergeMode = .field ∧ op.deleted = false) (canon : String → String)
    {w : FieldRow} (hG : G ∈ l) (hw : G.write f = some w)
    (hmax : ∀ op ∈ l, ∀ w', op.write f = some w' → w' ≠ w → w'.hlc < w.hlc) :
    (run canon {} l).fields.lookup f = some w := by
  rw [lookup_run_of_live rfl hl]
  have hargmax : (l.filterMap (·.write f)).argmax FieldRow.hlc = some w := by
    refine Lww.argmax_eq_some_of_forall_lt (List.mem_filterMap.mpr ⟨G, hG, hw⟩) fun w' hw' hne => ?_
    obtain ⟨op, hop, hopw⟩ := List.mem_filterMap.mp hw'
    exact hmax op hop w' hopw hne
  rw [hargmax]
  exact Lww.none_join _

/-- Every field of a row is what some operation of `S` writes. -/
def FieldsFrom (S : Set Op) (r : EntityRow) : Prop :=
  ∀ f w, r.fields.lookup f = some w → ∃ op ∈ S, op.write f = some w

lemma fieldsFrom_default (S : Set Op) : FieldsFrom S {} := fun f w h => by
  have hnone : ({} : EntityRow).fields.lookup f = none := rfl
  simp [hnone] at h

lemma FieldsFrom.step (h : FieldsFrom S r) {op : Op} (hop : op ∈ S)
    (hmode : op.kind.mergeMode = .field) (bookUid : Option String) :
    FieldsFrom S (r.step op bookUid) := by
  intro f w hw
  by_cases hadm : op.deleted = false ∧ r.Admits op
  · rw [lookup_step_of_admits hmode hadm.1 hadm.2] at hw
    cases hwrite : op.write f with
    | none => exact h f w (by rwa [hwrite] at hw)
    | some w' =>
      rw [hwrite] at hw
      cases hold : r.fields.lookup f with
      | none =>
        rw [hold, Lww.none_join] at hw
        exact ⟨op, hop, hwrite.trans hw⟩
      | some c =>
        rw [hold] at hw
        by_cases hlt : c.hlc < w'.hlc
        · exact ⟨op, hop, hwrite.trans ((Lww.put_of_lt hlt).symm.trans hw)⟩
        · exact h f w (hold.trans ((Lww.put_of_le (not_lt.mp hlt)).symm.trans hw))
  · rw [fields_step_of_not_admits fun hup hadmits => hadm ⟨hup, hadmits⟩] at hw
    exact h f w hw

lemma FieldsFrom.run (h : FieldsFrom S r) {l : List Op} (hl : ∀ op ∈ l, op ∈ S)
    (hmode : ∀ op ∈ S, op.kind.mergeMode = .field) (canon : String → String) :
    FieldsFrom S (r.run canon l) := by
  induction l generalizing r with
  | nil => exact h
  | cons op l ih =>
    have hop := hl op List.mem_cons_self
    exact ih (h.step hop (hmode op hop) _) fun o ho => hl o (List.mem_cons_of_mem _ ho)

/-- Once the newest operation on a field has written it, it stays. -/
lemma lookup_run_of_newest (hG : Newest S f G) (h : r.fields.lookup f = G.write f) {l : List Op}
    (hl : ∀ op ∈ l, op ∈ S) (hmode : ∀ op ∈ S, op.kind.mergeMode = .field)
    (canon : String → String) : (r.run canon l).fields.lookup f = G.write f := by
  induction l generalizing r with
  | nil => exact h
  | cons op l ih =>
    have hop := hl op List.mem_cons_self
    rw [run_cons]
    refine ih ?_ fun o ho => hl o (List.mem_cons_of_mem _ ho)
    by_cases hadm : op.deleted = false ∧ r.Admits op
    · rw [lookup_step_of_admits (hmode op hop) hadm.1 hadm.2, h]
      cases hwrite : op.write f with
      | none => rfl
      | some w =>
        obtain ⟨value, hvalue⟩ := hG.carries
        have hGw : G.write f = some ⟨value, G.hlc⟩ := Op.write_eq_some.mpr ⟨hvalue, rfl⟩
        obtain ⟨hw, hhlc⟩ := Op.write_eq_some.mp hwrite
        rw [hGw]
        exact Lww.put_of_le (hhlc ▸ hG.le op hop ⟨w.value, hw⟩)
    · rw [fields_step_of_not_admits fun hup hadmits => hadm ⟨hup, hadmits⟩, h]

/-- The newest operation on a field writes it whenever it takes effect. -/
lemma lookup_step_of_newest (hG : Newest S f G) (hinj : Set.InjOn Op.hlc S)
    (hr : FieldsFrom {op ∈ S | op ≠ G} r) (hmode : G.kind.mergeMode = .field)
    (hup : G.deleted = false) (hadm : r.Admits G) (bookUid : Option String) :
    (r.step G bookUid).fields.lookup f = G.write f := by
  obtain ⟨value, hvalue⟩ := hG.carries
  have hGw : G.write f = some ⟨value, G.hlc⟩ := Op.write_eq_some.mpr ⟨hvalue, rfl⟩
  rw [lookup_step_of_admits hmode hup hadm, hGw]
  cases hold : r.fields.lookup f with
  | none => rfl
  | some c =>
    obtain ⟨op, ⟨hop, hne⟩, hwrite⟩ := hr f c hold
    obtain ⟨hc, hhlc⟩ := Op.write_eq_some.mp hwrite
    have hle : c.hlc ≤ G.hlc := hhlc ▸ hG.le op hop ⟨c.value, hc⟩
    have hlt : c.hlc < G.hlc := hle.lt_of_ne fun heq =>
      hne (hinj hop hG.mem (hhlc ▸ heq))
    exact Lww.put_of_lt hlt

/-- No field of the row carries the clock of `G`. -/
lemma FieldsFrom.lookup_ne_write (h : FieldsFrom {op ∈ S | op ≠ G} r) (hG : Newest S f G)
    (hinj : Set.InjOn Op.hlc S) : r.fields.lookup f ≠ G.write f := by
  obtain ⟨value, hvalue⟩ := hG.carries
  have hGw : G.write f = some ⟨value, G.hlc⟩ := Op.write_eq_some.mpr ⟨hvalue, rfl⟩
  intro heq
  obtain ⟨op, ⟨hop, hne⟩, hwrite⟩ := h f _ (heq.trans hGw)
  exact hne (hinj hop hG.mem (Op.write_eq_some.mp hwrite).2.symm)

end Run

end EntityRow

/-! ## Convergence -/

section Converge

variable (fromStr : String → Option Value) {kind : EntityKind} {uid : String} {S : Set Op}
  {m : Mirror}

/-- **Field-mode merge is a last-writer-wins register map.** Whatever the order and the
repetitions in which upserts on one entity are received, each field ends with the value and the
clock of the newest operation that carries it, and a field that no operation carries is absent.
-/
theorem field_eq_newest (hmode : kind.mergeMode = .field) (hstate : kind.IsState)
    (hS : Batch kind uid S) (hup : ∀ op ∈ S, op.deleted = false) (hm : m.Fresh kind uid S)
    {l : List Op} (hl : Delivers S l) (field : String) :
    (∀ op, Newest S field op →
      ((m.applyAll fromStr l).row kind uid).fields.lookup field =
        (op.fields.lookup field).map fun value => ⟨value, op.hlc⟩) ∧
    ((∀ op ∈ S, op.fields.lookup field = none) →
      ((m.applyAll fromStr l).row kind uid).fields.lookup field = none) := by
  obtain ⟨o, ho, hrow⟩ := exists_order fromStr hS hstate hm hl
  have hmem : ∀ op ∈ o, op ∈ S := fun op h => (ho.delivers op).mp h
  have hlive : ∀ op ∈ o, op.kind.mergeMode = .field ∧ op.deleted = false := fun op h =>
    ⟨hS.kind_eq op (hmem op h) ▸ hmode, hup op (hmem op h)⟩
  rw [hrow]
  constructor
  · intro G hG
    obtain ⟨value, hvalue⟩ := hG.carries
    have hwrite : G.write field = some ⟨value, G.hlc⟩ := Op.write_eq_some.mpr ⟨hvalue, rfl⟩
    rw [hvalue]
    refine EntityRow.lookup_run_of_newest_write hlive _ ((ho.delivers G).mpr hG.mem) hwrite
      fun op hop w hopw hne => ?_
    obtain ⟨hv, hhlc⟩ := Op.write_eq_some.mp hopw
    have hle : w.hlc ≤ G.hlc := hhlc ▸ hG.le op (hmem op hop) ⟨w.value, hv⟩
    refine hle.lt_of_ne fun heq => hne ?_
    have hop' : op = G := hS.hlc_injOn (hmem op hop) hG.mem (hhlc ▸ heq)
    rw [hop', hwrite] at hopw
    exact (Option.some_inj.mp hopw).symm
  · intro hnone
    have hwrites : o.filterMap (·.write field) = [] := by
      rw [List.filterMap_eq_nil_iff]
      intro op hop
      rw [Op.write, hnone op (hmem op hop)]
      rfl
    rw [EntityRow.lookup_run_of_live rfl hlive, hwrites]
    rfl

/-- Two devices that receive a colour and its change in either order hold the newer one. -/
theorem field_eq_newest_sample :
    ((({} : Mirror).applyAll (fun _ => none) [sampleRestore, sampleCreate, sampleRestore]).row
      EntityKind.annotation "item:book").fields.lookup "color" =
        some ⟨.str "blue", sampleRestore.hlc⟩ := by
  have hbatch : Batch EntityKind.annotation "item:book" {op | op ∈ [sampleCreate, sampleRestore]} :=
    batch_of_list (by decide) (by decide) (by decide) (by decide) (by decide)
  have hnewest : Newest {op | op ∈ [sampleCreate, sampleRestore]} "color" sampleRestore :=
    ⟨by simp, ⟨.str "blue", by decide⟩, fun op hop _ => by
      have hle : ∀ op ∈ [sampleCreate, sampleRestore], op.hlc ≤ sampleRestore.hlc := by decide
      exact hle op hop⟩
  have hfields := (field_eq_newest (fun _ => none) rfl (by decide) hbatch
    (show ∀ op ∈ [sampleCreate, sampleRestore], op.deleted = false by decide)
    (Mirror.fresh_empty hbatch) (l := [sampleRestore, sampleCreate, sampleRestore])
    (delivers_of_subset (by simp) (by simp)) "color").1 sampleRestore hnewest
  rw [hfields]
  decide

/-- A field-mode run over upserts and then deletes ends deleted. -/
lemma deleted_of_deletes_last (hS : Batch kind uid S) (hmode : kind.mergeMode = .field)
    {D : Op} (hD : D ∈ S) (hdel : D.deleted = true) {lu ld : List Op}
    (hlu : ∀ op ∈ lu, op.deleted = false) (hld : ∀ op ∈ ld, op.deleted = true)
    (canon : String → String) :
    (EntityRow.run canon {} (lu ++ D :: ld)).deleted = true := by
  have hflags := EntityRow.sameFlags_run_of_live (r := {}) rfl hlu canon
  have hold : ∀ r : EntityRow, ¬(D.kind.mergeMode = .entity ∧ D.hlc < r.hlc) := fun r h => by
    simp [hS.kind_eq D hD, hmode] at h
  rw [EntityRow.run_append, EntityRow.run_cons]
  have hdead := EntityRow.deleted_step_delete hflags.restoredClock hdel (hS.zero_lt hD) (hold _)
    (D.bookUid.map canon)
  exact EntityRow.deleted_run_deletes hdead hld canon

/-- A field-mode batch with a delete has an order that ends deleted. -/
lemma exists_order_deleted (hS : Batch kind uid S) (hmode : kind.mergeMode = .field)
    {D : Op} (hD : D ∈ S) (hdel : D.deleted = true) (canon : String → String) :
    ∃ o, Order S o ∧ (EntityRow.run canon {} o).deleted = true := by
  obtain ⟨lu, hlu⟩ := exists_order_of_finite (S := {op ∈ S | op.deleted = false})
    (hS.finite.subset fun _ h => h.1)
  obtain ⟨ld, hld⟩ := exists_order_of_finite (S := {op ∈ S | op.deleted = true ∧ op ≠ D})
    (hS.finite.subset fun _ h => h.1)
  have hord := hlu.append ((order_singleton D).append hld ?_) ?_
  · refine ⟨lu ++ D :: ld, ⟨hord.nodup, fun op => (hord.delivers op).trans ?_⟩,
      deleted_of_deletes_last hS hmode hD hdel (fun op h => ((hlu.delivers op).mp h).2)
        (fun op h => ((hld.delivers op).mp h).2.1) canon⟩
    constructor
    · rintro (hop | rfl | hop)
      · exact hop.1
      · exact hD
      · exact hop.1
    · intro hop
      by_cases heq : op = D
      · exact Or.inr (Or.inl heq)
      · cases hd : op.deleted with
        | false => exact Or.inl ⟨hop, hd⟩
        | true => exact Or.inr (Or.inr ⟨hop, hd, heq⟩)
  · rintro op rfl hop
    exact hop.2.2 rfl
  · rintro op hop (rfl | hop')
    · simp [hdel] at hop
    · simp [hop'.2.1] at hop

/-- Without a revivable delete the flag of a field-mode row says whether a delete arrived. -/
lemma deleted_run_of_not_revives (hS : Batch kind uid S) (hmode : kind.mergeMode = .field)
    (hno : ∀ R D, ¬Revives S R D) {o : List Op} (ho : Order S o) (canon : String → String) :
    (EntityRow.run canon {} o).deleted = true ↔ ∃ D ∈ S, D.deleted = true := by
  have hmem : ∀ op ∈ o, op ∈ S := fun op h => (ho.delivers op).mp h
  constructor
  · intro hd
    obtain ⟨D, hD, hdel, -⟩ := ((EntityRow.sound_default S).run hmem hS.wall canon).killed hd
    exact ⟨D, hD, hdel⟩
  · rintro ⟨D, hD, hdel⟩
    obtain ⟨o₁, o₂, rfl⟩ := List.append_of_mem ((ho.delivers D).mpr hD)
    have hmem₁ : ∀ op ∈ o₁, op ∈ S := fun op h => hmem op (List.mem_append_left _ h)
    have hmem₂ : ∀ op ∈ o₂, op ∈ S := fun op h =>
      hmem op (List.mem_append_right _ (List.mem_cons_of_mem _ h))
    have hsound := (EntityRow.sound_default S).run hmem₁ hS.wall canon
    have hcalm := (EntityRow.sound_default S).restoredClock_run rfl hS.wall hno hmem₁ canon
    have hdead := EntityRow.deleted_step_delete hcalm hdel (hS.zero_lt hD)
      (fun h => by simp [hS.kind_eq D hD, hmode] at h) (D.bookUid.map canon)
    rw [EntityRow.run_append, EntityRow.run_cons]
    exact (((hsound.step hD hS.wall _).sealed hdead hno).run hmem₂ canon).deleted

/-- **The tombstone flag converges exactly when no restore is above the clock that some delete
shows.** With such a pair, the delete before the restore ends live, and the restore before the
delete ends deleted: a restore on a live row leaves no clock for the delete to compare with. -/
theorem deleted_converges_iff (hmode : kind.mergeMode = .field) (hstate : kind.IsState)
    (hS : Batch kind uid S) (hm : m.Fresh kind uid S) :
    (∀ l l', Delivers S l → Delivers S l' →
      ((m.applyAll fromStr l).row kind uid).deleted =
        ((m.applyAll fromStr l').row kind uid).deleted) ↔
    ∀ D ∈ S, ∀ R ∈ S, D.deleted = true → R.restore = true → R.hlc ≤ D.hlc.seen := by
  constructor
  · intro hconv D hD R hR hdel hrestore
    by_contra hlt
    have hrev : Revives S R D := ⟨hR, hD, hrestore, hdel, not_le.mp hlt⟩
    obtain ⟨o, ho, hdead⟩ := exists_order_deleted hS hmode hD hdel m.canonicalBookUid
    obtain ⟨ld, lu, ho', hld, hlu⟩ := exists_order_of_revives hS hrev order_nil
      (Set.empty_subset S) (by simp)
    have hlive := live_of_revives hS hrev hld hlu m.canonicalBookUid
    have heq := hconv _ _ ho.delivers ho'.delivers
    rw [row_of_order fromStr hS hstate hm ho, row_of_order fromStr hS hstate hm ho', hdead] at heq
    exact absurd (heq.trans hlive) (by simp)
  · intro hcond l l' hl hl'
    have hno : ∀ R D, ¬Revives S R D := fun R D h =>
      (hcond D h.delete_mem R h.restore_mem h.deleted h.restore).not_gt h.lt
    obtain ⟨o, ho, hrow⟩ := exists_order fromStr hS hstate hm hl
    obtain ⟨o', ho', hrow'⟩ := exists_order fromStr hS hstate hm hl'
    rw [hrow, hrow', Bool.eq_iff_iff, deleted_run_of_not_revives hS hmode hno ho,
      deleted_run_of_not_revives hS hmode hno ho']

/-- A delete that no restore follows is agreed on. -/
theorem deleted_converges_sample :
    ((({} : Mirror).applyAll (fun _ => none) [sampleCreate, sampleDelete]).row EntityKind.annotation
      "item:book").deleted =
    ((({} : Mirror).applyAll (fun _ => none) [sampleDelete, sampleCreate, sampleDelete]).row
      EntityKind.annotation "item:book").deleted := by
  have hbatch : Batch EntityKind.annotation "item:book" {op | op ∈ [sampleCreate, sampleDelete]} :=
    batch_of_list (by decide) (by decide) (by decide) (by decide) (by decide)
  have hcond : ∀ D ∈ [sampleCreate, sampleDelete], ∀ R ∈ [sampleCreate, sampleDelete],
      D.deleted = true → R.restore = true → R.hlc ≤ D.hlc.seen := by decide
  exact (deleted_converges_iff (fun _ => none) rfl (by decide) hbatch
    (Mirror.fresh_empty hbatch)).mpr hcond _ _ (fun _ => Iff.rfl)
      (delivers_of_subset (by simp) (by simp))

/-- The tombstone of one delete and one newer restore depends on the order of arrival. -/
theorem deleted_diverges :
    Batch EntityKind.annotation "item:book" {op | op ∈ [sampleDelete, sampleRestore]} ∧
    Delivers {op | op ∈ [sampleDelete, sampleRestore]} [sampleDelete, sampleRestore] ∧
    Delivers {op | op ∈ [sampleDelete, sampleRestore]} [sampleRestore, sampleDelete] ∧
    ((({} : Mirror).applyAll (fun _ => none) [sampleDelete, sampleRestore]).row
      EntityKind.annotation
      "item:book").deleted = false ∧
    ((({} : Mirror).applyAll (fun _ => none) [sampleRestore, sampleDelete]).row
      EntityKind.annotation
      "item:book").deleted = true :=
  ⟨batch_of_list (by decide) (by decide) (by decide) (by decide) (by decide),
    fun _ => Iff.rfl, delivers_of_subset (by simp) (by simp), by decide, by decide⟩

/-! ## Convergence of the fields -/

lemma Newest.upsert (hS : Batch kind uid S) {f : String} {G : Op} (hG : Newest S f G) :
    G.deleted = false := by
  refine Bool.eq_false_iff.mpr fun hd => ?_
  obtain ⟨value, hvalue⟩ := hG.carries
  have hnone := (accepted_of_validateOp (hS.accepted G hG.mem)).lookup_fields_of_deleted hd f
  simp [hvalue] at hnone

/-- In a run that ends live the newest operation on a field takes effect, when it is above
every delete that can be undone. -/
lemma lookup_run_of_live_end (hS : Batch kind uid S) (hmode : kind.mergeMode = .field)
    {f : String} {G : Op} (hG : Newest S f G)
    (habove : ∀ D, (∃ R, Revives S R D) → G.restore = true ∧ D.hlc.seen < G.hlc)
    {o : List Op} (ho : Order S o) (canon : String → String)
    (hlive : (EntityRow.run canon {} o).deleted = false) :
    (EntityRow.run canon {} o).fields.lookup f = G.write f := by
  have hmem : ∀ op ∈ o, op ∈ S := fun op h => (ho.delivers op).mp h
  have hmodes : ∀ op ∈ S, op.kind.mergeMode = .field := fun op h => hS.kind_eq op h ▸ hmode
  obtain ⟨o₁, o₂, rfl⟩ := List.append_of_mem ((ho.delivers G).mpr hG.mem)
  have hnot : G ∉ o₁ := fun h =>
    (List.nodup_append.mp ho.nodup).2.2 G h G List.mem_cons_self rfl
  have hmem₁ : ∀ op ∈ o₁, op ∈ {op ∈ S | op ≠ G} := fun op h =>
    ⟨hmem op (List.mem_append_left _ h), fun heq => hnot (heq ▸ h)⟩
  have hmem₂ : ∀ op ∈ o₂, op ∈ S := fun op h =>
    hmem op (List.mem_append_right _ (List.mem_cons_of_mem _ h))
  have hsound := (EntityRow.sound_default S).run (fun op h => (hmem₁ op h).1) hS.wall canon
  have hfrom := (EntityRow.fieldsFrom_default _).run hmem₁ (fun op h => hmodes op h.1) canon
  rw [EntityRow.run_append, EntityRow.run_cons] at hlive ⊢
  generalize EntityRow.run canon {} o₁ = r at hsound hfrom hlive ⊢
  have hadmits : r.Admits G := by
    cases hdel : r.deleted with
    | false => exact Or.inl hdel
    | true =>
      obtain ⟨D, hD, hDdel, hclock⟩ := hsound.killed hdel
      have hrev : ∃ R, Revives S R D := by
        by_contra hno
        -- otherwise the tombstone is sealed and the run cannot end live
        have hsealed := EntityRow.sealed_of_not_revives hD hDdel hdel hclock fun R hR =>
          hno ⟨R, hR⟩
        have hdead := ((hsealed.step hG.mem (G.bookUid.map canon)).2.run hmem₂
          canon).deleted
        rw [hlive] at hdead
        exact Bool.false_ne_true hdead
      obtain ⟨hrestore, hlt⟩ := habove D hrev
      have hord := hsound.ordered hdel
      rw [EntityRow.deleteClock_of_some hclock] at hord
      refine Or.inr ⟨hrestore, hord.trans hlt.le, ?_⟩
      rwa [EntityRow.deleteClock_of_some hclock]
  exact EntityRow.lookup_run_of_newest hG
    (EntityRow.lookup_step_of_newest hG hS.hlc_injOn hfrom (hmodes G hG.mem) (hG.upsert hS)
      hadmits _) hmem₂ hmodes canon

/-- A field that the batch does not carry is absent in every run. -/
lemma lookup_run_of_not_carried (hS : Batch kind uid S) (hmode : kind.mergeMode = .field)
    {f : String} (hnone : ¬∃ op ∈ S, ∃ value, op.fields.lookup f = some value) {o : List Op}
    (ho : Order S o) (canon : String → String) :
    (EntityRow.run canon {} o).fields.lookup f = none := by
  have hfrom := (EntityRow.fieldsFrom_default S).run (fun op h => (ho.delivers op).mp h)
    (fun op h => hS.kind_eq op h ▸ hmode) canon
  rw [Option.eq_none_iff_forall_not_mem]
  intro w hw
  obtain ⟨op, hop, hwrite⟩ := hfrom f w hw
  exact hnone ⟨op, hop, w.value, (Op.write_eq_some.mp hwrite).1⟩

/-- The order in which `G` is received before the delete `D` and so takes effect. -/
lemma exists_order_newest_kept (hS : Batch kind uid S) (hmode : kind.mergeMode = .field)
    {f : String} {G R D : Op} (hG : Newest S f G) (hrev : Revives S R D) (hne : G ≠ R)
    (canon : String → String) :
    ∃ o, Order S o ∧ (EntityRow.run canon {} o).deleted = false ∧
      (EntityRow.run canon {} o).fields.lookup f = G.write f := by
  have hupR := hrev.upsert hS
  have hmodes : ∀ op ∈ S, op.kind.mergeMode = .field := fun op h => hS.kind_eq op h ▸ hmode
  obtain ⟨lu, hlu⟩ := exists_order_of_finite
    (S := {op ∈ S | op.deleted = false ∧ op ≠ R}) (hS.finite.subset fun _ h => h.1)
  obtain ⟨ld, hld⟩ := exists_order_of_finite
    (S := {op ∈ S | op.deleted = true ∧ op ≠ D}) (hS.finite.subset fun _ h => h.1)
  have hlu' : ∀ op ∈ lu, op ∈ S ∧ op.deleted = false := fun op h =>
    ⟨((hlu.delivers op).mp h).1, ((hlu.delivers op).mp h).2.1⟩
  have hld' : ∀ op ∈ ld, op ∈ S ∧ op.deleted = true := fun op h =>
    ⟨((hld.delivers op).mp h).1, ((hld.delivers op).mp h).2.1⟩
  have hord := hlu.append ((order_singleton D).append (hld.append (order_singleton R) ?_) ?_) ?_
  · refine ⟨lu ++ D :: (ld ++ [R]), ⟨hord.nodup, fun op => (hord.delivers op).trans ?_⟩, ?_, ?_⟩
    · constructor
      · rintro (hop | rfl | hop | rfl)
        · exact hop.1
        · exact hrev.delete_mem
        · exact hop.1
        · exact hrev.restore_mem
      · intro hop
        cases hd : op.deleted with
        | false =>
          by_cases heq : op = R
          · exact Or.inr (Or.inr (Or.inr heq))
          · exact Or.inl ⟨hop, hd, heq⟩
        | true =>
          by_cases heq : op = D
          · exact Or.inr (Or.inl heq)
          · exact Or.inr (Or.inr (Or.inl ⟨hop, hd, heq⟩))
    · have hflags := EntityRow.sameFlags_run_of_live (r := {}) rfl (fun op h => (hlu' op h).2)
        canon
      have hold : ∀ r : EntityRow, ¬(D.kind.mergeMode = .entity ∧ D.hlc < r.hlc) := fun r h => by
        simp [hmodes D hrev.delete_mem] at h
      have hkilled := (EntityRow.killedBy_step hflags.deleted hflags.restoredClock hrev.deleted
        (hS.zero_lt hrev.delete_mem) (hold _) (D.bookUid.map canon)).run_deletes
          (fun op h => (hld' op h).2) canon
      rw [EntityRow.run_append, EntityRow.run_cons, EntityRow.run_append, EntityRow.run_cons,
        EntityRow.run_nil, hkilled.step_restore hrev.restore hupR
          (hS.zero_lt hrev.restore_mem) hrev.lt]
      exact (EntityRow.sameFlags_put R _).deleted
    · have hGlu : G ∈ lu := (hlu.delivers G).mpr ⟨hG.mem, hG.upsert hS, hne⟩
      obtain ⟨l₁, l₂, rfl⟩ := List.append_of_mem hGlu
      have hnot : G ∉ l₁ := fun h =>
        (List.nodup_append.mp hlu.nodup).2.2 G h G List.mem_cons_self rfl
      have hmem₁ : ∀ op ∈ l₁, op ∈ {op ∈ S | op ≠ G} := fun op h =>
        ⟨(hlu' op (List.mem_append_left _ h)).1, fun heq => hnot (heq ▸ h)⟩
      have hflags := EntityRow.sameFlags_run_of_live (r := {}) rfl
        (fun op h => (hlu' op (List.mem_append_left _ h)).2) canon
      have hfrom := (EntityRow.fieldsFrom_default _).run hmem₁ (fun op h => hmodes op h.1) canon
      rw [List.append_assoc, List.cons_append, EntityRow.run_append, EntityRow.run_cons]
      refine EntityRow.lookup_run_of_newest hG
        (EntityRow.lookup_step_of_newest hG hS.hlc_injOn hfrom (hmodes G hG.mem) (hG.upsert hS)
          (Or.inl hflags.deleted) _) ?_ hmodes canon
      intro op hop
      rcases List.mem_append.mp hop with h | h
      · exact (hlu' op (List.mem_append_right _ (List.mem_cons_of_mem _ h))).1
      · rcases List.mem_cons.mp h with rfl | h
        · exact hrev.delete_mem
        · rcases List.mem_append.mp h with h | h
          · exact (hld' op h).1
          · exact List.mem_singleton.mp h ▸ hrev.restore_mem
  · rintro op hop rfl
    simp [hupR] at hop
  · rintro op rfl (hop | rfl)
    · exact hop.2.2 rfl
    · simpa [hupR] using hrev.deleted
  · rintro op hop (rfl | hop' | rfl)
    · simp [hrev.deleted] at hop
    · simp [hop'.2.1] at hop
    · exact hop.2.2 rfl

/-- The order in which `G` is received on the tombstone of `D`, which refuses it. -/
lemma exists_order_newest_lost (hS : Batch kind uid S) (hmode : kind.mergeMode = .field)
    {f : String} {G R D : Op} (hG : Newest S f G) (hrev : Revives S R D) (hne : G ≠ R)
    (hbelow : ¬(G.restore = true ∧ D.hlc.seen < G.hlc)) (canon : String → String) :
    ∃ o, Order S o ∧ (EntityRow.run canon {} o).deleted = false ∧
      (EntityRow.run canon {} o).fields.lookup f ≠ G.write f := by
  have hupG := hG.upsert hS
  have hmodes : ∀ op ∈ S, op.kind.mergeMode = .field := fun op h => hS.kind_eq op h ▸ hmode
  obtain ⟨ld, lu, ho, hld, hlu⟩ := exists_order_of_revives hS hrev (order_singleton G)
    (by rintro op rfl; exact hG.mem) (by rintro op rfl; exact ⟨hupG, hne⟩)
  have hmem : ∀ op ∈ D :: (ld ++ ([G] ++ lu ++ [R])), op ∈ S := fun op h =>
    (ho.delivers op).mp h
  have hups : ∀ op ∈ [G] ++ lu, op.deleted = false := fun op hop => by
    rcases List.mem_append.mp hop with h | h
    · exact List.mem_singleton.mp h ▸ hupG
    · exact hlu op h
  refine ⟨_, ho, live_of_revives hS hrev hld hups canon, ?_⟩
  · have hnodup : (G :: (D :: ld ++ (lu ++ [R]))).Nodup := by
      refine List.Perm.nodup ?_ ho.nodup
      have hmid : (D :: ld ++ G :: (lu ++ [R])).Perm (G :: (D :: ld ++ (lu ++ [R]))) :=
        List.perm_middle
      simpa using hmid
    have hnot : ∀ op ∈ D :: ld ++ (lu ++ [R]), op ∈ {op ∈ S | op ≠ G} := by
      intro op hop
      refine ⟨hmem op ?_, fun heq => (List.nodup_cons.mp hnodup).1 (heq ▸ hop)⟩
      simp only [List.mem_cons, List.mem_append] at hop ⊢
      tauto
    have hpos := hS.zero_lt hrev.delete_mem
    have hkilled := (EntityRow.killedBy_step (r := {}) rfl rfl hrev.deleted hpos
      (fun hold => hold.2.not_gt hpos) (D.bookUid.map canon)).run_deletes hld canon
    have hrefuses : ¬EntityRow.Admits
        (EntityRow.run canon (EntityRow.step D (D.bookUid.map canon) {}) ld) G := by
      rintro (hl | ⟨hrestore, -, hlt⟩)
      · simp [hkilled.deleted] at hl
      · rw [EntityRow.deleteClock_of_some hkilled.deletedClock] at hlt
        exact hbelow ⟨hrestore, hlt⟩
    have hfrom : EntityRow.FieldsFrom {op ∈ S | op ≠ G}
        (EntityRow.run canon (EntityRow.step D (D.bookUid.map canon) {}) ld) := by
      rw [← EntityRow.run_cons]
      exact (EntityRow.fieldsFrom_default _).run
        (fun op h => hnot op (List.mem_append_left _ h)) (fun op h => hmodes op h.1) canon
    have hfrom' : EntityRow.FieldsFrom {op ∈ S | op ≠ G} (EntityRow.step G (G.bookUid.map canon)
        (EntityRow.run canon (EntityRow.step D (D.bookUid.map canon) {}) ld)) := by
      intro f w hw
      rw [EntityRow.fields_step_of_not_admits fun _ => hrefuses] at hw
      exact hfrom f w hw
    have hend := hfrom'.run (l := lu ++ [R])
      (fun op h => hnot op (List.mem_append_right _ h)) (fun op h => hmodes op h.1) canon
    have hrun : EntityRow.run canon {} (D :: (ld ++ ([G] ++ lu ++ [R]))) =
        EntityRow.run canon (EntityRow.step G (G.bookUid.map canon)
          (EntityRow.run canon (EntityRow.step D (D.bookUid.map canon) {}) ld)) (lu ++ [R]) := by
      rw [EntityRow.run_cons, EntityRow.run_append, List.append_assoc, List.singleton_append,
        EntityRow.run_cons]
    rw [hrun]
    exact hend.lookup_ne_write hG hS.hlc_injOn

/-- **The fields converge exactly when, for every delete that can be undone, the newest
operation on each field is a restore above it.** Otherwise that operation takes effect when it
is received before the delete, and is refused by the tombstone when it is received after it. -/
theorem fields_converge_iff (hmode : kind.mergeMode = .field) (hstate : kind.IsState)
    (hS : Batch kind uid S) (hm : m.Fresh kind uid S) :
    (∀ l l', Delivers S l → Delivers S l' →
      ((m.applyAll fromStr l).row kind uid).deleted = false →
      ((m.applyAll fromStr l').row kind uid).deleted = false →
      ∀ f, ((m.applyAll fromStr l).row kind uid).fields.lookup f =
        ((m.applyAll fromStr l').row kind uid).fields.lookup f) ↔
    ∀ D ∈ S, D.deleted = true → (∃ R ∈ S, R.restore = true ∧ D.hlc.seen < R.hlc) →
      ∀ f G, Newest S f G → G.restore = true ∧ D.hlc.seen < G.hlc := by
  constructor
  · rintro hconv D hD hdel ⟨R, hR, hrestore, hlt⟩ f G hG
    by_contra hbelow
    have hrev : Revives S R D := ⟨hR, hD, hrestore, hdel, hlt⟩
    have hne : G ≠ R := by
      rintro rfl
      exact hbelow ⟨hrestore, hlt⟩
    obtain ⟨o, ho, hlive, hkept⟩ := exists_order_newest_kept hS hmode hG hrev hne
      m.canonicalBookUid
    obtain ⟨o', ho', hlive', hlost⟩ := exists_order_newest_lost hS hmode hG hrev hne hbelow
      m.canonicalBookUid
    have heq := hconv o o' ho.delivers ho'.delivers
    rw [row_of_order fromStr hS hstate hm ho, row_of_order fromStr hS hstate hm ho'] at heq
    exact hlost ((heq hlive hlive' f).symm.trans hkept)
  · intro hcond l l' hl hl' hlive hlive' f
    obtain ⟨o, ho, hrow⟩ := exists_order fromStr hS hstate hm hl
    obtain ⟨o', ho', hrow'⟩ := exists_order fromStr hS hstate hm hl'
    rw [hrow] at hlive ⊢
    rw [hrow'] at hlive' ⊢
    by_cases hcarried : ∃ op ∈ S, ∃ value, op.fields.lookup f = some value
    · obtain ⟨op, hop, hvalue⟩ := hcarried
      obtain ⟨G, hG⟩ := exists_newest hS.finite hop hvalue
      have habove : ∀ D, (∃ R, Revives S R D) → G.restore = true ∧ D.hlc.seen < G.hlc := by
        rintro D ⟨R, hR⟩
        exact hcond D hR.delete_mem hR.deleted ⟨R, hR.restore_mem, hR.restore, hR.lt⟩ f G hG
      rw [lookup_run_of_live_end hS hmode hG habove ho _ hlive,
        lookup_run_of_live_end hS hmode hG habove ho' _ hlive']
    · rw [lookup_run_of_not_carried hS hmode hcarried ho,
        lookup_run_of_not_carried hS hmode hcarried ho']

/-- A restore that carries the field anew is agreed on. -/
theorem fields_converge_sample :
    ((({} : Mirror).applyAll (fun _ => none) [sampleCreate, sampleDelete, sampleRestore]).row
      EntityKind.annotation "item:book").fields.lookup "color" =
    ((({} : Mirror).applyAll (fun _ => none) [sampleDelete, sampleCreate, sampleRestore]).row
      EntityKind.annotation "item:book").fields.lookup "color" := by
  have hbatch : Batch EntityKind.annotation "item:book"
      {op | op ∈ [sampleCreate, sampleDelete, sampleRestore]} :=
    batch_of_list (by decide) (by decide) (by decide) (by decide) (by decide)
  have hnewest : ∀ f G, Newest {op | op ∈ [sampleCreate, sampleDelete, sampleRestore]} f G →
      G = sampleRestore := by
    rintro f G ⟨hmem, ⟨value, hvalue⟩, hle⟩
    simp only [Set.mem_ofPred_eq, List.mem_cons, List.not_mem_nil, or_false] at hmem
    rcases hmem with rfl | rfl | rfl
    · have hlookup : sampleCreate.fields.lookup f =
          if f = "color" then some (.str "red") else none := Table.lookup_insert' _ _ _ _
      have hf : f = "color" := by
        by_contra hne
        simp [hlookup, hne] at hvalue
      have hle' : sampleRestore.hlc ≤ sampleCreate.hlc :=
        hle sampleRestore (by simp) ⟨.str "blue", hf ▸ by decide⟩
      exact absurd hle' (by decide)
    · have hnone : sampleDelete.fields.lookup f = none := rfl
      simp [hnone] at hvalue
    · rfl
  have hcond : ∀ D ∈ [sampleCreate, sampleDelete, sampleRestore], D.deleted = true →
      sampleRestore.restore = true ∧ D.hlc.seen < sampleRestore.hlc := by decide
  exact (fields_converge_iff (fun _ => none) rfl (by decide) hbatch
    (Mirror.fresh_empty hbatch)).mpr
      (fun D hD hdel _ f G hG => hnewest f G hG ▸ hcond D hD hdel) _ _ (fun _ => Iff.rfl)
      (delivers_of_subset (by simp) (by simp)) (by decide) (by decide) "color"

/-- An edit that meets the tombstone before the restore is lost, and kept if it comes first. -/
theorem fields_diverge :
    Batch EntityKind.annotation "item:book" {op | op ∈ [sampleEdit, sampleDelete, sampleRestore]} ∧
    Delivers {op | op ∈ [sampleEdit, sampleDelete, sampleRestore]}
      [sampleEdit, sampleDelete, sampleRestore] ∧
    Delivers {op | op ∈ [sampleEdit, sampleDelete, sampleRestore]}
      [sampleDelete, sampleEdit, sampleRestore] ∧
    ((({} : Mirror).applyAll (fun _ => none) [sampleEdit, sampleDelete, sampleRestore]).row
      EntityKind.annotation "item:book").deleted = false ∧
    ((({} : Mirror).applyAll (fun _ => none) [sampleDelete, sampleEdit, sampleRestore]).row
      EntityKind.annotation "item:book").deleted = false ∧
    ((({} : Mirror).applyAll (fun _ => none) [sampleEdit, sampleDelete, sampleRestore]).row
      EntityKind.annotation "item:book").fields.lookup "note" =
        some ⟨.str "kept?", sampleEdit.hlc⟩ ∧
    ((({} : Mirror).applyAll (fun _ => none) [sampleDelete, sampleEdit, sampleRestore]).row
      EntityKind.annotation "item:book").fields.lookup "note" = none :=
  ⟨batch_of_list (by decide) (by decide) (by decide) (by decide) (by decide),
    fun _ => Iff.rfl, delivers_of_subset (by simp) (by simp), by decide, by decide, by decide,
    by decide⟩

end Converge

end TuxBooks
