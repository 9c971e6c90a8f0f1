import TuxBooks.Sync.Tombstone

set_option relaxedAutoImplicit false
set_option autoImplicit false

/-!
# Last-writer-wins of entity-mode entities

Progress, membership and last-opened are replaced as a whole. The row that a run leaves is the
one its newest operation describes, except that a tombstone refuses every upsert that is not a
restore, and that a restore can undo a delete which is not the newest. This file gives the
exact condition.

## Main definitions

* `TuxBooks.EntityRow.DescribedBy` — the row an operation describes.

## Main results

* `TuxBooks.described_by_newest_iff` — every delivery ends in the row the newest operation
  describes, exactly under the condition above.
-/

namespace TuxBooks

open Delivery

namespace EntityRow

/-- The row that `M` describes: deleted for a delete, else live with exactly its fields and its
clock. -/
def DescribedBy (M : Op) (r : EntityRow) : Prop :=
  if M.deleted then r.deleted = true
  else r.deleted = false ∧ r.hlc = M.hlc ∧
    r.fields = M.fields.mapRows fun _ value => ⟨value, M.hlc⟩

/-- The clock of the row is zero or that of an upsert of `S`. -/
def HlcFrom (S : Set Op) (r : EntityRow) : Prop :=
  r.hlc = Hlc.zero ∨ ∃ op ∈ S, r.hlc = op.hlc

section Step

variable {S : Set Op} {r : EntityRow} {op M : Op}

lemma put_of_entity (hmode : op.kind.mergeMode = .entity) (r : EntityRow) :
    r.put op = if op.hlc ≤ r.hlc then r else
      { r with fields := op.fields.mapRows fun _ value => ⟨value, op.hlc⟩, hlc := op.hlc } := by
  unfold put
  rw [hmode]

lemma HlcFrom.put (h : HlcFrom S r) (hop : op ∈ S) (hmode : op.kind.mergeMode = .entity) :
    HlcFrom S (r.put op) := by
  rw [put_of_entity hmode]
  split_ifs
  · exact h
  · exact Or.inr ⟨op, hop, rfl⟩

lemma HlcFrom.step (h : HlcFrom S r) (hop : op ∈ S) (hmode : op.kind.mergeMode = .entity)
    (bookUid : Option String) : HlcFrom S (r.step op bookUid) := by
  generalize hstep : r.step op bookUid = r'
  have hout : StepOutcome op bookUid r r' := hstep ▸ stepOutcome op bookUid r
  cases hout with
  | ignored => exact h
  | killed => exact h
  | refused => exact h
  | wrote => exact HlcFrom.put (r := r.touch bookUid) h hop hmode
  | revived => exact HlcFrom.put (r := (r.touch bookUid).revive op) h hop hmode

lemma HlcFrom.run (h : HlcFrom S r) {l : List Op} (hl : ∀ op ∈ l, op ∈ S)
    (hmode : ∀ op ∈ S, op.kind.mergeMode = .entity) (canon : String → String) :
    HlcFrom S (r.run canon l) := by
  induction l generalizing r with
  | nil => exact h
  | cons op l ih =>
    have hop := hl op List.mem_cons_self
    exact ih (h.step hop (hmode op hop) _) fun o ho => hl o (List.mem_cons_of_mem _ ho)

/-- A row that other operations than the newest wrote is older than it. -/
lemma HlcFrom.lt (h : HlcFrom {op ∈ S | op ≠ M} r) (hinj : Set.InjOn Op.hlc S) (hM : M ∈ S)
    (hmax : ∀ op ∈ S, op.hlc ≤ M.hlc) (hpos : Hlc.zero < M.hlc) : r.hlc < M.hlc := by
  rcases h with hzero | ⟨op, ⟨hop, hne⟩, heq⟩
  · rwa [hzero]
  · rw [heq]
    exact (hmax op hop).lt_of_ne fun h => hne (hinj hop hM h)

/-- The newest upsert describes the row whenever it takes effect. -/
lemma described_step (hmode : M.kind.mergeMode = .entity) (hup : M.deleted = false)
    (hadm : r.Admits M) (hlt : r.hlc < M.hlc) (bookUid : Option String) :
    (r.step M bookUid).DescribedBy M := by
  have hput : ∀ r : EntityRow, r.deleted = false → r.hlc < M.hlc → (r.put M).DescribedBy M := by
    intro r hlive hlt
    rw [put_of_entity hmode, if_neg hlt.not_ge, DescribedBy, hup, if_neg Bool.false_ne_true]
    exact ⟨hlive, rfl, rfl⟩
  generalize hstep : r.step M bookUid = r'
  have hout : StepOutcome M bookUid r r' := hstep ▸ stepOutcome M bookUid r
  cases hout with
  | ignored h => simp [hup] at h
  | killed h => simp [hup] at h
  | refused _ hno => exact absurd hadm hno
  | wrote _ hlive => exact hput _ hlive hlt
  | revived => exact hput _ rfl hlt

/-- No operation of the batch moves a row that the newest upsert describes. -/
lemma DescribedBy.step (h : r.DescribedBy M) (hup : M.deleted = false)
    (hinj : Set.InjOn Op.hlc S) (hM : M ∈ S) (hmax : ∀ op ∈ S, op.hlc ≤ M.hlc) (hop : op ∈ S)
    (hmode : op.kind.mergeMode = .entity) (bookUid : Option String) :
    (r.step op bookUid).DescribedBy M := by
  rw [DescribedBy, hup, if_neg Bool.false_ne_true] at h ⊢
  obtain ⟨hlive, hhlc, hfields⟩ := h
  have hle : op.hlc ≤ (r.touch bookUid).hlc := (hmax op hop).trans hhlc.ge
  generalize hstep : r.step op bookUid = r'
  have hout : StepOutcome op bookUid r r' := hstep ▸ stepOutcome op bookUid r
  cases hout with
  | ignored => exact ⟨hlive, hhlc, hfields⟩
  | refused => exact ⟨hlive, hhlc, hfields⟩
  | killed hdel hyields =>
    -- only an operation as new as the row could delete it, and that is `M` itself
    have hge : M.hlc ≤ op.hlc := by
      by_contra hlt
      exact hyields.2.2 ⟨hmode, hhlc ▸ not_le.mp hlt⟩
    have heq : op = M := hinj hop hM ((hmax op hop).antisymm hge)
    simp [heq, hup] at hdel
  | wrote =>
    rw [put_of_entity hmode, if_pos hle]
    exact ⟨hlive, hhlc, hfields⟩
  | revived _ hd => simp [hlive] at hd

lemma DescribedBy.run (h : r.DescribedBy M) (hup : M.deleted = false)
    (hinj : Set.InjOn Op.hlc S) (hM : M ∈ S) (hmax : ∀ op ∈ S, op.hlc ≤ M.hlc) {l : List Op}
    (hl : ∀ op ∈ l, op ∈ S) (hmode : ∀ op ∈ S, op.kind.mergeMode = .entity)
    (canon : String → String) : (r.run canon l).DescribedBy M := by
  induction l generalizing r with
  | nil => exact h
  | cons op l ih =>
    have hop := hl op List.mem_cons_self
    exact ih (h.step hup hinj hM hmax hop (hmode op hop) _)
      fun o ho => hl o (List.mem_cons_of_mem _ ho)

end Step

end EntityRow

section Newest

variable {kind : EntityKind} {uid : String} {S : Set Op} {M : Op}

lemma Batch.modes (hS : Batch kind uid S) {mode : MergeMode} (hmode : kind.mergeMode = mode) :
    ∀ op ∈ S, op.kind.mergeMode = mode := fun op h => hS.kind_eq op h ▸ hmode

/-- The newest operation is an upsert that takes effect when it arrives: a restore, or any
upsert of a batch without deletes. -/
lemma described_run_of_upsert (hS : Batch kind uid S) (hmode : kind.mergeMode = .entity)
    (hM : M ∈ S) (hmax : ∀ op ∈ S, op.hlc ≤ M.hlc) (hup : M.deleted = false)
    (hcond : M.restore = true ∨ ∀ op ∈ S, op.deleted = false) {o : List Op} (ho : Order S o)
    (canon : String → String) : (EntityRow.run canon {} o).DescribedBy M := by
  have hmem : ∀ op ∈ o, op ∈ S := fun op h => (ho.delivers op).mp h
  obtain ⟨o₁, o₂, rfl⟩ := List.append_of_mem ((ho.delivers M).mpr hM)
  have hnot : M ∉ o₁ := fun h =>
    (List.nodup_append.mp ho.nodup).2.2 M h M List.mem_cons_self rfl
  have hmem₁ : ∀ op ∈ o₁, op ∈ {op ∈ S | op ≠ M} := fun op h =>
    ⟨hmem op (List.mem_append_left _ h), fun heq => hnot (heq ▸ h)⟩
  have hmem₂ : ∀ op ∈ o₂, op ∈ S := fun op h =>
    hmem op (List.mem_append_right _ (List.mem_cons_of_mem _ h))
  have hsound := (EntityRow.sound_default _).run hmem₁ (fun op h => hS.wall op h.1) canon
  have hfrom := EntityRow.HlcFrom.run (S := {op ∈ S | op ≠ M}) (r := {}) (Or.inl rfl) hmem₁
    (fun op h => hS.modes hmode op h.1) canon
  have hlt := hfrom.lt hS.hlc_injOn hM hmax (hS.zero_lt hM)
  rw [EntityRow.run_append, EntityRow.run_cons]
  generalize EntityRow.run canon {} o₁ = r at hsound hlt ⊢
  have hadmits : r.Admits M := by
    cases hdel : r.deleted with
    | false => exact Or.inl hdel
    | true =>
      obtain ⟨D, hD, hDdel, hclock⟩ := hsound.killed hdel
      have hrestore : M.restore = true := hcond.resolve_right fun hnone => by
        simp [hnone D hD.1] at hDdel
      have hDlt : D.hlc.seen < M.hlc := (Hlc.seen_le (hS.zero_lt hD.1)).trans_lt
        ((hmax D hD.1).lt_of_ne fun h => hD.2 (hS.hlc_injOn hD.1 hM h))
      have hord := hsound.ordered hdel
      rw [EntityRow.deleteClock_of_some hclock] at hord
      refine Or.inr ⟨hrestore, hord.trans hDlt.le, ?_⟩
      rwa [EntityRow.deleteClock_of_some hclock]
  exact (EntityRow.described_step (hS.modes hmode M hM) hup hadmits hlt _).run hup hS.hlc_injOn
    hM hmax hmem₂ (hS.modes hmode) canon

/-- The newest operation is a delete and nothing can undo a delete. -/
lemma described_run_of_delete (hS : Batch kind uid S) (hmode : kind.mergeMode = .entity)
    (hM : M ∈ S) (hmax : ∀ op ∈ S, op.hlc ≤ M.hlc) (hdel : M.deleted = true)
    (hno : ∀ R D, ¬Revives S R D) {o : List Op} (ho : Order S o) (canon : String → String) :
    (EntityRow.run canon {} o).DescribedBy M := by
  have hmem : ∀ op ∈ o, op ∈ S := fun op h => (ho.delivers op).mp h
  obtain ⟨o₁, o₂, rfl⟩ := List.append_of_mem ((ho.delivers M).mpr hM)
  have hmem₁ : ∀ op ∈ o₁, op ∈ S := fun op h => hmem op (List.mem_append_left _ h)
  have hmem₂ : ∀ op ∈ o₂, op ∈ S := fun op h =>
    hmem op (List.mem_append_right _ (List.mem_cons_of_mem _ h))
  have hsound := (EntityRow.sound_default S).run hmem₁ hS.wall canon
  have hcalm := (EntityRow.sound_default S).restoredClock_run rfl hS.wall hno hmem₁ canon
  have hfrom := EntityRow.HlcFrom.run (S := S) (r := {}) (Or.inl rfl) hmem₁
    (hS.modes hmode) canon
  rw [EntityRow.run_append, EntityRow.run_cons, EntityRow.DescribedBy, hdel, if_pos rfl]
  generalize EntityRow.run canon {} o₁ = r at hsound hcalm hfrom ⊢
  have hold : ¬(M.kind.mergeMode = .entity ∧ M.hlc < r.hlc) := by
    rintro ⟨-, hlt⟩
    rcases hfrom with hzero | ⟨op, hop, heq⟩
    · exact absurd (hzero ▸ hlt) (hS.zero_lt hM).not_gt
    · exact absurd (heq ▸ hlt) (hmax op hop).not_gt
  have hdead := EntityRow.deleted_step_delete hcalm hdel (hS.zero_lt hM) hold
    (M.bookUid.map canon)
  exact (((hsound.step hM hS.wall _).sealed hdead hno).run hmem₂ canon).deleted

/-- The order in which the newest upsert meets a tombstone and is lost. -/
lemma exists_order_upsert_lost (hS : Batch kind uid S) (hmode : kind.mergeMode = .entity)
    (hM : M ∈ S) (hmax : ∀ op ∈ S, op.hlc ≤ M.hlc) (hup : M.deleted = false)
    (hplain : M.restore = false) {D : Op} (hD : D ∈ S) (hdel : D.deleted = true)
    (canon : String → String) :
    ∃ o, Order S o ∧ ¬(EntityRow.run canon {} o).DescribedBy M := by
  have hMD : M ≠ D := by
    rintro rfl
    simp [hup] at hdel
  obtain ⟨l, hl⟩ := exists_order_of_finite (S := {op ∈ S | op ≠ D ∧ op ≠ M})
    (hS.finite.subset fun _ h => h.1)
  have hord := (order_singleton D).append ((order_singleton M).append hl ?_) ?_
  · refine ⟨D :: M :: l, ⟨hord.nodup, fun op => (hord.delivers op).trans ?_⟩, fun hdesc => ?_⟩
    · constructor
      · rintro (rfl | rfl | hop)
        · exact hD
        · exact hM
        · exact hop.1
      · intro hop
        by_cases hopD : op = D
        · exact Or.inl hopD
        by_cases hopM : op = M
        · exact Or.inr (Or.inl hopM)
        · exact Or.inr (Or.inr ⟨hop, hopD, hopM⟩)
    · have hpos := hS.zero_lt hD
      have hkilled := EntityRow.killedBy_step (r := {}) rfl rfl hdel hpos
        (fun hold => hold.2.not_gt hpos) (D.bookUid.map canon)
      have hfrom : EntityRow.HlcFrom {op ∈ S | op ≠ M}
          (EntityRow.step D (D.bookUid.map canon) {}) :=
        EntityRow.HlcFrom.step (S := {op ∈ S | op ≠ M}) (r := {}) (Or.inl rfl) ⟨hD, hMD.symm⟩
          (hS.modes hmode D hD) _
      rw [EntityRow.run_cons, EntityRow.run_cons] at hdesc
      generalize EntityRow.step D (D.bookUid.map canon) {} = r at hkilled hfrom hdesc
      have hfrom' : EntityRow.HlcFrom {op ∈ S | op ≠ M} (r.step M (M.bookUid.map canon)) := by
        generalize M.bookUid.map canon = bookUid
        generalize hstep : r.step M bookUid = r'
        have hout : EntityRow.StepOutcome M bookUid r r' := hstep ▸ EntityRow.stepOutcome ..
        cases hout with
        | ignored => exact hfrom
        | killed => exact hfrom
        | refused => exact hfrom
        | wrote _ hlive => simp [hkilled.deleted] at hlive
        | revived _ _ hadm =>
          rcases hadm with hlive | ⟨hrestore, -⟩
          · simp [hkilled.deleted] at hlive
          · simp [hplain] at hrestore
      have hend := (hfrom'.run (l := l) (fun op h => ⟨((hl.delivers op).mp h).1,
        ((hl.delivers op).mp h).2.2⟩) (fun op h => hS.modes hmode op h.1) canon).lt
          hS.hlc_injOn hM hmax (hS.zero_lt hM)
      rw [EntityRow.DescribedBy, hup, if_neg Bool.false_ne_true] at hdesc
      exact hend.ne hdesc.2.1
  · rintro op rfl hop
    exact hop.2.2 rfl
  · rintro op rfl (rfl | hop)
    · exact hMD rfl
    · exact hop.2.1 rfl

variable (fromStr : String → Option Value) {m : Mirror}

/-- **Entity-mode last-writer-wins.** Every delivery ends in the row that the newest operation
describes exactly when that operation is a restore, or an upsert and nothing is deleted, or a
delete and no restore is above the clock that some delete shows. -/
theorem described_by_newest_iff (hmode : kind.mergeMode = .entity) (hstate : kind.IsState)
    (hS : Batch kind uid S) (hm : m.Fresh kind uid S) (hM : M ∈ S)
    (hmax : ∀ op ∈ S, op.hlc ≤ M.hlc) :
    (∀ l, Delivers S l → ((m.applyAll fromStr l).row kind uid).DescribedBy M) ↔
    (M.deleted = false ∧ (M.restore = true ∨ ∀ op ∈ S, op.deleted = false)) ∨
    (M.deleted = true ∧
      ∀ D ∈ S, ∀ R ∈ S, D.deleted = true → R.restore = true → R.hlc ≤ D.hlc.seen) := by
  constructor
  · intro hall
    cases hdel : M.deleted with
    | false =>
      refine Or.inl ⟨rfl, or_iff_not_imp_left.mpr fun hplain D hD => ?_⟩
      by_contra hDdel
      obtain ⟨o, ho, hlost⟩ := exists_order_upsert_lost hS hmode hM hmax hdel
        (Bool.eq_false_iff.mpr hplain) hD (by simpa using hDdel) m.canonicalBookUid
      rw [← row_of_order fromStr hS hstate hm ho] at hlost
      exact hlost (hall o ho.delivers)
    | true =>
      refine Or.inr ⟨rfl, fun D hD R hR hDdel hrestore => ?_⟩
      by_contra hlt
      have hrev : Revives S R D := ⟨hR, hD, hrestore, hDdel, not_le.mp hlt⟩
      obtain ⟨ld, lu, ho, hld, hlu⟩ := exists_order_of_revives hS hrev order_nil
        (Set.empty_subset S) (by simp)
      have hlive := live_of_revives hS hrev hld hlu m.canonicalBookUid
      have hdesc := hall _ ho.delivers
      rw [row_of_order fromStr hS hstate hm ho, EntityRow.DescribedBy, hdel, if_pos rfl] at hdesc
      exact absurd (hdesc.symm.trans hlive) (by simp)
  · intro hcond l hl
    obtain ⟨o, ho, hrow⟩ := exists_order fromStr hS hstate hm hl
    rw [hrow]
    rcases hcond with ⟨hup, hcond⟩ | ⟨hdel, hcond⟩
    · exact described_run_of_upsert hS hmode hM hmax hup hcond ho _
    · exact described_run_of_delete hS hmode hM hmax hdel (fun R D h =>
        (hcond D h.delete_mem R h.restore_mem h.deleted h.restore).not_gt h.lt) ho _

end Newest

/-! ## Sample runs -/

/-- A reading position is saved. -/
def sampleSave : Op :=
  sampleOp .progress 2 "22222222222222222222222222222222" false false
    ((∅ : Fields).insert "progress_percent" (.int 40))

/-- The position is reset. -/
def sampleReset : Op :=
  sampleOp .progress 3 "33333333333333333333333333333333" true false ∅

/-- The book is read again. -/
def sampleReread : Op :=
  sampleOp .progress 4 "44444444444444444444444444444444" false false
    ((∅ : Fields).insert "progress_percent" (.int 5))

/-- A reset that is the newest operation is agreed on, also when it arrives first. -/
theorem described_by_newest_sample :
    ((({} : Mirror).applyAll (fun _ => none) [sampleReset, sampleSave]).row .progress
      "item:book").DescribedBy sampleReset := by
  have hbatch : Batch .progress "item:book" {op | op ∈ [sampleSave, sampleReset]} :=
    batch_of_list (by decide) (by decide) (by decide) (by decide) (by decide)
  have hmax : ∀ op ∈ [sampleSave, sampleReset], op.hlc ≤ sampleReset.hlc := by decide
  have hcond : ∀ D ∈ [sampleSave, sampleReset], ∀ R ∈ [sampleSave, sampleReset],
      D.deleted = true → R.restore = true → R.hlc ≤ D.hlc.seen := by decide
  exact (described_by_newest_iff (fun _ => none) rfl (by decide) hbatch
    (Mirror.fresh_empty hbatch) (by simp) hmax).mpr (Or.inr ⟨rfl, hcond⟩) _
      (delivers_of_subset (by simp) (by simp))

/-- A position saved after a reset is refused by the tombstone when the reset arrives first. -/
theorem reread_lost :
    Batch .progress "item:book" {op | op ∈ [sampleReset, sampleReread]} ∧
    Delivers {op | op ∈ [sampleReset, sampleReread]} [sampleReset, sampleReread] ∧
    (∀ op ∈ [sampleReset, sampleReread], op.hlc ≤ sampleReread.hlc) ∧
    sampleReread.deleted = false ∧
    ((({} : Mirror).applyAll (fun _ => none) [sampleReset, sampleReread]).row .progress
      "item:book").deleted = true ∧
    ¬((({} : Mirror).applyAll (fun _ => none) [sampleReset, sampleReread]).row .progress
      "item:book").DescribedBy sampleReread := by
  have hdead : ((({} : Mirror).applyAll (fun _ => none) [sampleReset, sampleReread]).row
      .progress "item:book").deleted = true := by decide
  refine ⟨batch_of_list (by decide) (by decide) (by decide) (by decide) (by decide),
    fun _ => Iff.rfl, by decide, rfl, hdead, fun hdesc => ?_⟩
  have hlive : ((({} : Mirror).applyAll (fun _ => none) [sampleReset, sampleReread]).row
      .progress "item:book").deleted = false := hdesc.1
  exact absurd (hdead.symm.trans hlive) (by decide)

end TuxBooks
