import TuxBooks.Sync.Run

set_option relaxedAutoImplicit false
set_option autoImplicit false

/-!
# Deletes and restores of one row

What the delete and restore clocks of a row can be in a run over one batch. A restore that
arrives while the row is live writes no restore clock, and a delete that arrives on a tombstone
does not move its delete clock; so a batch in which some restore is above the clock that some
delete shows (`Revivable`) has runs that end live and runs that end deleted, while without such
a pair a tombstone stays one.

## Main definitions

* `TuxBooks.EntityRow.StepOutcome` — the outcomes of one step.
* `TuxBooks.EntityRow.Sound` — the clocks of a row come from operations of the batch.
* `TuxBooks.EntityRow.Sealed` — a tombstone that no operation of the batch can revive.
* `TuxBooks.Revivable` — a delete and a restore that can undo it.

## Main results

* `TuxBooks.EntityRow.stepOutcome` — the outcome of a step, with the guard it passed.
* `TuxBooks.EntityRow.Sound.run` — a run keeps a row sound.
* `TuxBooks.EntityRow.Sealed.run` — a sealed row stays deleted.
* `TuxBooks.exists_order_live` — a revivable delete has a run that ends live.
-/

namespace TuxBooks

open Delivery

namespace EntityRow

/-! ## The outcomes of a step -/

/-- An upsert takes effect on a row that is live, or on a tombstone that it restores. -/
def Admits (r : EntityRow) (op : Op) : Prop :=
  r.deleted = false ∨ op.restore = true ∧ r.restoreClock ≤ op.hlc ∧ r.deleteClock < op.hlc

/-- A delete takes effect on a live row whose restore clock is not above it and, for an
entity-mode kind, whose value is not newer. -/
def Yields (r : EntityRow) (op : Op) : Prop :=
  r.deleted = false ∧ r.restoreClock ≤ op.hlc ∧ ¬(op.kind.mergeMode = .entity ∧ op.hlc < r.hlc)

/-- The outcomes of a step. -/
inductive StepOutcome (op : Op) (bookUid : Option String) (r : EntityRow) : EntityRow → Prop
  | ignored (h : op.deleted = true) (hr : ¬r.Yields op) : StepOutcome op bookUid r (r.touch bookUid)
  | killed (h : op.deleted = true) (hr : r.Yields op) :
      StepOutcome op bookUid r ((r.touch bookUid).kill op)
  | refused (h : op.deleted = false) (hr : ¬r.Admits op) :
      StepOutcome op bookUid r (r.touch bookUid)
  | wrote (h : op.deleted = false) (hr : r.deleted = false) :
      StepOutcome op bookUid r ((r.touch bookUid).put op)
  | revived (h : op.deleted = false) (hd : r.deleted = true) (hr : r.Admits op) :
      StepOutcome op bookUid r (((r.touch bookUid).revive op).put op)

/-- **The outcome of a step**, with the guard it passed. -/
theorem stepOutcome (op : Op) (bookUid : Option String) (r : EntityRow) :
    StepOutcome op bookUid r (r.step op bookUid) := by
  unfold step
  cases hop : op.deleted with
  | true =>
    have hdelete : ((r.touch bookUid).Yields op → (r.touch bookUid).delete op =
        (r.touch bookUid).kill op) ∧ (¬(r.touch bookUid).Yields op →
          (r.touch bookUid).delete op = r.touch bookUid) := by
      unfold Yields delete
      grind
    rw [if_pos rfl]
    by_cases hyields : r.Yields op
    · rw [hdelete.1 hyields]
      exact .killed hop hyields
    · rw [hdelete.2 hyields]
      exact .ignored hop hyields
  | false =>
    rw [if_neg Bool.false_ne_true]
    unfold upsert
    cases hdel : r.deleted with
    | false =>
      have hlive : ¬(r.touch bookUid).deleted = true := by simp [touch, hdel]
      rw [if_neg hlive]
      exact .wrote hop hdel
    | true =>
      have hdead : (r.touch bookUid).deleted = true := hdel
      rw [if_pos hdead]
      have hclock : (r.touch bookUid).restoreClock = r.restoreClock ∧
          (r.touch bookUid).deleteClock = r.deleteClock := ⟨rfl, rfl⟩
      by_cases hrestore : op.restore = true
      · rw [if_neg (not_not.mpr hrestore)]
        split_ifs with hlate
        · refine .refused hop ?_
          rw [hclock.1, hclock.2] at hlate
          rintro (hlive | ⟨-, hrest, hdc⟩)
          · simp [hdel] at hlive
          · exact hlate.elim (fun h => h.not_ge hrest) fun h => h.not_gt hdc
        · refine .revived hop hdel (Or.inr ⟨hrestore, ?_⟩)
          rw [hclock.1, hclock.2, not_or] at hlate
          exact ⟨not_lt.mp hlate.1, not_le.mp hlate.2⟩
      · rw [if_pos hrestore]
        exact .refused hop (by simp [Admits, hdel, hrestore])

/-! ## Clocks of a run -/

/-- The clocks of a row come from operations of `S`: the restore clock from any of them, the
delete clock of a tombstone from a delete, and that one shows at least the restore clock. -/
structure Sound (S : Set Op) (r : EntityRow) : Prop where
  restored : r.restoredClock = none ∨ ∃ op ∈ S, r.restoredClock = some op.hlc
  killed : r.deleted = true → ∃ op ∈ S, op.deleted = true ∧ r.deletedClock = some op.hlc
  ordered : r.deleted = true → r.restoreClock ≤ r.deleteClock

lemma sound_default (S : Set Op) : Sound S {} :=
  ⟨Or.inl rfl, fun h => absurd h Bool.false_ne_true, fun h => absurd h Bool.false_ne_true⟩

lemma restoreClock_of_some {r : EntityRow} {h : Hlc} (hr : r.restoredClock = some h) :
    r.restoreClock = h.seen := by
  simp [restoreClock, restoredHlc, hr, Hlc.seen]

lemma restoreClock_of_none {r : EntityRow} (hr : r.restoredClock = none) :
    r.restoreClock = Hlc.zero := by
  simp [restoreClock, restoredHlc, hr]

lemma deleteClock_of_some {r : EntityRow} {h : Hlc} (hr : r.deletedClock = some h) :
    r.deleteClock = h.seen := by
  simp [deleteClock, deletedHlc, hr, Hlc.seen]

/-- The flags of a row decide its clocks. -/
lemma SameFlags.sound {S : Set Op} {r r' : EntityRow} (h : SameFlags r r') (hr : Sound S r) :
    Sound S r' := by
  obtain ⟨hrest, hkill, hord⟩ := hr
  have hclocks : r'.restoreClock = r.restoreClock ∧ r'.deleteClock = r.deleteClock := by
    simp [restoreClock, restoredHlc, deleteClock, deletedHlc, h.deletedClock, h.restoredClock]
  refine ⟨h.restoredClock ▸ hrest, ?_, ?_⟩
  · rw [h.deleted, h.deletedClock]
    exact hkill
  · rw [h.deleted, hclocks.1, hclocks.2]
    exact hord

lemma sameFlags_touch (bookUid : Option String) (r : EntityRow) : SameFlags r (r.touch bookUid) :=
  ⟨rfl, rfl, rfl⟩

/-- One step keeps a row sound. -/
lemma Sound.step {S : Set Op} {r : EntityRow} (hr : Sound S r) {op : Op} (hop : op ∈ S)
    (hwall : ∀ op ∈ S, 0 ≤ op.hlc.wall) (bookUid : Option String) :
    Sound S (r.step op bookUid) := by
  have htouch := (sameFlags_touch bookUid r).sound hr
  generalize hstep : r.step op bookUid = r'
  have hout : StepOutcome op bookUid r r' := hstep ▸ stepOutcome op bookUid r
  cases hout with
  | ignored => exact htouch
  | refused => exact htouch
  | wrote => exact (sameFlags_put op _).sound htouch
  | revived =>
    refine (sameFlags_put op _).sound ⟨Or.inr ⟨op, hop, rfl⟩, ?_, ?_⟩ <;>
      exact fun h => absurd h Bool.false_ne_true
  | killed h hyields =>
    refine ⟨htouch.restored, fun _ => ⟨op, hop, h, rfl⟩, fun _ => ?_⟩
    have hdelete : ((r.touch bookUid).kill op).deleteClock = op.hlc.seen :=
      deleteClock_of_some rfl
    have hrestore : ((r.touch bookUid).kill op).restoreClock = r.restoreClock := rfl
    rw [hdelete, hrestore]
    -- the guard compared with the stored delete clock; what it shows may be the zero clock
    rcases hr.restored with hnone | ⟨op', hop', hsome⟩
    · rw [restoreClock_of_none hnone]
      exact Hlc.zero_le_seen (hwall op hop)
    · have hle : op'.hlc.seen ≤ op.hlc := restoreClock_of_some hsome ▸ hyields.2.1
      rw [restoreClock_of_some hsome]
      exact Hlc.seen_le_seen (hwall op' hop') (hwall op hop) hle

lemma Sound.run {S : Set Op} {r : EntityRow} (hr : Sound S r) {l : List Op}
    (hl : ∀ op ∈ l, op ∈ S) (hwall : ∀ op ∈ S, 0 ≤ op.hlc.wall) (canon : String → String) :
    Sound S (r.run canon l) := by
  induction l generalizing r with
  | nil => exact hr
  | cons op l ih =>
    exact ih (hr.step (hl op List.mem_cons_self) hwall _)
      fun o ho => hl o (List.mem_cons_of_mem _ ho)

/-! ## Tombstones that stay -/

/-- A tombstone that no operation of `S` can revive. -/
structure Sealed (S : Set Op) (r : EntityRow) : Prop where
  deleted : r.deleted = true
  refuses : ∀ op ∈ S, op.deleted = false → ¬r.Admits op

/-- A sealed row only has its book uid refreshed. -/
lemma Sealed.step {S : Set Op} {r : EntityRow} (h : Sealed S r) {op : Op} (hop : op ∈ S)
    (bookUid : Option String) :
    r.step op bookUid = r.touch bookUid ∧ Sealed S (r.step op bookUid) := by
  have htouch : Sealed S (r.touch bookUid) := ⟨h.deleted, h.refuses⟩
  generalize hstep : r.step op bookUid = r'
  have hout : StepOutcome op bookUid r r' := hstep ▸ stepOutcome op bookUid r
  cases hout with
  | ignored => exact ⟨rfl, htouch⟩
  | refused => exact ⟨rfl, htouch⟩
  | killed _ hyields => exact absurd hyields.1 (by simp [h.deleted])
  | wrote _ hlive => exact absurd hlive (by simp [h.deleted])
  | revived hup _ hadmits => exact absurd hadmits (h.refuses op hop hup)

/-- **A sealed row stays deleted.** -/
lemma Sealed.run {S : Set Op} {r : EntityRow} (h : Sealed S r) {l : List Op}
    (hl : ∀ op ∈ l, op ∈ S) (canon : String → String) : Sealed S (r.run canon l) := by
  induction l generalizing r with
  | nil => exact h
  | cons op l ih =>
    exact ih (h.step (hl op List.mem_cons_self) _).2 fun o ho => hl o (List.mem_cons_of_mem _ ho)

/-! ## Runs of one sort of operation -/

/-- A live row and what upserts leave of it. -/
lemma step_of_live {r : EntityRow} (hr : r.deleted = false) {op : Op} (hop : op.deleted = false)
    (bookUid : Option String) : r.step op bookUid = (r.touch bookUid).put op := by
  generalize hstep : r.step op bookUid = r'
  have hout : StepOutcome op bookUid r r' := hstep ▸ stepOutcome op bookUid r
  cases hout with
  | ignored h => simp [hop] at h
  | killed h => simp [hop] at h
  | refused _ hno => exact absurd (Or.inl hr) hno
  | wrote => rfl
  | revived _ hd => simp [hr] at hd

/-- Upserts leave the flags of a live row. -/
lemma sameFlags_run_of_live {r : EntityRow} (hr : r.deleted = false) {l : List Op}
    (hl : ∀ op ∈ l, op.deleted = false) (canon : String → String) :
    SameFlags r (r.run canon l) := by
  induction l generalizing r with
  | nil => exact ⟨rfl, rfl, rfl⟩
  | cons op l ih =>
    have hput := sameFlags_put op (r.touch (op.bookUid.map canon))
    rw [run_cons, step_of_live hr (hl op List.mem_cons_self)]
    have hrest := ih (hput.deleted.trans hr) fun o ho => hl o (List.mem_cons_of_mem _ ho)
    exact ⟨hrest.deleted.trans hput.deleted, hrest.deletedClock.trans hput.deletedClock,
      hrest.restoredClock.trans hput.restoredClock⟩

/-- A delete on a tombstone only refreshes the book uid. -/
lemma step_delete_of_dead {r : EntityRow} (hr : r.deleted = true) {op : Op}
    (hop : op.deleted = true) (bookUid : Option String) :
    r.step op bookUid = r.touch bookUid := by
  generalize hstep : r.step op bookUid = r'
  have hout : StepOutcome op bookUid r r' := hstep ▸ stepOutcome op bookUid r
  cases hout with
  | ignored => rfl
  | killed _ hyields => exact absurd hyields.1 (by simp [hr])
  | refused h => simp [hop] at h
  | wrote h => simp [hop] at h
  | revived h => simp [hop] at h

/-- Deletes leave a tombstone deleted. -/
lemma deleted_run_deletes {r : EntityRow} (hr : r.deleted = true) {l : List Op}
    (hl : ∀ op ∈ l, op.deleted = true) (canon : String → String) :
    (r.run canon l).deleted = true := by
  induction l generalizing r with
  | nil => exact hr
  | cons op l ih =>
    rw [run_cons, step_delete_of_dead hr (hl op List.mem_cons_self)]
    exact ih hr fun o ho => hl o (List.mem_cons_of_mem _ ho)

/-- The flags of a tombstone that `D` wrote and nothing has restored. -/
structure KilledBy (D : Op) (r : EntityRow) : Prop where
  deleted : r.deleted = true
  deletedClock : r.deletedClock = some D.hlc
  restoredClock : r.restoredClock = none

/-- Deletes leave a tombstone as it is. -/
lemma KilledBy.run_deletes {D : Op} {r : EntityRow} (h : KilledBy D r) {l : List Op}
    (hl : ∀ op ∈ l, op.deleted = true) (canon : String → String) :
    KilledBy D (r.run canon l) := by
  induction l generalizing r with
  | nil => exact h
  | cons op l ih =>
    rw [run_cons, step_delete_of_dead h.deleted (hl op List.mem_cons_self)]
    exact ih ⟨h.deleted, h.deletedClock, h.restoredClock⟩
      fun o ho => hl o (List.mem_cons_of_mem _ ho)

/-- Upserts leave a tombstone as it is or bring the row to life, and then it stays alive. -/
lemma live_or_killedBy_run {D : Op} {r : EntityRow} (h : r.deleted = false ∨ KilledBy D r)
    {l : List Op} (hl : ∀ op ∈ l, op.deleted = false) (canon : String → String) :
    (r.run canon l).deleted = false ∨ KilledBy D (r.run canon l) := by
  induction l generalizing r with
  | nil => exact h
  | cons op l ih =>
    have hop : op.deleted = false := hl op List.mem_cons_self
    rw [run_cons]
    refine ih ?_ fun o ho => hl o (List.mem_cons_of_mem _ ho)
    generalize op.bookUid.map canon = bookUid
    generalize hstep : r.step op bookUid = r'
    have hout : StepOutcome op bookUid r r' := hstep ▸ stepOutcome op bookUid r
    cases hout with
    | ignored h => simp [hop] at h
    | killed h => simp [hop] at h
    | refused =>
      exact h.imp id fun hk => ⟨hk.deleted, hk.deletedClock, hk.restoredClock⟩
    | wrote _ hlive => exact Or.inl ((sameFlags_put op _).deleted.trans hlive)
    | revived => exact Or.inl (sameFlags_put op _).deleted

/-- A delete on a live row that nothing has restored makes a tombstone, unless the row is
newer. -/
lemma killedBy_step {D : Op} {r : EntityRow} (hr : r.deleted = false)
    (hrest : r.restoredClock = none) (hD : D.deleted = true) (hpos : Hlc.zero < D.hlc)
    (hold : ¬(D.kind.mergeMode = .entity ∧ D.hlc < r.hlc)) (bookUid : Option String) :
    KilledBy D (r.step D bookUid) := by
  have hyields : r.Yields D := by
    refine ⟨hr, ?_, hold⟩
    rw [restoreClock_of_none hrest]
    exact hpos.le
  generalize hstep : r.step D bookUid = r'
  have hout : StepOutcome D bookUid r r' := hstep ▸ stepOutcome D bookUid r
  cases hout with
  | ignored _ hno => exact absurd hyields hno
  | killed => exact ⟨rfl, rfl, hrest⟩
  | refused h => simp [hD] at h
  | wrote h => simp [hD] at h
  | revived h => simp [hD] at h

/-- A restore above the clock that a tombstone shows brings the row to life. -/
lemma KilledBy.step_restore {D R : Op} {r : EntityRow} (h : KilledBy D r)
    (hR : R.restore = true) (hup : R.deleted = false) (hpos : Hlc.zero < R.hlc)
    (hlt : D.hlc.seen < R.hlc) (bookUid : Option String) :
    r.step R bookUid = ((r.touch bookUid).revive R).put R := by
  have hadmits : r.Admits R := by
    refine Or.inr ⟨hR, ?_, ?_⟩
    · rw [restoreClock_of_none h.restoredClock]
      exact hpos.le
    · rw [deleteClock_of_some h.deletedClock]
      exact hlt
  generalize hstep : r.step R bookUid = r'
  have hout : StepOutcome R bookUid r r' := hstep ▸ stepOutcome R bookUid r
  cases hout with
  | ignored h => simp [hup] at h
  | killed h => simp [hup] at h
  | refused _ hno => exact absurd hadmits hno
  | wrote _ hlive => simp [h.deleted] at hlive
  | revived => rfl

end EntityRow

/-! ## Batches with a revivable delete -/

/-- The restore `R` is above the clock that a tombstone of `D` shows. -/
structure Revives (S : Set Op) (R D : Op) : Prop where
  restore_mem : R ∈ S
  delete_mem : D ∈ S
  restore : R.restore = true
  deleted : D.deleted = true
  lt : D.hlc.seen < R.hlc

section Batch

variable {kind : EntityKind} {uid : String} {S : Set Op}

lemma Batch.zero_lt (hS : Batch kind uid S) {op : Op} (hop : op ∈ S) : Hlc.zero < op.hlc :=
  (accepted_of_validateOp (hS.accepted op hop)).zero_lt

lemma Batch.wall (hS : Batch kind uid S) : ∀ op ∈ S, 0 ≤ op.hlc.wall := fun op hop =>
  (accepted_of_validateOp (hS.accepted op hop)).wall

lemma Batch.not_restore (hS : Batch kind uid S) {op : Op} (hop : op ∈ S)
    (hd : op.deleted = true) : op.restore = false :=
  Bool.eq_false_iff.mpr fun hr =>
    (accepted_of_validateOp (hS.accepted op hop)).notBoth ⟨hr, hd⟩

lemma Revives.upsert (hS : Batch kind uid S) {R D : Op} (h : Revives S R D) :
    R.deleted = false := by
  refine Bool.eq_false_iff.mpr fun hd => ?_
  simpa [h.restore] using hS.not_restore h.restore_mem hd

/-- A tombstone of a delete that nothing in the batch revives is sealed. -/
lemma EntityRow.sealed_of_not_revives {r : EntityRow} {D : Op} (hD : D ∈ S)
    (hdel : D.deleted = true) (hr : r.deleted = true) (hclock : r.deletedClock = some D.hlc)
    (hno : ∀ R, ¬Revives S R D) : r.Sealed S := by
  refine ⟨hr, fun op hop _ hadmits => ?_⟩
  rcases hadmits with hlive | ⟨hrestore, -, hlt⟩
  · simp [hr] at hlive
  · rw [EntityRow.deleteClock_of_some hclock] at hlt
    exact hno op ⟨hop, hD, hrestore, hdel, hlt⟩

/-- Without a revivable delete every tombstone of a run is sealed. -/
lemma EntityRow.Sound.sealed {r : EntityRow} (h : r.Sound S) (hr : r.deleted = true)
    (hno : ∀ R D, ¬Revives S R D) : r.Sealed S := by
  obtain ⟨D, hD, hdel, hclock⟩ := h.killed hr
  exact EntityRow.sealed_of_not_revives hD hdel hr hclock fun R => hno R D

/-- Without a revivable delete no restore takes effect on a tombstone. -/
lemma EntityRow.Sound.restoredClock_run {r : EntityRow} (h : r.Sound S)
    (hr : r.restoredClock = none) (hwall : ∀ op ∈ S, 0 ≤ op.hlc.wall)
    (hno : ∀ R D, ¬Revives S R D) {l : List Op} (hl : ∀ op ∈ l, op ∈ S)
    (canon : String → String) : (r.run canon l).restoredClock = none := by
  induction l generalizing r with
  | nil => exact hr
  | cons op l ih =>
    have hop : op ∈ S := hl op List.mem_cons_self
    rw [run_cons]
    refine ih (h.step hop hwall _) ?_ fun o ho => hl o (List.mem_cons_of_mem _ ho)
    generalize op.bookUid.map canon = bookUid
    generalize hstep : r.step op bookUid = r'
    have hout : StepOutcome op bookUid r r' := hstep ▸ stepOutcome op bookUid r
    cases hout with
    | ignored => exact hr
    | killed => exact hr
    | refused => exact hr
    | wrote => exact (sameFlags_put op _).restoredClock.trans hr
    | revived hup hd hadmits => exact absurd hadmits ((h.sealed hd hno).refuses op hop hup)

/-- A delete on a row that nothing has restored leaves a tombstone, unless the row is newer. -/
lemma EntityRow.deleted_step_delete {r : EntityRow} {D : Op} (hr : r.restoredClock = none)
    (hdel : D.deleted = true) (hpos : Hlc.zero < D.hlc)
    (hold : ¬(D.kind.mergeMode = .entity ∧ D.hlc < r.hlc)) (bookUid : Option String) :
    (r.step D bookUid).deleted = true := by
  cases hd : r.deleted with
  | false => exact (killedBy_step hd hr hdel hpos hold bookUid).deleted
  | true =>
    rw [step_delete_of_dead hd hdel]
    exact hd

/-- **A revivable delete has a run that ends live**: the delete first, then the other deletes,
then the upserts `lu`, then the restore. -/
lemma live_of_revives (hS : Batch kind uid S) {R D : Op} (h : Revives S R D) {ld lu : List Op}
    (hld : ∀ op ∈ ld, op.deleted = true) (hlu : ∀ op ∈ lu, op.deleted = false)
    (canon : String → String) :
    (EntityRow.run canon {} (D :: (ld ++ (lu ++ [R])))).deleted = false := by
  have hup : R.deleted = false := h.upsert hS
  have hpos := hS.zero_lt h.delete_mem
  have hkilled := (EntityRow.killedBy_step (r := {}) rfl rfl h.deleted hpos
    (fun hold => hold.2.not_gt hpos) (D.bookUid.map canon)).run_deletes hld canon
  rw [EntityRow.run_cons, EntityRow.run_append, EntityRow.run_append]
  rcases EntityRow.live_or_killedBy_run (Or.inr hkilled) hlu canon with hlive | hdead
  · rw [EntityRow.run_cons, EntityRow.run_nil, EntityRow.step_of_live hlive hup]
    exact (EntityRow.sameFlags_put R _).deleted.trans hlive
  · rw [EntityRow.run_cons, EntityRow.run_nil,
      hdead.step_restore h.restore hup (hS.zero_lt h.restore_mem) h.lt]
    exact (EntityRow.sameFlags_put R _).deleted

/-- The order of `live_of_revives` over a whole batch, with the upserts in `U` at the front of
the upserts. -/
lemma exists_order_of_revives (hS : Batch kind uid S) {R D : Op} (h : Revives S R D)
    {U : Set Op} {lU : List Op} (hU : Order U lU) (hUS : U ⊆ S)
    (hup : ∀ op ∈ U, op.deleted = false ∧ op ≠ R) :
    ∃ ld lu, Order S (D :: (ld ++ (lU ++ lu ++ [R]))) ∧ (∀ op ∈ ld, op.deleted = true) ∧
      (∀ op ∈ lu, op.deleted = false) := by
  have hupR : R.deleted = false := h.upsert hS
  have hRD : R ≠ D := by
    rintro rfl
    simpa [hupR] using h.deleted
  obtain ⟨ld, hld⟩ := exists_order_of_finite (S := {op ∈ S | op.deleted = true ∧ op ≠ D})
    (hS.finite.subset fun _ h => h.1)
  obtain ⟨lu, hlu⟩ := exists_order_of_finite
    (S := {op ∈ S | op.deleted = false ∧ op ≠ R ∧ op ∉ U}) (hS.finite.subset fun _ h => h.1)
  have hord := (order_singleton D).append
    (hld.append ((hU.append hlu ?_).append (order_singleton R) ?_) ?_) ?_
  · refine ⟨ld, lu, ⟨hord.nodup, fun op => (hord.delivers op).trans ?_⟩,
      fun op hop => ((hld.delivers op).mp hop).2.1, fun op hop => ((hlu.delivers op).mp hop).2.1⟩
    simp only [Set.mem_union, Set.mem_singleton_iff, Set.mem_ofPred_eq]
    constructor
    · rintro (rfl | hop | (hop | hop) | rfl)
      · exact h.delete_mem
      · exact hop.1
      · exact hUS hop
      · exact hop.1
      · exact h.restore_mem
    · intro hop
      cases hdel : op.deleted <;> by_cases hopD : op = D <;> by_cases hopR : op = R <;>
        by_cases hopU : op ∈ U <;> simp_all
  · intro op hop hop'
    exact hop'.2.2.2 hop
  · rintro op (hop | hop) rfl
    · exact (hup op hop).2 rfl
    · exact hop.2.2.1 rfl
  · rintro op hop ((hop' | hop') | rfl)
    · simp [(hup op hop').1] at hop
    · simp [hop'.2.1] at hop
    · simp [hupR] at hop
  · rintro op rfl (hop | (hop | hop) | rfl)
    · exact hop.2.2 rfl
    · simpa [h.deleted] using (hup op hop).1
    · simpa [h.deleted] using hop.2.1
    · exact hRD rfl

end Batch

end TuxBooks
