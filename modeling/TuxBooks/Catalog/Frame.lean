import TuxBooks.Catalog.Merge

set_option relaxedAutoImplicit false
set_option autoImplicit false

/-!
# What the catalog writes leave alone

Most writes keep the file rows, the set of durable records and the identity markers, and add no
override row. Folding one book into another changes them in a way that is said exactly.

## Main definitions

* `TuxBooks.Catalog.Frame` — the parts of the catalog that a write keeps.
* `TuxBooks.Catalog.Folded` — what folding one book into another does to them.

## Main results

* `TuxBooks.Catalog.frame_recomputePrimary` — recomputing metadata keeps the frame.
* `TuxBooks.Catalog.folded_mergeBook` — what folding a book does to it.
-/

namespace TuxBooks

/-- A marker that does not publish an alias. -/
def DirtyKey.IsState : DirtyKey → Prop
  | .bookIdentity _ => False
  | _ => True

instance : DecidablePred DirtyKey.IsState
  | .bookIdentity _ => isFalse id
  | DirtyKey.annotation _ | .progress _ | .metadata _ | .collection _ | .membership _ _
  | .opened _ | .book _ => isTrue trivial

namespace Catalog

/-- The same file rows, durable records and identity markers, and no override row that was not
there before. -/
structure Frame (c c' : Catalog) : Prop where
  files : c'.files = c.files
  overrides : ∀ uid r, c'.overrides.lookup uid = some r → ∃ uid', c.overrides.lookup uid' = some r
  record : ∀ uid, c'.hasRecord uid = c.hasRecord uid
  identity : ∀ h, c'.dirty.lookup (.bookIdentity h) = c.dirty.lookup (.bookIdentity h)

namespace Frame

lemma refl (c : Catalog) : Frame c c := ⟨rfl, fun uid _ h => ⟨uid, h⟩, fun _ => rfl, fun _ => rfl⟩

lemma trans {c c' c'' : Catalog} (h : Frame c c') (h' : Frame c' c'') : Frame c c'' where
  files := h'.files.trans h.files
  overrides uid r hr := by
    obtain ⟨uid', hr'⟩ := h'.overrides uid r hr
    exact h.overrides uid' r hr'
  record uid := (h'.record uid).trans (h.record uid)
  identity k := (h'.identity k).trans (h.identity k)

/-- A loop of framed steps is framed. -/
lemma foldl {α : Type*} {f : Catalog → α → Catalog} (hf : ∀ c a, Frame c (f c a)) :
    ∀ (as : List α) (c : Catalog), Frame c (as.foldl f c)
  | [], c => refl c
  | a :: as, c => (hf c a).trans (foldl hf as _)

end Frame

/-! ## Markers -/

lemma frame_mark (c : Catalog) {key : DirtyKey} (hkey : DirtyKey.IsState key) (marker : Marker) :
    Frame c (c.mark key marker) where
  files := rfl
  overrides uid _ h := ⟨uid, h⟩
  record _ := rfl
  identity h := AList.lookup_insert_ne (by rintro rfl; exact hkey)

/-- A write of framed tables, then its trigger. -/
lemma Frame.markWhen {c c' : Catalog} {cond : Bool} {key : DirtyKey} {marker : Marker}
    (h : Frame c c') (hkey : DirtyKey.IsState key) : Frame c (c'.markWhen cond key marker) := by
  unfold Catalog.markWhen
  split
  · exact h.trans (frame_mark c' hkey marker)
  · exact h

/-! ## Row writes -/

section

variable (jsonReal : ℚ → Value)

/-- Replacing tables outside the frame. -/
lemma Frame.of_eq {c c' : Catalog} (hf : c'.files = c.files) (ho : c'.overrides = c.overrides)
    (hr : c'.records = c.records) (hd : c'.dirty = c.dirty) : Frame c c' where
  files := hf
  overrides uid r hr := ⟨uid, ho ▸ hr⟩
  record uid := by rw [hasRecord, hasRecord, hr]
  identity h := by rw [hd]

lemma frame_putAnnotation (c : Catalog) (id : ℤ) (r : AnnotationRow) :
    Frame c (c.putAnnotation jsonReal id r) := by
  unfold putAnnotation
  exact Frame.markWhen (Frame.of_eq rfl rfl rfl rfl) trivial

lemma frame_putProgress (c : Catalog) (uid : String) (r : ProgressRow) :
    Frame c (c.putProgress jsonReal uid r) := by
  unfold putProgress
  exact Frame.markWhen (Frame.of_eq rfl rfl rfl rfl) trivial

lemma frame_deleteProgress (c : Catalog) (uid : String) :
    Frame c (c.deleteProgress jsonReal uid) := by
  unfold deleteProgress
  split
  · exact Frame.markWhen (Frame.of_eq rfl rfl rfl rfl) trivial
  · exact Frame.refl c

lemma frame_markMetadata (c : Catalog) (uid : String) : Frame c (c.markMetadata jsonReal uid) := by
  unfold markMetadata
  split
  · exact frame_mark c (by trivial) _
  · exact Frame.refl c

lemma frame_markList (c : Catalog) (list : BookList) (uid : String) :
    Frame c (c.markList jsonReal list uid) := by
  unfold markList
  split
  · exact frame_markMetadata jsonReal c uid
  · exact Frame.refl c

lemma frame_deleteList (c : Catalog) (list : BookList) (uid : String) :
    Frame c (c.deleteList jsonReal list uid) := by
  unfold deleteList
  have herase : Frame c { c with bookLists := c.bookLists.erase (list, uid) } :=
    Frame.of_eq rfl rfl rfl rfl
  dsimp only
  split
  · exact herase
  · exact herase.trans (frame_markList jsonReal _ list uid)

lemma frame_insertName (list : BookList) (uid : String) (c : Catalog) (name : String) :
    Frame c (insertName jsonReal list uid c name).1 := by
  have hput : Frame c { c with
      bookLists := c.bookLists.insert (list, uid) (c.listOf list uid ++ [name]) } :=
    Frame.of_eq rfl rfl rfl rfl
  unfold insertName
  split_ifs
  · exact Frame.refl c
  · exact hput.trans (frame_markList jsonReal _ list uid)
  · exact Frame.refl c

lemma frame_moveList (c : Catalog) (list : BookList) (loser winner : String) :
    Frame c (c.moveList jsonReal list loser winner) := by
  unfold moveList
  have hmove : Frame c { c with
      bookLists := (c.bookLists.erase (list, loser)).insert (list, winner)
        (c.listOf list loser) } :=
    Frame.of_eq rfl rfl rfl rfl
  dsimp only
  split
  · exact hmove
  · exact hmove.trans (frame_markList jsonReal _ list winner)

lemma frame_putMembership (c : Catalog) (uid : String) (collection : ℤ) (addedAt : String) :
    Frame c (c.putMembership uid collection addedAt) := by
  unfold putMembership
  exact Frame.markWhen (Frame.of_eq rfl rfl rfl rfl) trivial

/-! ## Metadata -/

lemma frame_replaceList (c : Catalog) (list : BookList) (uid : String) (names : List String) :
    Frame c (c.replaceList jsonReal list uid names).1 :=
  Fallible.each_inv (P := Frame c)
    (fun _ name h => h.trans (frame_insertName jsonReal list uid _ name)) names _
    (frame_deleteList jsonReal c list uid)

lemma frame_followSource (c : Catalog) (list : BookList) (uid : String) (o : OverrideRow)
    (s : SourceMetadata) : Frame c (c.followSource jsonReal list uid o s).1 := by
  unfold followSource
  split
  · exact Frame.refl c
  · exact frame_replaceList jsonReal c list uid _

/-- Rewriting a record that exists keeps the set of records. -/
lemma hasRecord_insert {c : Catalog} {uid : String} {r : RecordRow}
    (h : c.records.lookup uid = some r) (r' : RecordRow) (uid' : String) :
    ({ c with records := c.records.insert uid r' } : Catalog).hasRecord uid' =
      c.hasRecord uid' := by
  unfold hasRecord
  rw [Table.lookup_insert']
  by_cases heq : uid' = uid
  · rw [if_pos heq, heq, h]
    rfl
  · rw [if_neg heq]

lemma frame_applyEffective (c : Catalog) (uid : String) (v : EffectiveValues) :
    Frame c (c.applyEffective uid v) := by
  unfold applyEffective
  split
  · next r hr => exact ⟨rfl, fun uid _ h => ⟨uid, h⟩, hasRecord_insert hr _, fun _ => rfl⟩
  · exact Frame.refl c

lemma frame_recomputeEffective (c : Catalog) (uid : String) (s : SourceMetadata) :
    Frame c (c.recomputeEffective jsonReal uid s).1 := by
  unfold recomputeEffective
  refine Fallible.andThen_inv (P := Frame c) (frame_followSource jsonReal c _ _ _ _)
    fun c' _ h => Fallible.andThen_inv (P := Frame c)
      (h.trans (frame_followSource jsonReal c' _ _ _ _)) fun c'' _ h' => ?_
  split
  · exact h'
  · exact h'.trans (frame_applyEffective _ _ _)

/-- Recomputing metadata keeps the frame. -/
theorem frame_recomputePrimary (c : Catalog) (uid : String) :
    Frame c (c.recomputePrimary jsonReal uid).1 := by
  unfold recomputePrimary
  split
  · exact frame_recomputeEffective jsonReal c _ _
  · exact Frame.refl c

/-! ## Folding a book -/

lemma frame_moveAnnotations (c : Catalog) (loser winner : String) :
    Frame c (c.moveAnnotations jsonReal loser winner) :=
  Frame.foldl (fun c _ => frame_putAnnotation jsonReal c _ _) _ c

lemma frame_dropOlderProgress (c : Catalog) (loser winner : String) :
    Frame c (c.dropOlderProgress jsonReal loser winner) := by
  unfold dropOlderProgress
  split
  · split
    · exact frame_deleteProgress jsonReal c winner
    · exact Frame.refl c
  · exact Frame.refl c

lemma frame_moveProgress (c : Catalog) (loser winner : String) :
    Frame c (c.moveProgress jsonReal loser winner) := by
  unfold moveProgress
  split
  · exact Frame.refl c
  · exact frame_deleteProgress jsonReal c loser
  · have herase : Frame c { c with progress := c.progress.erase loser } :=
      Frame.of_eq rfl rfl rfl rfl
    exact herase.trans (frame_putProgress jsonReal _ _ _)

lemma frame_refreshRecord (c : Catalog) (winner : String) :
    Frame c (c.refreshRecord winner) := by
  unfold refreshRecord
  split
  · next r hr => exact ⟨rfl, fun uid _ h => ⟨uid, h⟩, hasRecord_insert hr _, fun _ => rfl⟩
  · exact Frame.refl c

lemma frame_mergeMemberships (c : Catalog) (loser winner : String) :
    Frame c (c.mergeMemberships loser winner) := by
  refine Frame.foldl (fun c e => ?_) _ c
  split
  · exact Frame.refl c
  · exact frame_putMembership c _ _ _

lemma frame_clearOverrides (c : Catalog) (uid : String) : Frame c (c.clearOverrides uid) := by
  unfold clearOverrides
  split
  · refine Frame.markWhen ⟨rfl, fun uid' r h => ?_, fun _ => rfl, fun _ => rfl⟩ trivial
    rw [Table.lookup_erase'] at h
    split at h
    · cases h
    · exact ⟨uid', h⟩
  · exact Frame.refl c

/-- Moving an override row that was there. -/
lemma frame_moveOverrides {c c' : Catalog} (hc : Frame c c') {loser : String} {r : OverrideRow}
    (hr : c.overrides.lookup loser = some r) (winner : String) :
    Frame c ({ c' with overrides := c'.overrides.erase loser }.upsertOverrides jsonReal
      winner r) := by
  have hput : Frame c { c' with overrides := (c'.overrides.erase loser).insert winner r } := by
    refine ⟨hc.files, fun uid r' h => ?_, hc.record, hc.identity⟩
    rw [Table.lookup_insert', Table.lookup_erase'] at h
    split_ifs at h
    · exact ⟨loser, hr.trans h⟩
    · exact hc.overrides uid r' h
  unfold upsertOverrides
  dsimp only
  split
  · exact hput.trans (frame_markMetadata jsonReal _ winner)
  · exact hput

lemma frame_mergeOverrides (c : Catalog) (loser winner : String) :
    Frame c (c.mergeOverrides jsonReal loser winner) := by
  unfold mergeOverrides
  split
  · exact Frame.refl c
  · next r hr =>
    split
    · have hclear := ((frame_deleteList jsonReal c .authors winner).trans
        (frame_deleteList jsonReal _ .subjects winner)).trans (frame_clearOverrides _ winner)
      exact ((frame_moveOverrides jsonReal hclear hr winner).trans
        (frame_moveList jsonReal _ .authors loser winner)).trans
        (frame_moveList jsonReal _ .subjects loser winner)
    · exact Frame.refl c

/-! ### The whole fold -/

/-- What folding one book into another does to the framed tables. -/
structure Folded (loser winner : String) (c c' : Catalog) : Prop where
  files : c'.files = (c.moveFiles loser winner).files
  overrides : ∀ uid r, c'.overrides.lookup uid = some r → ∃ uid', c.overrides.lookup uid' = some r
  record : ∀ uid, c'.hasRecord uid =
    (uid != loser && (c.hasRecord uid || (uid == winner && c.hasRecord loser)))
  identity : ∀ h, c'.dirty.lookup (.bookIdentity h) = c.dirty.lookup (.bookIdentity h)

lemma hasRecord_markWhen (c : Catalog) (cond : Bool) (key : DirtyKey) (marker : Marker)
    (uid : String) : (c.markWhen cond key marker).hasRecord uid = c.hasRecord uid := by
  unfold markWhen mark
  split <;> rfl

lemma hasRecord_insert_eq (c : Catalog) (winner uid : String) (r : RecordRow) :
    ({ c with records := c.records.insert winner r } : Catalog).hasRecord uid =
      (uid == winner || c.hasRecord uid) := by
  unfold hasRecord
  rw [Table.lookup_insert']
  by_cases h : uid = winner <;> simp [h]

/-- The folded record exists when one of the two did. -/
lemma hasRecord_mergeRecord (c : Catalog) (loser winner uid : String) :
    (c.mergeRecord loser winner).hasRecord uid =
      (c.hasRecord uid || (uid == winner && c.hasRecord loser)) := by
  unfold mergeRecord
  dsimp only
  split
  · next hnone =>
    have hl : c.hasRecord loser = false := by
      unfold hasRecord
      cases hw : c.records.lookup winner <;> cases hl : c.records.lookup loser <;>
        simp [mergedRecord, hw, hl] at hnone ⊢
    simp [hl]
  · next r hr =>
    have hsome : (c.hasRecord winner || c.hasRecord loser) = true := by
      unfold hasRecord
      cases hw : c.records.lookup winner <;> cases hl : c.records.lookup loser <;>
        simp [mergedRecord, hw, hl] at hr ⊢
    rw [hasRecord_markWhen, hasRecord_insert_eq]
    by_cases h : uid = winner
    · simp only [h, beq_self_eq_true, Bool.true_or, Bool.true_and]
      exact hsome.symm
    · rw [beq_eq_false_iff_ne.mpr h, Bool.false_or, Bool.false_and, Bool.or_false]

/-- Folding the record leaves the rest of the framed tables alone. -/
lemma tables_mergeRecord (c : Catalog) (loser winner : String) :
    (c.mergeRecord loser winner).files = c.files ∧
      (c.mergeRecord loser winner).overrides = c.overrides ∧
      ∀ h, (c.mergeRecord loser winner).dirty.lookup (.bookIdentity h) =
        c.dirty.lookup (.bookIdentity h) := by
  unfold mergeRecord
  dsimp only
  split
  · exact ⟨rfl, rfl, fun _ => rfl⟩
  · unfold markWhen mark
    split
    · exact ⟨rfl, rfl, fun _ => AList.lookup_insert_ne (by simp)⟩
    · exact ⟨rfl, rfl, fun _ => rfl⟩

lemma frame_moveUserState (c : Catalog) (loser winner : String) :
    Frame c (c.moveUserState jsonReal loser winner) :=
  (((((frame_moveAnnotations jsonReal c loser winner).trans
    (frame_dropOlderProgress jsonReal _ loser winner)).trans
    (frame_moveProgress jsonReal _ loser winner)).trans (frame_refreshRecord _ winner)).trans
    (frame_mergeOverrides jsonReal _ loser winner)).trans (frame_mergeMemberships _ loser winner)

lemma folded_deleteRecord {c c' : Catalog} {loser winner : String}
    (h : Frame ((c.mergeRecord loser winner).moveFiles loser winner) c') :
    Folded loser winner c (c'.deleteRecord loser) := by
  obtain ⟨hfiles, hoverrides, hidentity⟩ := tables_mergeRecord c loser winner
  refine ⟨?_, fun uid r hr => ?_, fun uid => ?_, fun k => (h.identity k).trans (hidentity k)⟩
  · refine h.files.trans ?_
    unfold moveFiles
    rw [hfiles]
  · replace hr : (c'.overrides.erase loser).lookup uid = some r := hr
    rw [Table.lookup_erase'] at hr
    split at hr
    · cases hr
    · obtain ⟨uid', hr'⟩ := h.overrides uid r hr
      exact ⟨uid', hoverrides ▸ hr'⟩
  · have hdelete : (c'.deleteRecord loser).hasRecord uid =
        (uid != loser && c'.hasRecord uid) := by
      change ((c'.records.erase loser).lookup uid).isSome = _
      rw [Table.lookup_erase']
      by_cases huid : uid = loser <;> simp [huid, hasRecord]
    rw [hdelete, h.record]
    exact congrArg _ (hasRecord_mergeRecord c loser winner uid)

/-- Folding one book into another moves its file rows and its record and nothing else of the
framed tables. -/
theorem folded_mergeBook (c : Catalog) (loser winner : String) :
    Folded loser winner c (c.mergeBook jsonReal loser winner) :=
  folded_deleteRecord (frame_moveUserState jsonReal _ loser winner)

end

end Catalog

end TuxBooks
