import TuxBooks.Catalog.Recompute

set_option relaxedAutoImplicit false
set_option autoImplicit false

/-!
# The tables without their markers

What a write does to the rows of the catalog, with the dirty markers left out: each write changes
one table, and recomputing metadata changes the record and the lists of one book.

## Main definitions

* `TuxBooks.Catalog.plain` — the catalog without its markers.
* `TuxBooks.Catalog.Recomputed` — what recomputing the metadata of a book may change.

## Main results

* `TuxBooks.Catalog.plain_putAnnotation` and its like — one write, one table.
* `TuxBooks.Catalog.recomputed_recomputePrimary` — recomputing changes the record and the lists of
  its book only.
-/

namespace TuxBooks

open Fallible

namespace Catalog

/-- The catalog without its markers. -/
def plain (c : Catalog) : Catalog := { c with dirty := ∅ }

variable (jsonReal : ℚ → Value) (c : Catalog)

@[simp] lemma plain_mark (key : DirtyKey) (marker : Marker) : (c.mark key marker).plain = c.plain :=
  rfl

@[simp] lemma plain_markWhen (cond : Bool) (key : DirtyKey) (marker : Marker) :
    (c.markWhen cond key marker).plain = c.plain := by
  unfold markWhen
  split <;> rfl

@[simp] lemma plain_markMetadata (uid : String) :
    (c.markMetadata jsonReal uid).plain = c.plain := by
  unfold markMetadata
  split <;> rfl

@[simp] lemma plain_markList (list : BookList) (uid : String) :
    (c.markList jsonReal list uid).plain = c.plain := by
  unfold markList
  split
  · exact plain_markMetadata jsonReal c uid
  · rfl

/-! ## Row writes -/

lemma plain_putAnnotation (id : ℤ) (r : AnnotationRow) :
    (c.putAnnotation jsonReal id r).plain =
      { c.plain with annotations := c.plain.annotations.insert id r } := by
  unfold putAnnotation
  rw [plain_markWhen]
  rfl

/-- Deleting a key that is not there. -/
lemma erase_of_lookup_none {κ ρ : Type} [DecidableEq κ] {t : Table κ ρ} {k : κ}
    (h : t.lookup k = none) : t.erase k = t :=
  AList.ext (List.kerase_of_notMem_keys (AList.lookup_eq_none.mp h))

lemma plain_deleteAnnotation (id : ℤ) :
    (c.deleteAnnotation jsonReal id).plain =
      { c.plain with annotations := c.plain.annotations.erase id } := by
  unfold deleteAnnotation
  split
  · rw [plain_markWhen]
    rfl
  · next h =>
    exact congrArg (fun t => { c.plain with annotations := t }) (erase_of_lookup_none h).symm

lemma plain_putProgress (uid : String) (r : ProgressRow) :
    (c.putProgress jsonReal uid r).plain =
      { c.plain with progress := c.plain.progress.insert uid r } := by
  rw [putProgress, plain_markWhen]
  rfl

lemma plain_deleteProgress (uid : String) :
    (c.deleteProgress jsonReal uid).plain =
      { c.plain with progress := c.plain.progress.erase uid } := by
  unfold deleteProgress
  split
  · rw [plain_markWhen]
    rfl
  · next h =>
    exact congrArg (fun t => { c.plain with progress := t }) (erase_of_lookup_none h).symm

lemma plain_upsertOverrides (uid : String) (r : OverrideRow) :
    (c.upsertOverrides jsonReal uid r).plain =
      { c.plain with overrides := c.plain.overrides.insert uid r } := by
  unfold upsertOverrides
  dsimp only
  split
  · rw [plain_markMetadata]
    rfl
  · rfl

lemma plain_clearOverrides (uid : String) :
    (c.clearOverrides uid).plain = { c.plain with overrides := c.plain.overrides.erase uid } := by
  unfold clearOverrides
  split
  · rw [plain_markWhen]
    rfl
  · next h =>
    exact congrArg (fun t => { c.plain with overrides := t }) (erase_of_lookup_none h).symm

lemma plain_putMembership (uid : String) (collection : ℤ) (addedAt : String) :
    (c.putMembership uid collection addedAt).plain =
      { c.plain with
        bookCollections := c.plain.bookCollections.insert (uid, collection) addedAt } := by
  rw [putMembership, plain_markWhen]
  rfl

lemma plain_deleteMembership (uid : String) (collection : ℤ) :
    (c.deleteMembership uid collection).plain =
      { c.plain with bookCollections := c.plain.bookCollections.erase (uid, collection) } := by
  unfold deleteMembership
  split
  · rw [plain_markWhen]
    rfl
  · next h =>
    exact congrArg (fun t => { c.plain with bookCollections := t }) (erase_of_lookup_none h).symm

lemma plain_deleteList (list : BookList) (uid : String) :
    (c.deleteList jsonReal list uid).plain =
      { c.plain with bookLists := c.plain.bookLists.erase (list, uid) } := by
  unfold deleteList
  dsimp only
  split
  · rfl
  · rw [plain_markList]
    rfl

lemma plain_foldl_deleteAnnotation {α : Type} (id : α → ℤ) (as : List α) (c : Catalog) :
    (as.foldl (fun c a => c.deleteAnnotation jsonReal (id a)) c).plain =
      { c.plain with
        annotations := as.foldl (fun t a => t.erase (id a)) c.plain.annotations } := by
  induction as generalizing c with
  | nil => rfl
  | cons a as ih =>
    rw [List.foldl_cons, ih, plain_deleteAnnotation]
    rfl

lemma plain_foldl_deleteMembership {α : Type} (uid : String) (id : α → ℤ) (as : List α)
    (c : Catalog) :
    (as.foldl (fun c a => c.deleteMembership uid (id a)) c).plain =
      { c.plain with
        bookCollections := as.foldl (fun t a => t.erase (uid, id a)) c.plain.bookCollections } := by
  induction as generalizing c with
  | nil => rfl
  | cons a as ih =>
    rw [List.foldl_cons, ih, plain_deleteMembership]
    rfl

/-! ## Lists and effective metadata -/

/-- What recomputing the metadata of a book may change: its lists, and the metadata columns of its
record. -/
structure Recomputed (uid : String) (c c' : Catalog) : Prop where
  plain : c'.plain = { c.plain with records := c'.records, bookLists := c'.bookLists }
  lists : ∀ list u, u ≠ uid → c'.listOf list u = c.listOf list u
  other : ∀ u, u ≠ uid → c'.records.lookup u = c.records.lookup u
  row : ∀ r, c.records.lookup uid = some r → ∃ values seriesId,
    c'.records.lookup uid = some { r with values := values, seriesId := seriesId }
  record : ∀ u, c'.hasRecord u = c.hasRecord u

variable {jsonReal c} {c' c'' : Catalog} {uid : String}

lemma Recomputed.refl (uid : String) (c : Catalog) : Recomputed uid c c :=
  ⟨rfl, fun _ _ _ => rfl, fun _ _ => rfl, fun r h => ⟨r.values, r.seriesId, h⟩, fun _ => rfl⟩

lemma Recomputed.trans (h : Recomputed uid c c') (h' : Recomputed uid c' c'') :
    Recomputed uid c c'' where
  plain := by
    rw [h'.plain, h.plain]
  lists list u hu := (h'.lists list u hu).trans (h.lists list u hu)
  other u hu := (h'.other u hu).trans (h.other u hu)
  row r hr := by
    obtain ⟨_, _, hrow⟩ := h.row r hr
    obtain ⟨values, seriesId, hrow'⟩ := h'.row _ hrow
    exact ⟨values, seriesId, hrow'⟩
  record u := (h'.record u).trans (h.record u)

/-- A table of the catalog can be read without the markers. -/
lemma Recomputed.of_lists (hplain : c'.plain = { c.plain with bookLists := c'.bookLists })
    (hlists : ∀ list u, u ≠ uid → c'.listOf list u = c.listOf list u) : Recomputed uid c c' := by
  have hrecords : c'.plain.records = c.plain.records := by rw [hplain]
  replace hrecords : c'.records = c.records := hrecords
  refine ⟨?_, hlists, fun u _ => by rw [hrecords], fun r hr => ⟨r.values, r.seriesId, ?_⟩,
    fun u => ?_⟩
  · rw [hplain, hrecords]
    rfl
  · rw [hrecords, hr]
  · rw [hasRecord, hasRecord, hrecords]

variable (jsonReal) in
lemma bookLists_deleteList (c : Catalog) (list : BookList) (uid : String) :
    (c.deleteList jsonReal list uid).bookLists = c.bookLists.erase (list, uid) := by
  change (c.deleteList jsonReal list uid).plain.bookLists = _
  rw [plain_deleteList]
  rfl

variable (jsonReal) in
lemma recomputed_deleteList (c : Catalog) (list : BookList) (uid : String) :
    Recomputed uid c (c.deleteList jsonReal list uid) := by
  refine Recomputed.of_lists ?_ fun list' u hu => ?_
  · rw [plain_deleteList, bookLists_deleteList]
    rfl
  · rw [listOf, bookLists_deleteList, Table.lookup_erase', if_neg fun h => hu (congrArg Prod.snd h)]
    rfl

variable (jsonReal) in
lemma recomputed_insertName (c : Catalog) (list : BookList) (uid name : String) :
    Recomputed uid c (insertName jsonReal list uid c name).1 := by
  unfold insertName
  split_ifs
  · exact Recomputed.refl uid c
  · refine Recomputed.of_lists ?_ fun list' u hu => ?_
    · rw [plain_markList, bookLists_markList]
      rfl
    · rw [listOf, bookLists_markList]
      dsimp only
      rw [Table.lookup_insert', if_neg fun h => hu (congrArg Prod.snd h)]
      rfl
  · exact Recomputed.refl uid c

variable (jsonReal) in
lemma recomputed_replaceList (c : Catalog) (list : BookList) (uid : String) (names : List String) :
    Recomputed uid c (c.replaceList jsonReal list uid names).1 :=
  Fallible.each_inv (P := Recomputed uid c)
    (fun c' name h => h.trans (recomputed_insertName jsonReal c' list uid name)) names _
    (recomputed_deleteList jsonReal c list uid)

variable (jsonReal) in
lemma recomputed_followSource (c : Catalog) (list : BookList) (uid : String) (o : OverrideRow)
    (source : SourceMetadata) :
    Recomputed uid c (c.followSource jsonReal list uid o source).1 := by
  unfold followSource
  split
  · exact Recomputed.refl uid c
  · exact recomputed_replaceList jsonReal c list uid _

lemma recomputed_applyEffective (c : Catalog) (uid : String) (values : EffectiveValues) :
    Recomputed uid c (c.applyEffective uid values) := by
  unfold applyEffective
  split
  · next r hr =>
    refine ⟨rfl, fun _ _ _ => rfl, fun u hu => ?_, fun r' hr' => ⟨values, values.series, ?_⟩,
      hasRecord_insert hr _⟩
    · dsimp only
      rw [Table.lookup_insert', if_neg hu]
    · obtain rfl : r = r' := Option.some.inj (hr.symm.trans hr')
      dsimp only
      rw [Table.lookup_insert', if_pos rfl]
  · exact Recomputed.refl uid c

variable (jsonReal) in
lemma recomputed_recomputeEffective (c : Catalog) (uid : String) (source : SourceMetadata) :
    Recomputed uid c (c.recomputeEffective jsonReal uid source).1 := by
  unfold recomputeEffective
  refine andThen_inv (P := Recomputed uid c) (recomputed_followSource jsonReal c _ _ _ _)
    fun c' _ h => andThen_inv (P := Recomputed uid c)
      (h.trans (recomputed_followSource jsonReal c' _ _ _ _)) fun c'' _ h' => ?_
  split
  · exact h'
  · exact h'.trans (recomputed_applyEffective _ _ _)

variable (jsonReal) in
/-- **Recomputing metadata changes the record and the lists of its book only.** -/
theorem recomputed_recomputePrimary (c : Catalog) (uid : String) :
    Recomputed uid c (c.recomputePrimary jsonReal uid).1 := by
  unfold recomputePrimary
  split
  · exact recomputed_recomputeEffective jsonReal c _ _
  · exact Recomputed.refl uid c

/-! ### Replacing a list -/

end Catalog

end TuxBooks
