import TuxBooks.Catalog.Frame

set_option relaxedAutoImplicit false
set_option autoImplicit false

/-!
# When recomputing metadata succeeds

The effective metadata of a durable book can fail on three counts: a list names somebody twice, a
list belongs to a book without a record, or no title is left.

## Main definitions

* `TuxBooks.Catalog.Recomputable` — the effective metadata of a book can be computed.
* `TuxBooks.Catalog.Sound` — the metadata of every book can be recomputed.

## Main results

* `TuxBooks.Catalog.recomputeEffective_ok_iff`, `TuxBooks.Catalog.recomputePrimary_ok_iff` — when
  recomputing succeeds.
* `TuxBooks.Catalog.Sound.recomputePrimary_ok` — it always does in a sound catalog.
-/

namespace TuxBooks

open Fallible

namespace Catalog

variable (jsonReal : ℚ → Value)

/-! ## Lists -/

lemma bookLists_markMetadata (c : Catalog) (uid : String) :
    (c.markMetadata jsonReal uid).bookLists = c.bookLists := by
  unfold markMetadata
  split <;> rfl

lemma bookLists_markList (c : Catalog) (list : BookList) (uid : String) :
    (c.markList jsonReal list uid).bookLists = c.bookLists := by
  unfold markList
  split
  · exact bookLists_markMetadata jsonReal c uid
  · rfl

lemma listOf_deleteList (c : Catalog) (list : BookList) (uid : String) :
    (c.deleteList jsonReal list uid).listOf list uid = [] := by
  have herase : (c.bookLists.erase (list, uid)).lookup (list, uid) = none := by
    rw [Table.lookup_erase', if_pos rfl]
  unfold deleteList listOf
  dsimp only
  split
  · rw [herase]
    rfl
  · rw [bookLists_markList, herase]
    rfl

/-- An insert that succeeds adds its name at the end. -/
lemma listOf_insertName {list : BookList} {uid : String} {c : Catalog} {name : String}
    (h : (insertName jsonReal list uid c name).2 = .ok ()) :
    (insertName jsonReal list uid c name).1.listOf list uid = c.listOf list uid ++ [name] := by
  unfold insertName at h ⊢
  split_ifs at h ⊢
  rw [listOf, bookLists_markList]
  dsimp only
  rw [Table.lookup_insert', if_pos rfl]
  rfl

lemma insertName_ok_iff (list : BookList) (uid : String) (c : Catalog) (name : String) :
    (insertName jsonReal list uid c name).2 = .ok () ↔
      name ∉ c.listOf list uid ∧ c.hasRecord uid = true := by
  unfold insertName
  by_cases hmem : name ∈ c.listOf list uid
  · simp [hmem]
  · by_cases hrecord : c.hasRecord uid = true <;> simp [hmem, hrecord]

/-- A list can be inserted when it names nobody twice and nobody that is there already. -/
lemma insertNames_ok_iff (list : BookList) (uid : String) (names : List String) (c : Catalog) :
    (each (insertName jsonReal list uid) c names).2 = .ok () ↔
      names.Nodup ∧ (∀ name ∈ names, name ∉ c.listOf list uid) ∧
        (names ≠ [] → c.hasRecord uid = true) := by
  induction names generalizing c with
  | nil => simp
  | cons name names ih =>
    rw [each_cons, andThen_eq_ok]
    constructor
    · rintro ⟨_, hok, hrest⟩
      obtain ⟨hnodup, hnew, -⟩ := (ih _).mp hrest
      obtain ⟨hname, hrecord⟩ := (insertName_ok_iff jsonReal list uid c name).mp hok
      rw [listOf_insertName jsonReal hok] at hnew
      refine ⟨List.nodup_cons.mpr ⟨fun hmem => ?_, hnodup⟩, fun x hx => ?_, fun _ => hrecord⟩
      · exact hnew name hmem (by simp)
      · rcases List.mem_cons.mp hx with rfl | hx
        · exact hname
        · exact fun hmem => hnew x hx (List.mem_append_left _ hmem)
    · rintro ⟨hnodup, hnew, hrecord⟩
      obtain ⟨hname, hnodup⟩ := List.nodup_cons.mp hnodup
      have hok : (insertName jsonReal list uid c name).2 = .ok () :=
        (insertName_ok_iff jsonReal list uid c name).mpr
          ⟨hnew name List.mem_cons_self, hrecord (List.cons_ne_nil _ _)⟩
      refine ⟨(), hok, (ih _).mpr ⟨hnodup, fun x hx hmem => ?_, fun _ => ?_⟩⟩
      · rw [listOf_insertName jsonReal hok] at hmem
        rcases List.mem_append.mp hmem with hmem | hmem
        · exact hnew x (List.mem_cons_of_mem _ hx) hmem
        · exact hname (List.mem_singleton.mp hmem ▸ hx)
      · rw [(frame_insertName jsonReal list uid c name).record]
        exact hrecord (List.cons_ne_nil _ _)

/-- The rows of a list can be stored: nobody is named twice, and the book has its record. -/
def Storable (c : Catalog) (uid : String) (names : List String) : Prop :=
  names.Nodup ∧ (names ≠ [] → c.hasRecord uid = true)

instance (c : Catalog) (uid : String) (names : List String) : Decidable (c.Storable uid names) :=
  inferInstanceAs (Decidable (_ ∧ (_ → _)))

/-- Replacing a list succeeds when the new rows can be stored. -/
lemma replaceList_ok_iff (c : Catalog) (list : BookList) (uid : String) (names : List String) :
    (c.replaceList jsonReal list uid names).2 = .ok () ↔ c.Storable uid names := by
  unfold replaceList Storable
  rw [insertNames_ok_iff, listOf_deleteList, (frame_deleteList jsonReal c list uid).record]
  simp

lemma followSource_ok_iff (c : Catalog) (list : BookList) (uid : String) (o : OverrideRow)
    (source : SourceMetadata) : (c.followSource jsonReal list uid o source).2 = .ok () ↔
      (o.customized list = false → c.Storable uid (source.names list)) := by
  unfold followSource
  split_ifs with ho
  · simp [ho]
  · rw [replaceList_ok_iff]
    simp [ho]

/-! ## Effective metadata -/

/-- The effective metadata of a book can be computed from a source. -/
structure Recomputable (c : Catalog) (uid : String) (o : OverrideRow) (source : SourceMetadata) :
    Prop where
  lists : ∀ list, o.customized list = false → c.Storable uid (source.names list)
  title : trim (rawTitle o source) ≠ ""

lemma cleanRequired_ok_iff (value field : String) :
    (∃ title, cleanRequired value field = .ok title) ↔ trim value ≠ "" := by
  unfold cleanRequired
  split_ifs with h <;> simp [h]

/-- **Recomputing succeeds** when the lists that follow the file can be stored and a title is
left. -/
theorem recomputeEffective_ok_iff (c : Catalog) (uid : String) (source : SourceMetadata) :
    (c.recomputeEffective jsonReal uid source).2 = .ok () ↔
      c.Recomputable uid ((c.overrides.lookup uid).getD {}) source := by
  unfold recomputeEffective
  generalize (c.overrides.lookup uid).getD {} = o
  have hrecord : (c.followSource jsonReal .authors uid o source).1.hasRecord uid =
      c.hasRecord uid := (frame_followSource jsonReal c .authors uid o source).record uid
  have hstorable : ∀ names, (c.followSource jsonReal .authors uid o source).1.Storable uid names ↔
      c.Storable uid names := by
    intro names
    unfold Storable
    rw [hrecord]
  dsimp only
  rw [andThen_eq_ok]
  constructor
  · rintro ⟨_, hauthors, hrest⟩
    obtain ⟨_, hsubjects, hrest⟩ := andThen_eq_ok.mp hrest
    rw [followSource_ok_iff] at hauthors hsubjects
    rw [hstorable] at hsubjects
    refine ⟨fun list => ?_, ?_⟩
    · cases list with
      | authors => exact hauthors
      | subjects => exact hsubjects
    · rw [← cleanRequired_ok_iff _ "title"]
      split at hrest
      · cases hrest
      · next title htitle => exact ⟨title, htitle⟩
  · intro h
    refine ⟨(), (followSource_ok_iff jsonReal ..).mpr (h.lists .authors), andThen_eq_ok.mpr
      ⟨(), (followSource_ok_iff jsonReal ..).mpr ?_, ?_⟩⟩
    · rw [hstorable]
      exact h.lists .subjects
    · obtain ⟨title, htitle⟩ := (cleanRequired_ok_iff _ "title").mpr h.title
      rw [htitle]

/-- Recomputing from the primary file, for a book that has one. -/
lemma recomputePrimary_ok_iff (c : Catalog) (uid : String) :
    (c.recomputePrimary jsonReal uid).2 = .ok () ↔
      ∀ file, c.primaryFile uid = some file →
        c.Recomputable uid ((c.overrides.lookup uid).getD {}) file.2.loadSource := by
  unfold recomputePrimary
  cases c.primaryFile uid with
  | none => simp
  | some file =>
    obtain ⟨i, f⟩ := file
    dsimp only
    rw [recomputeEffective_ok_iff]
    simp

/-! ## Sound catalogs -/

/-- Every file leaves a title and names nobody twice, points at a book with a record, and no
override blanks a title. -/
structure Sound (c : Catalog) : Prop where
  file : ∀ e ∈ c.files.entries, trim e.2.loadSource.title ≠ "" ∧
    e.2.loadSource.authors.Nodup ∧ e.2.loadSource.subjects.Nodup ∧
      (e.2.bookUid.all fun uid => c.hasRecord uid) = true
  override : ∀ e ∈ c.overrides.entries, (e.2.title.all fun title => trim title ≠ "") = true

instance (c : Catalog) : Decidable c.Sound :=
  decidable_of_iff ((∀ e ∈ c.files.entries, trim e.2.loadSource.title ≠ "" ∧
    e.2.loadSource.authors.Nodup ∧ e.2.loadSource.subjects.Nodup ∧
      (e.2.bookUid.all fun uid => c.hasRecord uid) = true) ∧
    ∀ e ∈ c.overrides.entries, (e.2.title.all fun title => trim title ≠ "") = true)
    ⟨fun h => ⟨h.1, h.2⟩, fun h => ⟨h.file, h.override⟩⟩

/-- The primary file of a book is one of its files. -/
lemma primaryFile_mem {c : Catalog} {uid : String} {i : ℤ} {f : FileRow}
    (h : c.primaryFile uid = some (i, f)) :
    (⟨i, f⟩ : Sigma fun _ : ℤ => FileRow) ∈ c.files.entries ∧ f.bookUid = some uid := by
  have hfold (pick : Option (ℤ × FileRow) → (Sigma fun _ : ℤ => FileRow) → Option (ℤ × FileRow))
      (hpick : ∀ best e, pick best e = best ∨ pick best e = some (e.1, e.2))
      (l : List (Sigma fun _ : ℤ => FileRow)) :
      ∀ best, l.foldl pick best = some (i, f) →
        best = some (i, f) ∨ (⟨i, f⟩ : Sigma fun _ : ℤ => FileRow) ∈ l := by
    induction l with
    | nil => exact fun best h => Or.inl h
    | cons e l ih =>
      intro best h
      rcases ih _ h with hbest | hmem
      · rcases hpick best e with hold | hnew
        · exact Or.inl (hold.symm.trans hbest)
        · cases hnew.symm.trans hbest
          exact Or.inr List.mem_cons_self
      · exact Or.inr (List.mem_cons_of_mem _ hmem)
  have hmem := hfold _ ?_ _ _ h
  · obtain hnone | hmem := hmem
    · cases hnone
    · obtain ⟨hmem, hbook⟩ := List.mem_filter.mp hmem
      exact ⟨hmem, by simpa using hbook⟩
  · rintro (_ | file) e
    · exact Or.inr rfl
    · dsimp only
      split_ifs
      · exact Or.inr rfl
      · exact Or.inl rfl

/-- The title of a file stays unless an override replaces it. -/
lemma rawTitle_ne {o : OverrideRow} {source : SourceMetadata} (hsource : trim source.title ≠ "")
    (hoverride : (o.title.all fun title => trim title ≠ "") = true) :
    trim (rawTitle o source) ≠ "" := by
  unfold rawTitle scalarValue
  cases htitle : o.title with
  | none =>
    have hne : source.title ≠ "" := by
      rintro heq
      exact hsource (by rw [heq]; rfl)
    simpa [Option.filter, hne] using hsource
  | some title =>
    rw [htitle] at hoverride
    have htrim : trim title ≠ "" := by simpa using hoverride
    have hne : title ≠ "" := by
      rintro heq
      exact htrim (by rw [heq]; rfl)
    simpa [hne] using htrim

namespace Sound

variable {c c' : Catalog} {l w : String}

lemma override_of_lookup (h : c.Sound) {uid : String} {r : OverrideRow}
    (hr : c.overrides.lookup uid = some r) : (r.title.all fun title => trim title ≠ "") = true :=
  h.override ⟨uid, r⟩ (Table.lookup_eq_some_iff.mp hr)

/-- **In a sound catalog recomputing succeeds.** -/
theorem recomputePrimary_ok (h : c.Sound) (uid : String) :
    (c.recomputePrimary jsonReal uid).2 = .ok () := by
  rw [recomputePrimary_ok_iff]
  rintro ⟨i, f⟩ hfile
  obtain ⟨hmem, hbook⟩ := primaryFile_mem hfile
  obtain ⟨htitle, hauthors, hsubjects, hrecord⟩ := h.file _ hmem
  have hrecord : c.hasRecord uid = true := by simpa [hbook] using hrecord
  refine ⟨fun list _ => ?_, rawTitle_ne htitle ?_⟩
  · cases list with
    | authors => exact ⟨hauthors, fun _ => hrecord⟩
    | subjects => exact ⟨hsubjects, fun _ => hrecord⟩
  · cases ho : c.overrides.lookup uid with
    | none => rfl
    | some o => exact h.override_of_lookup ho

lemma frame (h : c.Sound) (hframe : Frame c c') : c'.Sound where
  file e he := by
    rw [hframe.files] at he
    obtain ⟨htitle, hauthors, hsubjects, hrecord⟩ := h.file e he
    refine ⟨htitle, hauthors, hsubjects, ?_⟩
    simpa only [hframe.record] using hrecord
  override e he := by
    obtain ⟨uid', hr⟩ := hframe.overrides e.1 e.2 (Table.lookup_eq_some_iff.mpr he)
    exact h.override_of_lookup hr

/-- Folding one book into another keeps a catalog sound. -/
lemma folded (h : c.Sound) (hne : l ≠ w) (hfold : Folded l w c c') : c'.Sound where
  file e he := by
    obtain ⟨i, f'⟩ := e
    have hlookup := Table.lookup_eq_some_iff.mpr he
    rw [hfold.files, moveFiles] at hlookup
    dsimp only at hlookup
    rw [Table.lookup_mapRows] at hlookup
    obtain ⟨f, hf, rfl⟩ := Option.map_eq_some_iff.mp hlookup
    obtain ⟨htitle, hauthors, hsubjects, hrecord⟩ := h.file ⟨i, f⟩ (Table.lookup_eq_some_iff.mp hf)
    have hsource : FileRow.loadSource (if f.bookUid = some l then { f with bookUid := some w }
        else f) = f.loadSource := by
      split <;> rfl
    dsimp only
    rw [hsource]
    refine ⟨htitle, hauthors, hsubjects, ?_⟩
    by_cases hbook : f.bookUid = some l
    · rw [if_pos hbook]
      rw [hbook] at hrecord
      have hl : c.hasRecord l = true := by simpa using hrecord
      simp [hfold.record, hl, hne.symm]
    · rw [if_neg hbook]
      cases huid : f.bookUid with
      | none => rfl
      | some uid =>
        rw [huid] at hrecord hbook
        have hu : c.hasRecord uid = true := by simpa using hrecord
        have hul : uid ≠ l := fun heq => hbook (by rw [heq])
        simp [hfold.record, hu, hul]
  override e he := by
    obtain ⟨uid', hr⟩ := hfold.overrides e.1 e.2 (Table.lookup_eq_some_iff.mpr he)
    exact h.override_of_lookup hr

end Sound

/-! ## What recomputing leaves -/

section Owned

/-- Recomputing a book leaves its overrides, its record and the lists that the user owns. -/
structure KeepsOwned (uid : String) (o : OverrideRow) (c c' : Catalog) : Prop where
  overrides : c'.overrides = c.overrides
  records : ∀ uid, c'.hasRecord uid = c.hasRecord uid
  lists : ∀ list, o.customized list = true → c'.listOf list uid = c.listOf list uid

variable {jsonReal : ℚ → Value} {c c' c'' : Catalog} {uid : String} {o : OverrideRow}

lemma KeepsOwned.refl (uid : String) (o : OverrideRow) (c : Catalog) : KeepsOwned uid o c c :=
  ⟨rfl, fun _ => rfl, fun _ _ => rfl⟩

lemma KeepsOwned.trans (h : KeepsOwned uid o c c') (h' : KeepsOwned uid o c' c'') :
    KeepsOwned uid o c c'' :=
  ⟨h'.overrides.trans h.overrides, fun uid => (h'.records uid).trans (h.records uid),
    fun list hlist => (h'.lists list hlist).trans (h.lists list hlist)⟩

/-- What a change of one list leaves of the overrides and the other lists. -/
lemma tables_markList (c : Catalog) (list : BookList) (uid : String) :
    (c.markList jsonReal list uid).overrides = c.overrides ∧
      (c.markList jsonReal list uid).bookLists = c.bookLists := by
  refine ⟨?_, bookLists_markList jsonReal c list uid⟩
  unfold markList markMetadata
  split_ifs
  · split <;> rfl
  · rfl

lemma keepsOwned_deleteList {list : BookList} (hlist : o.customized list = false) :
    KeepsOwned uid o c (c.deleteList jsonReal list uid) := by
  refine ⟨?_, (frame_deleteList jsonReal c list uid).record, fun list' hlist' => ?_⟩
  · unfold deleteList
    dsimp only
    split_ifs
    · rfl
    · exact (tables_markList _ _ _).1
  · have hne : (list', uid) ≠ (list, uid) := by
      intro h
      cases h
      rw [hlist] at hlist'
      cases hlist'
    unfold deleteList listOf
    dsimp only
    split_ifs
    · rw [AList.lookup_erase_ne hne]
    · rw [(tables_markList _ _ _).2, AList.lookup_erase_ne hne]

lemma keepsOwned_insertName {list : BookList} (hlist : o.customized list = false) (name : String) :
    KeepsOwned uid o c (insertName jsonReal list uid c name).1 := by
  refine ⟨?_, (frame_insertName jsonReal list uid c name).record, fun list' hlist' => ?_⟩
  · unfold insertName
    split_ifs
    · rfl
    · exact (tables_markList _ _ _).1
    · rfl
  · have hne : (list', uid) ≠ (list, uid) := by
      intro h
      cases h
      rw [hlist] at hlist'
      cases hlist'
    unfold insertName
    split_ifs
    · rfl
    · unfold listOf
      rw [(tables_markList _ _ _).2, AList.lookup_insert_ne hne]
    · rfl

lemma keepsOwned_replaceList {list : BookList} (hlist : o.customized list = false)
    (names : List String) : KeepsOwned uid o c (c.replaceList jsonReal list uid names).1 :=
  each_inv (P := fun c' => KeepsOwned uid o c c')
    (fun _ name h => h.trans (keepsOwned_insertName hlist name)) names _
    (keepsOwned_deleteList hlist)

lemma keepsOwned_recomputeEffective (ho : (c.overrides.lookup uid).getD {} = o)
    (source : SourceMetadata) :
    KeepsOwned uid o c (c.recomputeEffective jsonReal uid source).1 := by
  have hfollow : ∀ (c : Catalog) (list : BookList) (source : SourceMetadata),
      KeepsOwned uid o c (c.followSource jsonReal list uid o source).1 := by
    intro c list source
    unfold followSource
    split_ifs with hlist
    · exact KeepsOwned.refl uid o c
    · exact keepsOwned_replaceList (Bool.eq_false_of_not_eq_true hlist) _
  have heffective : ∀ (c : Catalog) (values : EffectiveValues),
      KeepsOwned uid o c (c.applyEffective uid values) := by
    intro c values
    refine ⟨?_, (frame_applyEffective c uid values).record, fun list _ => ?_⟩
    · unfold applyEffective
      split <;> rfl
    · unfold applyEffective listOf
      split <;> rfl
  unfold recomputeEffective
  rw [ho]
  dsimp only
  refine andThen_inv (P := fun c' => KeepsOwned uid o c c') (hfollow c .authors _) fun c₁ _ h₁ => ?_
  refine andThen_inv (P := fun c' => KeepsOwned uid o c c')
    (h₁.trans (hfollow c₁ .subjects _)) fun c₂ _ h₂ => ?_
  split
  · exact h₂
  · exact h₂.trans (heffective c₂ _)

lemma keepsOwned_recomputePrimary (ho : (c.overrides.lookup uid).getD {} = o) :
    KeepsOwned uid o c (c.recomputePrimary jsonReal uid).1 := by
  unfold recomputePrimary
  split
  · exact keepsOwned_recomputeEffective ho _
  · exact KeepsOwned.refl uid o c

end Owned

end Catalog

end TuxBooks
