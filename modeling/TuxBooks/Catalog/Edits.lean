import TuxBooks.Catalog.Project

set_option relaxedAutoImplicit false
set_option autoImplicit false

/-!
# Local edits of book state

The statements with which the application changes a saved position, the last opening, the
overrides with the lists a user owns, and the collections of a book. Each of them leaves in the
dirty marker of its entity what the row is afterwards.

## Main definitions

* `TuxBooks.RowView`, `TuxBooks.Catalog.view` — what the catalog says about an entity.
* `TuxBooks.MarkerOf` — the marker that stands for a row.
* `TuxBooks.RowEdit` — the statements.
* `TuxBooks.Catalog.Written` — what one statement may change.

## Main results

* `TuxBooks.RowEdit.written` — a statement changes its entity only, and leaves its marker there.
-/

namespace TuxBooks

/-! ## Rows and their markers -/

/-- The local row of an entity that is keyed by a book, or by a collection and a book. The lists
of a book count as far as the user owns them. -/
inductive RowView where
  | progress (row : Option ProgressRow)
  | opened (time : Option String)
  | metadata (row : Option (OverrideRow × List String × List String))
  | membership (bookUid : String) (collectionId : ℤ) (addedAt : Option String)
  | other

/-- A value that an `INTEGER` column can hold. -/
def IsInteger (n : ℤ) : Prop := -2 ^ 63 ≤ n ∧ n < 2 ^ 63

instance (n : ℤ) : Decidable (IsInteger n) := inferInstanceAs (Decidable (_ ∧ _))

/-- A row that `reading_progress` accepts. -/
structure ProgressRow.Storable (r : ProgressRow) : Prop where
  checked : r.Checked
  characterOffset : ∀ n ∈ r.characterOffset, IsInteger n
  pageNumber : ∀ n ∈ r.pageNumber, IsInteger n
  schemaVersion : ∀ n ∈ r.schemaVersion, IsInteger n

instance (r : ProgressRow) : Decidable r.Storable :=
  decidable_of_iff (r.Checked ∧ (∀ n ∈ r.characterOffset, IsInteger n) ∧
      (∀ n ∈ r.pageNumber, IsInteger n) ∧ ∀ n ∈ r.schemaVersion, IsInteger n)
    ⟨fun h => ⟨h.1, h.2.1, h.2.2.1, h.2.2.2⟩,
      fun h => ⟨h.checked, h.characterOffset, h.pageNumber, h.schemaVersion⟩⟩

/-- The row is one that the tables accept. -/
def RowView.Storable : RowView → Prop
  | progress (some r) => r.Storable
  | _ => True

namespace Catalog

/-- The rows of a list, if the user owns it. -/
def ownNames (c : Catalog) (r : OverrideRow) (list : BookList) (uid : String) : List String :=
  if r.customized list then c.listNames list uid else []

def view (c : Catalog) : DirtyKey → RowView
  | .progress uid => .progress (c.progress.lookup uid)
  | .opened uid => .opened ((c.records.lookup uid).bind (·.lastOpenedAt))
  | .metadata uid => .metadata ((c.overrides.lookup uid).map fun r =>
      (r, c.ownNames r .authors uid, c.ownNames r .subjects uid))
  | .membership uid id => .membership uid id (c.bookCollections.lookup (uid, id))
  | _ => .other

/-- The rows that the row of an entity refers to. -/
def Anchored (c : Catalog) : DirtyKey → Prop
  | .progress uid | .opened uid | .metadata uid => c.hasRecord uid = true
  | .membership uid id => c.hasRecord uid = true ∧ (c.collections.lookup id).isSome = true
  | _ => True

end Catalog

section

variable (jsonReal : ℚ → Value)

/-- The marker that the triggers leave for a row. -/
def MarkerOf (marker : Marker) : RowView → Prop
  | .progress (some r) => marker = .upsert (r.snapshot jsonReal)
  | .progress none => ∃ r : ProgressRow, marker = .delete (r.snapshot jsonReal)
  | .opened time => marker = .upsert (openedSnapshot time)
  | .metadata (some (r, authors, subjects)) =>
    marker = .upsert (r.snapshot jsonReal authors subjects)
  | .metadata none => marker = .upsert resetSnapshot
  | .membership uid id (some time) => marker = .upsert (membershipSnapshot uid id true time)
  | .membership uid id none => ∃ time, marker = .delete (membershipSnapshot uid id false time)
  | .other => True

/-- A marker that the triggers leave for some row of the entity. -/
def DirtyKey.HasMarker (marker : Marker) : DirtyKey → Prop
  | .progress _ => ∃ row, MarkerOf jsonReal marker (.progress row)
  | .opened _ => ∃ time, MarkerOf jsonReal marker (.opened time)
  | .metadata _ => ∃ row, MarkerOf jsonReal marker (.metadata row)
  | .membership uid id => ∃ time, MarkerOf jsonReal marker (.membership uid id time)
  | _ => True

lemma hasMarker_view {marker : Marker} {c : Catalog} {key : DirtyKey}
    (h : MarkerOf jsonReal marker (c.view key)) : key.HasMarker jsonReal marker := by
  cases key <;> first | exact ⟨_, h⟩ | trivial

/-- A field of a snapshot. -/
lemma lookup_jsonObject (entries : List (String × Value)) (field : String) :
    (jsonObject entries).lookup field = (entries.find? fun e => e.1 == field).map (·.2) := by
  unfold jsonObject
  rw [AList.lookup_to_alist]
  induction entries with
  | nil => rfl
  | cons e entries ih =>
    by_cases h : e.1 = field
    · subst h
      simp
    · rw [List.map_cons, List.dlookup_cons_ne _ _ (Ne.symm h), ih,
        List.find?_cons_of_neg (by simpa using h)]

/-- A snapshot shows the lists that the user owns. -/
lemma snapshot_ownNames (c : Catalog) (uid : String) (r : OverrideRow) :
    r.snapshot jsonReal (c.listNames .authors uid) (c.listNames .subjects uid) =
      r.snapshot jsonReal (c.ownNames r .authors uid) (c.ownNames r .subjects uid) := by
  unfold OverrideRow.snapshot Catalog.ownNames OverrideRow.customized
  cases r.authorsCustomized <;> cases r.subjectsCustomized <;> rfl

/-! ## Statements -/

namespace Catalog

/-- `INSERT OR IGNORE INTO book_collections`, which the foreign keys still stop. -/
def addToCollection (c : Catalog) (uid : String) (id : ℤ) (now : String) : Catalog :=
  if (c.bookCollections.lookup (uid, id)).isSome then c
  else if c.hasRecord uid && (c.collections.lookup id).isSome then c.putMembership uid id now
  else c

end Catalog

/-- A statement that changes the row of one entity. -/
inductive RowEdit where
  | saveProgress (uid : String) (row : ProgressRow)
  | deleteProgress (uid : String)
  | setLastOpened (uid : String) (time : Option String)
  | upsertOverrides (uid : String) (row : OverrideRow)
  | clearOverrides (uid : String)
  | deleteList (list : BookList) (uid : String)
  | insertName (list : BookList) (uid name : String)
  | addToCollection (uid : String) (id : ℤ) (now : String)
  | removeFromCollection (uid : String) (id : ℤ)

namespace RowEdit

/-- The entity whose row the statement changes. -/
def key : RowEdit → DirtyKey
  | saveProgress uid _ | deleteProgress uid => .progress uid
  | setLastOpened uid _ => .opened uid
  | upsertOverrides uid _ | clearOverrides uid | deleteList _ uid | insertName _ uid _ =>
    .metadata uid
  | addToCollection uid id _ | removeFromCollection uid id => .membership uid id

/-- Run the statement; one that a constraint stops changes nothing. -/
def apply (c : Catalog) : RowEdit → Catalog
  | saveProgress uid row =>
    if c.hasRecord uid ∧ row.Storable then c.putProgress jsonReal uid row else c
  | deleteProgress uid => c.deleteProgress jsonReal uid
  | setLastOpened uid time => c.setLastOpened uid time
  | upsertOverrides uid row => if c.hasRecord uid then c.upsertOverrides jsonReal uid row else c
  | clearOverrides uid => c.clearOverrides uid
  | deleteList list uid => c.deleteList jsonReal list uid
  | insertName list uid name => (Catalog.insertName jsonReal list uid c name).1
  | addToCollection uid id now => c.addToCollection uid id now
  | removeFromCollection uid id => c.deleteMembership uid id

end RowEdit

/-! ## What a statement changes -/

namespace Catalog

/-- Between `c` and `c'` the row of `k` alone may have changed, and then its marker stands for the
row it is now. -/
structure Written (c : Catalog) (k : DirtyKey) (c' : Catalog) : Prop where
  view : ∀ key, key ≠ k → c'.view key = c.view key
  dirty : ∀ key, key ≠ k → c'.dirty.lookup key = c.dirty.lookup key
  own : c.Anchored k → c'.view k = c.view k ∧ c'.dirty.lookup k = c.dirty.lookup k ∨
    ∃ marker, c'.dirty.lookup k = some marker ∧ MarkerOf jsonReal marker (c'.view k)
  marker : ∀ marker, c'.dirty.lookup k = some marker →
    c.dirty.lookup k = some marker ∨ k.HasMarker jsonReal marker
  storable : (c.view k).Storable → (c'.view k).Storable
  records : ∀ uid, c'.hasRecord uid = c.hasRecord uid
  collections : c'.collections = c.collections
  nodup : (∀ list uid, (c.listOf list uid).Nodup) → ∀ list uid, (c'.listOf list uid).Nodup

variable {c c' : Catalog} {k : DirtyKey}

lemma Written.refl (c : Catalog) (k : DirtyKey) : c.Written jsonReal k c :=
  ⟨fun _ _ => rfl, fun _ _ => rfl, fun _ => Or.inl ⟨rfl, rfl⟩, fun _ h => Or.inl h, fun h => h,
    fun _ => rfl, rfl, fun h => h⟩

@[simp] lemma view_mark (c : Catalog) (key key' : DirtyKey) (marker : Marker) :
    (c.mark key marker).view key' = c.view key' := by
  cases key' <;> rfl

lemma lookup_mark (c : Catalog) (key key' : DirtyKey) (marker : Marker) :
    (c.mark key marker).dirty.lookup key' =
      if key' = key then some marker else c.dirty.lookup key' :=
  Table.lookup_insert' _ _ _ _

/-- A change of rows that raises the marker of the changed row. -/
lemma Written.markWhen (cond : Bool) {marker : Marker}
    (hview : ∀ key, key ≠ k → c'.view key = c.view key) (hdirty : c'.dirty = c.dirty)
    (hcond : c.Anchored k → cond = false → c'.view k = c.view k)
    (hmarker : MarkerOf jsonReal marker (c'.view k))
    (hstore : (c.view k).Storable → (c'.view k).Storable)
    (hrec : ∀ uid, c'.hasRecord uid = c.hasRecord uid) (hcol : c'.collections = c.collections)
    (hnodup : (∀ list uid, (c.listOf list uid).Nodup) → ∀ list uid, (c'.listOf list uid).Nodup) :
    c.Written jsonReal k (c'.markWhen cond k marker) := by
  unfold Catalog.markWhen
  split_ifs with hb
  · refine ⟨fun key hk => ?_, fun key hk => ?_, fun _ => Or.inr ⟨marker, ?_, ?_⟩, fun mk hmk => ?_,
      fun h => ?_, hrec, hcol, hnodup⟩
    · rw [view_mark, hview key hk]
    · rw [lookup_mark, if_neg hk, hdirty]
    · rw [lookup_mark, if_pos rfl]
    · rwa [view_mark]
    · rw [lookup_mark, if_pos rfl] at hmk
      rw [← Option.some.inj hmk]
      exact Or.inr (hasMarker_view jsonReal hmarker)
    · rw [view_mark]
      exact hstore h
  · refine ⟨hview, fun key _ => by rw [hdirty], fun ha => Or.inl ⟨hcond ha ?_, by rw [hdirty]⟩,
      fun mk hmk => Or.inl (by rwa [hdirty] at hmk), hstore, hrec, hcol, hnodup⟩
    exact Bool.eq_false_of_not_eq_true hb

lemma written_putProgress {uid : String} {r : ProgressRow} (hr : r.Storable) :
    c.Written jsonReal (.progress uid) (c.putProgress jsonReal uid r) := by
  have hown : ({ c with progress := c.progress.insert uid r } : Catalog).view (.progress uid) =
      .progress (some r) := by
    simp [view]
  apply Written.markWhen jsonReal
  · intro key hk
    cases key with
    | progress uid' =>
      have hne : uid' ≠ uid := fun h => hk (h ▸ rfl)
      simp [view, hne]
    | _ => rfl
  · rfl
  · intro ha hb
    exact absurd (ha.symm.trans hb) Bool.noConfusion
  · rw [hown]
    rfl
  · intro _
    rw [hown]
    exact hr
  · exact fun _ => rfl
  · rfl
  · exact fun h => h

lemma written_deleteProgress (uid : String) :
    c.Written jsonReal (.progress uid) (c.deleteProgress jsonReal uid) := by
  unfold deleteProgress
  cases hrow : c.progress.lookup uid with
  | none => exact Written.refl jsonReal c _
  | some r =>
    have hown : ({ c with progress := c.progress.erase uid } : Catalog).view (.progress uid) =
        .progress none := by
      simp [view]
    apply Written.markWhen jsonReal
    · intro key hk
      cases key with
      | progress uid' =>
        have hne : uid' ≠ uid := fun h => hk (h ▸ rfl)
        simp [view, hne]
      | _ => rfl
    · rfl
    · intro ha hb
      exact absurd (ha.symm.trans hb) Bool.noConfusion
    · rw [hown]
      exact ⟨r, rfl⟩
    · intro _
      rw [hown]
      trivial
    · exact fun _ => rfl
    · rfl
    · exact fun h => h

lemma written_setLastOpened (uid : String) (time : Option String) :
    c.Written jsonReal (.opened uid) (c.setLastOpened uid time) := by
  unfold setLastOpened
  cases hrow : c.records.lookup uid with
  | none => exact Written.refl jsonReal c _
  | some r =>
    have hown : ({ c with records := c.records.insert uid { r with lastOpenedAt := time } } :
        Catalog).view (.opened uid) = .opened time := by
      simp [view]
    apply Written.markWhen jsonReal
    · intro key hk
      cases key with
      | opened uid' =>
        have hne : uid' ≠ uid := fun h => hk (h ▸ rfl)
        simp [view, hne]
      | _ => rfl
    · rfl
    · intro _ hb
      have hsame : r.lastOpenedAt = time := by simpa using hb
      rw [hown]
      simp [view, hrow, hsame]
    · rw [hown]
      rfl
    · intro _
      rw [hown]
      trivial
    · intro uid'
      simp only [hasRecord, Table.lookup_insert']
      split_ifs with h
      · rw [h, hrow]
        rfl
      · rfl
    · rfl
    · exact fun h => h

/-- The marker of metadata, when there is an override row. -/
lemma markMetadata_eq {uid : String} {r : OverrideRow} (hrow : c.overrides.lookup uid = some r) :
    c.markMetadata jsonReal uid = c.mark (.metadata uid)
      (.upsert (r.snapshot jsonReal (c.ownNames r .authors uid) (c.ownNames r .subjects uid))) := by
  unfold markMetadata
  rw [hrow]
  exact congrArg (fun s => c.mark (.metadata uid) (.upsert s)) (snapshot_ownNames jsonReal c uid r)

lemma view_metadata {uid : String} {r : OverrideRow} (hrow : c.overrides.lookup uid = some r) :
    c.view (.metadata uid) =
      .metadata (some (r, c.ownNames r .authors uid, c.ownNames r .subjects uid)) := by
  simp [view, hrow]

lemma written_upsertOverrides (uid : String) (r : OverrideRow) (hrec : c.hasRecord uid = true) :
    c.Written jsonReal (.metadata uid) (c.upsertOverrides jsonReal uid r) := by
  have hrow : ({ c with overrides := c.overrides.insert uid r } : Catalog).overrides.lookup uid =
      some r := AList.lookup_insert _
  have hrec' : ({ c with overrides := c.overrides.insert uid r } : Catalog).hasRecord uid = true :=
    hrec
  unfold upsertOverrides
  dsimp only
  rw [if_pos hrec', markMetadata_eq jsonReal hrow]
  refine Written.markWhen jsonReal true ?_ rfl (fun _ hb => (nomatch hb)) ?_ ?_ (fun _ => rfl) rfl
    fun h => h
  · intro key hk
    cases key with
    | metadata uid' =>
      have hne : uid' ≠ uid := fun h => hk (h ▸ rfl)
      simp [view, hne, ownNames, listNames, listOf]
    | _ => rfl
  · rw [view_metadata hrow]
    rfl
  · rw [view_metadata hrow]
    exact fun _ => trivial

lemma written_clearOverrides (uid : String) :
    c.Written jsonReal (.metadata uid) (c.clearOverrides uid) := by
  unfold clearOverrides
  cases hrow : c.overrides.lookup uid with
  | none => exact Written.refl jsonReal c _
  | some r =>
    have hown : ({ c with overrides := c.overrides.erase uid } : Catalog).view (.metadata uid) =
        .metadata none := by
      simp [view]
    apply Written.markWhen jsonReal
    · intro key hk
      cases key with
      | metadata uid' =>
        have hne : uid' ≠ uid := fun h => hk (h ▸ rfl)
        simp [view, hne, ownNames, listNames, listOf]
      | _ => rfl
    · rfl
    · intro ha hb
      exact absurd (ha.symm.trans hb) Bool.noConfusion
    · rw [hown]
      rfl
    · intro _
      rw [hown]
      trivial
    · exact fun _ => rfl
    · rfl
    · exact fun h => h

/-- A change of one list of a book raises the marker when the user owns the list. -/
lemma Written.markList {list : BookList} {uid : String} {names : List String} (touched : Bool)
    (hnames : ∀ list' uid', c'.listOf list' uid' =
      if (list', uid') = (list, uid) then names else c.listOf list' uid')
    (htouched : touched = false → names = c.listOf list uid)
    (hc' : c' = { c with bookLists := c'.bookLists })
    (hnodup : (c.listOf list uid).Nodup → names.Nodup) :
    c.Written jsonReal (.metadata uid) (if touched then c'.markList jsonReal list uid else c') := by
  have hoverrides : c'.overrides = c.overrides := by rw [hc']
  have hdirty : c'.dirty = c.dirty := by rw [hc']
  have hrec : ∀ uid, c'.hasRecord uid = c.hasRecord uid := fun _ => by rw [hc']; rfl
  have hcol : c'.collections = c.collections := by rw [hc']
  have hother : ∀ key, key ≠ .metadata uid → c'.view key = c.view key := by
    intro key hk
    cases key with
    | metadata uid' =>
      have hne : uid' ≠ uid := fun h => hk (h ▸ rfl)
      have hlist : ∀ list', c'.listOf list' uid' = c.listOf list' uid' := by
        intro list'
        rw [hnames, if_neg fun h => hne (congrArg Prod.snd h)]
      simp only [Catalog.view, hoverrides, ownNames, listNames, hlist]
    | _ => rw [hc']; rfl
  have hlists : (∀ list uid, (c.listOf list uid).Nodup) →
      ∀ list uid, (c'.listOf list uid).Nodup := by
    intro h list' uid'
    rw [hnames]
    split_ifs
    · exact hnodup (h list uid)
    · exact h list' uid'
  have hsame : ∀ r, r.customized list = false → ∀ list',
      c'.ownNames r list' uid = c.ownNames r list' uid := by
    intro r hr list'
    unfold ownNames
    by_cases hl : list' = list
    · rw [hl, hr]
      rfl
    · have hlist : c'.listOf list' uid = c.listOf list' uid := by
        rw [hnames, if_neg fun h => hl (congrArg Prod.fst h)]
      simp only [listNames]
      cases list' <;> rw [hlist]
  have hquiet : (c'.view (.metadata uid) = c.view (.metadata uid)) →
      c.Written jsonReal (.metadata uid) c' := fun hview =>
    ⟨hother, fun key _ => by rw [hdirty], fun _ => Or.inl ⟨hview, by rw [hdirty]⟩,
      fun mk hmk => Or.inl (by rwa [hdirty] at hmk), fun h => by rwa [hview], hrec, hcol, hlists⟩
  have hunowned : (∀ r, c.overrides.lookup uid = some r → r.customized list = false) →
      c'.view (.metadata uid) = c.view (.metadata uid) := by
    intro h
    simp only [Catalog.view, hoverrides]
    cases hrow : c.overrides.lookup uid with
    | none => rfl
    | some r => simp only [Option.map_some, hsame r (h r hrow)]
  cases touched with
  | false =>
    refine hquiet ?_
    have hall : ∀ list', c'.listOf list' uid = c.listOf list' uid := by
      intro list'
      rw [hnames]
      split_ifs with h
      · rw [htouched rfl, show list' = list from congrArg Prod.fst h]
      · rfl
    simp only [Catalog.view, hoverrides, ownNames, listNames, hall]
  | true =>
    rw [if_pos rfl]
    unfold Catalog.markList customized
    cases hrow : c'.overrides.lookup uid with
    | none =>
      refine hquiet (hunowned fun r hr => ?_)
      rw [← hoverrides, hrow] at hr
      cases hr
    | some r =>
      simp only [Option.any_some]
      by_cases hr : r.customized list = true
      · rw [if_pos hr, markMetadata_eq jsonReal hrow]
        refine Written.markWhen jsonReal true hother hdirty (fun _ hb => (nomatch hb)) ?_ ?_ hrec
          hcol hlists
        · rw [view_metadata hrow]
          rfl
        · rw [view_metadata hrow]
          exact fun _ => trivial
      · rw [if_neg hr]
        refine hquiet (hunowned fun r' hr' => ?_)
        rw [← hoverrides, hrow] at hr'
        rw [← Option.some.inj hr']
        exact Bool.eq_false_of_not_eq_true hr

lemma written_deleteList (list : BookList) (uid : String) :
    c.Written jsonReal (.metadata uid) (c.deleteList jsonReal list uid) := by
  have hnames : ∀ list' uid', ({ c with bookLists := c.bookLists.erase (list, uid) } :
      Catalog).listOf list' uid' =
        if (list', uid') = (list, uid) then [] else c.listOf list' uid' := by
    intro list' uid'
    simp only [listOf, Table.lookup_erase']
    split_ifs <;> rfl
  have h := Written.markList jsonReal (c := c) (!(c.listOf list uid).isEmpty) hnames
    (fun ht => by simpa using ht) rfl (fun _ => List.nodup_nil)
  unfold deleteList
  dsimp only
  cases hempty : (c.listOf list uid).isEmpty with
  | true => rwa [hempty] at h
  | false => rwa [hempty] at h

lemma written_insertName (list : BookList) (uid name : String) :
    c.Written jsonReal (.metadata uid) (insertName jsonReal list uid c name).1 := by
  unfold insertName
  split_ifs with hmem hrec
  · exact Written.refl jsonReal c _
  · have hnames : ∀ list' uid', ({ c with
        bookLists := c.bookLists.insert (list, uid) (c.listOf list uid ++ [name]) } :
        Catalog).listOf list' uid' =
          if (list', uid') = (list, uid) then c.listOf list uid ++ [name]
          else c.listOf list' uid' := by
      intro list' uid'
      simp only [listOf, Table.lookup_insert']
      split_ifs <;> rfl
    exact Written.markList jsonReal true hnames (fun ht => (nomatch ht)) rfl
      fun h => List.concat_eq_append ▸ h.concat hmem
  · exact Written.refl jsonReal c _

lemma written_addToCollection (uid : String) (id : ℤ) (now : String) :
    c.Written jsonReal (.membership uid id) (c.addToCollection uid id now) := by
  unfold addToCollection
  split_ifs with hthere hanchor
  · exact Written.refl jsonReal c _
  · have hnone : c.bookCollections.lookup (uid, id) = none := by simpa using hthere
    have hown : ({ c with bookCollections := c.bookCollections.insert (uid, id) now } :
        Catalog).view (.membership uid id) = .membership uid id (some now) := by
      simp [view]
    rw [Bool.and_eq_true] at hanchor
    apply Written.markWhen jsonReal
    · intro key hk
      cases key with
      | membership uid' id' =>
        have hne : (uid', id') ≠ (uid, id) := fun h => by cases h; exact hk rfl
        simp only [view, Table.lookup_insert', if_neg hne]
      | _ => rfl
    · rfl
    · intro _ hb
      rw [hnone, Option.isNone_none, Bool.true_and] at hb
      have hb' : (c.hasRecord uid && (c.collections.lookup id).isSome) = false := hb
      rw [hanchor.1, hanchor.2] at hb'
      cases hb'
    · rw [hown]
      rfl
    · intro _
      rw [hown]
      trivial
    · exact fun _ => rfl
    · rfl
    · exact fun h => h
  · exact Written.refl jsonReal c _

lemma written_deleteMembership (uid : String) (id : ℤ) :
    c.Written jsonReal (.membership uid id) (c.deleteMembership uid id) := by
  unfold deleteMembership
  cases hrow : c.bookCollections.lookup (uid, id) with
  | none => exact Written.refl jsonReal c _
  | some time =>
    have hown : ({ c with bookCollections := c.bookCollections.erase (uid, id) } :
        Catalog).view (.membership uid id) = .membership uid id none := by
      simp [view]
    apply Written.markWhen jsonReal
    · intro key hk
      cases key with
      | membership uid' id' =>
        have hne : (uid', id') ≠ (uid, id) := fun h => by cases h; exact hk rfl
        simp only [view, Table.lookup_erase', if_neg hne]
      | _ => rfl
    · rfl
    · intro ha hb
      have hb' : (c.hasRecord uid && (c.collections.lookup id).isSome) = false := hb
      rw [ha.1, ha.2] at hb'
      cases hb'
    · rw [hown]
      exact ⟨time, rfl⟩
    · intro _
      rw [hown]
      trivial
    · exact fun _ => rfl
    · rfl
    · exact fun h => h

end Catalog

/-- **A statement changes the row of its entity only**, and leaves the marker of what the row is
afterwards. -/
theorem RowEdit.written (e : RowEdit) (c : Catalog) :
    c.Written jsonReal e.key (e.apply jsonReal c) := by
  cases e with
  | saveProgress uid row =>
    simp only [RowEdit.apply]
    split_ifs with h
    · exact Catalog.written_putProgress jsonReal h.2
    · exact Catalog.Written.refl jsonReal c _
  | deleteProgress uid => exact Catalog.written_deleteProgress jsonReal uid
  | setLastOpened uid time => exact Catalog.written_setLastOpened jsonReal uid time
  | upsertOverrides uid row =>
    simp only [RowEdit.apply]
    split_ifs with h
    · exact Catalog.written_upsertOverrides jsonReal uid row h
    · exact Catalog.Written.refl jsonReal c _
  | clearOverrides uid => exact Catalog.written_clearOverrides jsonReal uid
  | deleteList list uid => exact Catalog.written_deleteList jsonReal list uid
  | insertName list uid name => exact Catalog.written_insertName jsonReal list uid name
  | addToCollection uid id now => exact Catalog.written_addToCollection jsonReal uid id now
  | removeFromCollection uid id => exact Catalog.written_deleteMembership jsonReal uid id

end

end TuxBooks
