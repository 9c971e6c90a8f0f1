import TuxBooks.Catalog.Rows

set_option relaxedAutoImplicit false
set_option autoImplicit false

/-!
# The covers that the catalog names

A cover is a file outside the database. File rows with their source snapshots, durable records and
override rows name covers, and no write makes up a name: what a write leaves was named before, or
came with the write.

## Main definitions

* `TuxBooks.Catalog.coverNames` — every cover that the catalog names.
* `TuxBooks.Catalog.listCoverPaths` — the covers that a sweep of the artwork cache reads.
* `TuxBooks.Catalog.CoversIn` — every cover that the catalog names is in a set.

## Main results

* `TuxBooks.Catalog.CoversIn.recomputeEffective`, `TuxBooks.Catalog.CoversIn.mergeBook` — the
  writes that move names from one table to another.
-/

namespace TuxBooks

open Fallible

/-- The covers of a file row and of its source snapshot. -/
def FileRow.coverNames (f : FileRow) : List String :=
  f.coverPath.toList ++ (f.source.bind (·.coverPath)).toList

namespace Catalog

/-- The covers that file rows, durable records and overrides name. -/
def coverNames (c : Catalog) : List String :=
  c.files.entries.flatMap (·.2.coverNames) ++
    c.records.entries.flatMap (·.2.values.coverPath.toList) ++
    c.overrides.entries.flatMap (·.2.coverPath.toList)

/-- `list_cover_paths`: the effective covers and those of the file rows. -/
def listCoverPaths (c : Catalog) : List String :=
  c.records.entries.filterMap (·.2.values.coverPath) ++ c.files.entries.filterMap (·.2.coverPath)

/-- A record or a file row names a cover. -/
def ShowsCover (c : Catalog) (name : String) : Prop :=
  (∃ e ∈ c.records.entries, e.2.values.coverPath = some name) ∨
    ∃ e ∈ c.files.entries, e.2.coverPath = some name

instance (c : Catalog) (name : String) : Decidable (c.ShowsCover name) :=
  inferInstanceAs (Decidable (_ ∨ _))

lemma mem_listCoverPaths {c : Catalog} {name : String} :
    name ∈ c.listCoverPaths ↔ c.ShowsCover name := by
  simp only [listCoverPaths, ShowsCover, List.mem_append, List.mem_filterMap]

/-- Every cover that the catalog names is in a set. -/
structure CoversIn (S : String → Prop) (c : Catalog) : Prop where
  file : ∀ i f, c.files.lookup i = some f → ∀ name ∈ f.coverNames, S name
  record : ∀ uid r, c.records.lookup uid = some r → ∀ name ∈ r.values.coverPath, S name
  override : ∀ uid r, c.overrides.lookup uid = some r → ∀ name ∈ r.coverPath, S name

variable {S : String → Prop} {c c' : Catalog}

/-- A list of the names of all rows, by the rows. -/
lemma forall_mem_entries {κ ρ : Type} [DecidableEq κ] (t : Table κ ρ) (names : ρ → List String) :
    (∀ name ∈ t.entries.flatMap fun e => names e.2, S name) ↔
      ∀ k r, t.lookup k = some r → ∀ name ∈ names r, S name := by
  simp only [List.mem_flatMap, Table.lookup_eq_some_iff]
  constructor
  · intro h k r hr name hname
    exact h name ⟨_, hr, hname⟩
  · rintro h name ⟨⟨k, r⟩, hr, hname⟩
    exact h k r hr name hname

lemma coversIn_iff : CoversIn S c ↔ ∀ name ∈ c.coverNames, S name := by
  have hfiles := forall_mem_entries (S := S) c.files FileRow.coverNames
  have hrecords := forall_mem_entries (S := S) c.records fun r => r.values.coverPath.toList
  have hoverrides := forall_mem_entries (S := S) c.overrides fun r => r.coverPath.toList
  simp only [Option.mem_toList] at hrecords hoverrides
  unfold coverNames
  rw [List.forall_mem_append, List.forall_mem_append, hfiles, hrecords, hoverrides]
  exact ⟨fun h => ⟨⟨h.file, h.record⟩, h.override⟩, fun h => ⟨h.1.1, h.1.2, h.2⟩⟩

namespace CoversIn

/-- A larger set. -/
lemma mono {T : String → Prop} (h : CoversIn S c) (hS : ∀ name, S name → T name) :
    CoversIn T c where
  file i f hf name hname := hS name (h.file i f hf name hname)
  record uid r hr name hname := hS name (h.record uid r hr name hname)
  override uid r hr name hname := hS name (h.override uid r hr name hname)

/-- What a sweep reads is named. -/
lemma listed (h : CoversIn S c) : ∀ name ∈ c.listCoverPaths, S name := by
  intro name hname
  rcases List.mem_append.mp hname with hname | hname
  · obtain ⟨⟨uid, r⟩, hr, heq⟩ := List.mem_filterMap.mp hname
    exact h.record uid r (Table.lookup_eq_some_iff.mpr hr) name heq
  · obtain ⟨⟨i, f⟩, hf, heq⟩ := List.mem_filterMap.mp hname
    refine h.file i f (Table.lookup_eq_some_iff.mpr hf) name (List.mem_append_left _ ?_)
    exact Option.mem_toList.mpr heq

/-- The source snapshot that a file row is read as. -/
lemma loadSource (h : CoversIn S c) {i : ℤ} {f : FileRow} (hf : c.files.lookup i = some f) :
    ∀ name ∈ f.loadSource.coverPath, S name := by
  intro name hname
  refine h.file i f hf name ?_
  unfold FileRow.loadSource at hname
  unfold FileRow.coverNames
  cases hsource : f.source with
  | some source =>
    rw [hsource] at hname
    exact List.mem_append_right _ (Option.mem_toList.mpr hname)
  | none =>
    rw [hsource] at hname
    exact List.mem_append_left _ (Option.mem_toList.mpr hname)

/-! ## Writes of other tables -/

/-- A write of other tables, and its marker. -/
lemma of_plain {c₀ : Catalog} (h : CoversIn S c) (hplain : c'.plain = c₀) (hf : c₀.files = c.files)
    (hr : c₀.records = c.records) (ho : c₀.overrides = c.overrides) : CoversIn S c' where
  file := by
    have heq : c'.files = c.files := (congrArg Catalog.files hplain).trans hf
    rw [heq]
    exact h.file
  record := by
    have heq : c'.records = c.records := (congrArg Catalog.records hplain).trans hr
    rw [heq]
    exact h.record
  override := by
    have heq : c'.overrides = c.overrides := (congrArg Catalog.overrides hplain).trans ho
    rw [heq]
    exact h.override

variable (jsonReal : ℚ → Value)

lemma mark (h : CoversIn S c) (key : DirtyKey) (marker : Marker) : CoversIn S (c.mark key marker) :=
  h.of_plain (plain_mark c key marker) rfl rfl rfl

lemma markWhen (h : CoversIn S c) (cond : Bool) (key : DirtyKey) (marker : Marker) :
    CoversIn S (c.markWhen cond key marker) :=
  h.of_plain (plain_markWhen c cond key marker) rfl rfl rfl

lemma putNote (h : CoversIn S c) (id : ℤ) (r : AnnotationRow) :
    CoversIn S (c.putAnnotation jsonReal id r) :=
  h.of_plain ( plain_putAnnotation jsonReal c id r) rfl rfl rfl

lemma putProgress (h : CoversIn S c) (uid : String) (r : ProgressRow) :
    CoversIn S (c.putProgress jsonReal uid r) :=
  h.of_plain (plain_putProgress jsonReal c uid r) rfl rfl rfl

lemma deleteProgress (h : CoversIn S c) (uid : String) :
    CoversIn S (c.deleteProgress jsonReal uid) :=
  h.of_plain (plain_deleteProgress jsonReal c uid) rfl rfl rfl

lemma putMembership (h : CoversIn S c) (uid : String) (collection : ℤ) (addedAt : String) :
    CoversIn S (c.putMembership uid collection addedAt) :=
  h.of_plain (plain_putMembership c uid collection addedAt) rfl rfl rfl

lemma deleteList (h : CoversIn S c) (list : BookList) (uid : String) :
    CoversIn S (c.deleteList jsonReal list uid) :=
  h.of_plain (plain_deleteList jsonReal c list uid) rfl rfl rfl

lemma moveList (h : CoversIn S c) (list : BookList) (loser winner : String) :
    CoversIn S (c.moveList jsonReal list loser winner) := by
  unfold Catalog.moveList
  dsimp only
  split
  · exact h.of_plain rfl rfl rfl rfl
  · exact h.of_plain (plain_markList jsonReal _ list winner) rfl rfl rfl

lemma insertName (h : CoversIn S c) (list : BookList) (uid name : String) :
    CoversIn S (Catalog.insertName jsonReal list uid c name).1 := by
  unfold Catalog.insertName
  split_ifs
  · exact h
  · exact h.of_plain (plain_markList jsonReal _ list uid) rfl rfl rfl
  · exact h

lemma foldl {α : Type} {f : Catalog → α → Catalog} (hf : ∀ c a, CoversIn S c → CoversIn S (f c a))
    (h : CoversIn S c) (as : List α) : CoversIn S (as.foldl f c) := by
  induction as generalizing c with
  | nil => exact h
  | cons a as ih => exact ih (hf c a h)

/-! ## Rows that name covers -/

/-- A row that is rewritten names a cover of the set. -/
lemma putRecord (h : CoversIn S c) (uid : String) {r : RecordRow}
    (hr : ∀ name ∈ r.values.coverPath, S name) :
    CoversIn S { c with records := c.records.insert uid r } where
  file := h.file
  record uid' r' hr' := by
    rw [Table.lookup_insert'] at hr'
    split_ifs at hr'
    · exact Option.some.inj hr' ▸ hr
    · exact h.record uid' r' hr'
  override := h.override

/-- Records are rewritten in place with their covers. -/
lemma mapRecords (h : CoversIn S c) {f : String → RecordRow → RecordRow}
    (hf : ∀ uid r, (f uid r).values.coverPath = r.values.coverPath) :
    CoversIn S { c with records := c.records.mapRows f } where
  file := h.file
  record uid r' hr' := by
    rw [Table.lookup_mapRows] at hr'
    obtain ⟨r, hr, rfl⟩ := Option.map_eq_some_iff.mp hr'
    rw [hf]
    exact h.record uid r hr
  override := h.override

/-- Records are rewritten in place, or go. -/
lemma shrink (h : CoversIn S c) (hf : c'.files = c.files)
    (hr : ∀ uid r', c'.records.lookup uid = some r' →
      ∃ r, c.records.lookup uid = some r ∧ r'.values.coverPath = r.values.coverPath)
    (ho : ∀ uid r, c'.overrides.lookup uid = some r → c.overrides.lookup uid = some r) :
    CoversIn S c' where
  file := by
    rw [hf]
    exact h.file
  record uid r' hr' := by
    obtain ⟨r, hlookup, heq⟩ := hr uid r' hr'
    rw [heq]
    exact h.record uid r hlookup
  override uid r hr' := h.override uid r (ho uid r hr')

lemma upsertOverrides (h : CoversIn S c) (uid : String) {r : OverrideRow}
    (hr : ∀ name ∈ r.coverPath, S name) : CoversIn S (c.upsertOverrides jsonReal uid r) := by
  have hput : CoversIn S { c with overrides := c.overrides.insert uid r } := by
    refine ⟨h.file, h.record, fun uid' r' hr' => ?_⟩
    rw [Table.lookup_insert'] at hr'
    split_ifs at hr'
    · exact Option.some.inj hr' ▸ hr
    · exact h.override uid' r' hr'
  exact hput.of_plain (plain_upsertOverrides jsonReal c uid r) rfl rfl rfl

lemma eraseOverrides (h : CoversIn S c) (uid : String) :
    CoversIn S { c with overrides := c.overrides.erase uid } := by
  refine ⟨h.file, h.record, fun uid' r' hr' => ?_⟩
  rw [Table.lookup_erase'] at hr'
  split_ifs at hr'
  exact h.override uid' r' hr'

lemma clearOverrides (h : CoversIn S c) (uid : String) : CoversIn S (c.clearOverrides uid) :=
  (h.eraseOverrides uid).of_plain (plain_clearOverrides c uid) rfl rfl rfl

lemma applyEffective (h : CoversIn S c) (uid : String) {values : EffectiveValues}
    (hvalues : ∀ name ∈ values.coverPath, S name) : CoversIn S (c.applyEffective uid values) := by
  unfold Catalog.applyEffective
  split
  · exact h.putRecord uid hvalues
  · exact h

lemma followSource (h : CoversIn S c) (list : BookList) (uid : String) (o : OverrideRow)
    (source : SourceMetadata) : CoversIn S (c.followSource jsonReal list uid o source).1 := by
  unfold Catalog.followSource
  split
  · exact h
  · exact each_inv (P := CoversIn S) (fun _ name h => h.insertName jsonReal list uid name) _ _
      (h.deleteList jsonReal list uid)

/-- **The effective cover is an override or the cover of the source.** -/
theorem recomputeEffective (h : CoversIn S c) (uid : String) {source : SourceMetadata}
    (hsource : ∀ name ∈ source.coverPath, S name) :
    CoversIn S (c.recomputeEffective jsonReal uid source).1 := by
  have hoverride : ∀ name ∈ ((c.overrides.lookup uid).getD {}).coverPath, S name := by
    cases hlookup : c.overrides.lookup uid with
    | none => exact fun name hname => absurd hname (by simp)
    | some r => exact h.override uid r hlookup
  unfold Catalog.recomputeEffective
  refine andThen_inv (P := CoversIn S) (h.followSource jsonReal _ uid _ source) fun c _ h =>
    andThen_inv (P := CoversIn S) (h.followSource jsonReal _ uid _ source) fun c _ h => ?_
  split
  · exact h
  · refine h.applyEffective uid fun name hname => ?_
    rcases Option.or_eq_some_iff.mp hname with hname | ⟨-, hname⟩
    · exact hoverride name hname
    · exact hsource name hname

lemma recomputePrimary (h : CoversIn S c) (uid : String) :
    CoversIn S (c.recomputePrimary jsonReal uid).1 := by
  unfold Catalog.recomputePrimary
  split
  · next i f hfile =>
    have hlookup : c.files.lookup i = some f :=
      Table.lookup_eq_some_iff.mpr (primaryFile_mem hfile).1
    exact h.recomputeEffective jsonReal uid (h.loadSource hlookup)
  · exact h

/-! ## Files and folded books -/

/-- File rows point at other books. -/
lemma rebind (h : CoversIn S c) (uid : FileRow → Option String) :
    CoversIn S { c with files := c.files.mapRows fun _ (f : FileRow) =>
      { f with bookUid := uid f } } := by
  refine ⟨fun i f' hf' => ?_, h.record, h.override⟩
  rw [Table.lookup_mapRows] at hf'
  obtain ⟨f, hf, rfl⟩ := Option.map_eq_some_iff.mp hf'
  exact h.file i f hf

lemma moveFiles (h : CoversIn S c) (loser winner : String) :
    CoversIn S (c.moveFiles loser winner) := by
  have hrow : c.moveFiles loser winner = { c with files := c.files.mapRows fun _ (f : FileRow) =>
      { f with bookUid := if f.bookUid = some loser then some winner else f.bookUid } } := by
    unfold Catalog.moveFiles
    congr 2
    funext i f
    split <;> rfl
  rw [hrow]
  exact h.rebind _

lemma deleteRecord (h : CoversIn S c) (uid : String) : CoversIn S (c.deleteRecord uid) := by
  refine h.shrink rfl (fun uid' r hr => ⟨r, ?_, rfl⟩) fun uid' r hr => ?_
  · replace hr : (c.records.erase uid).lookup uid' = some r := hr
    rw [Table.lookup_erase'] at hr
    split_ifs at hr
    exact hr
  · replace hr : (c.overrides.erase uid).lookup uid' = some r := hr
    rw [Table.lookup_erase'] at hr
    split_ifs at hr
    exact hr

/-- The folded record has the cover of one of the two. -/
lemma mergeRecord (h : CoversIn S c) (loser winner : String) :
    CoversIn S (c.mergeRecord loser winner) := by
  unfold Catalog.mergeRecord
  dsimp only
  split
  · exact h
  · next r hr =>
    refine CoversIn.markWhen (h.putRecord winner ?_) _ _ _
    unfold mergedRecord at hr
    cases hw : c.records.lookup winner with
    | none =>
      cases hl : c.records.lookup loser with
      | none => simp [hw, hl] at hr
      | some l =>
        rw [hw, hl] at hr
        obtain rfl := Option.some.inj hr
        exact h.record loser l hl
    | some w =>
      cases hl : c.records.lookup loser with
      | none =>
        rw [hw, hl] at hr
        obtain rfl := Option.some.inj hr
        exact h.record winner w hw
      | some l =>
        rw [hw, hl] at hr
        obtain rfl := Option.some.inj hr
        intro name hname
        rcases Option.or_eq_some_iff.mp hname with hname | ⟨-, hname⟩
        · exact h.record winner w hw name hname
        · exact h.record loser l hl name hname

lemma refreshRecord (h : CoversIn S c) (uid : String) : CoversIn S (c.refreshRecord uid) := by
  unfold Catalog.refreshRecord
  split
  · next r hr => exact h.putRecord uid (h.record uid r hr)
  · exact h

lemma moveAllNotes (h : CoversIn S c) (loser winner : String) :
    CoversIn S (c.moveAnnotations jsonReal loser winner) :=
  foldl (fun _ _ h => h.putNote jsonReal _ _) h _

lemma dropOlderProgress (h : CoversIn S c) (loser winner : String) :
    CoversIn S (c.dropOlderProgress jsonReal loser winner) := by
  unfold Catalog.dropOlderProgress
  split
  · split
    · exact h.deleteProgress jsonReal winner
    · exact h
  · exact h

lemma moveProgress (h : CoversIn S c) (loser winner : String) :
    CoversIn S (c.moveProgress jsonReal loser winner) := by
  unfold Catalog.moveProgress
  split
  · exact h
  · exact h.deleteProgress jsonReal loser
  · have herased : CoversIn S { c with progress := c.progress.erase loser } :=
      h.of_plain rfl rfl rfl rfl
    exact herased.putProgress jsonReal winner _

lemma mergeOverrides (h : CoversIn S c) (loser winner : String) :
    CoversIn S (c.mergeOverrides jsonReal loser winner) := by
  unfold Catalog.mergeOverrides
  split
  · exact h
  · next r hr =>
    split
    · have hcleared := ((h.deleteList jsonReal .authors winner).deleteList jsonReal .subjects
        winner).clearOverrides winner
      have htaken := (hcleared.eraseOverrides loser).upsertOverrides jsonReal winner
        (h.override loser r hr)
      exact (htaken.moveList jsonReal .authors loser winner).moveList jsonReal
        .subjects loser winner
    · exact h

lemma mergeMemberships (h : CoversIn S c) (loser winner : String) :
    CoversIn S (c.mergeMemberships loser winner) := by
  refine foldl (fun c e h => ?_) h _
  split
  · exact h
  · exact h.putMembership _ _ _

/-- **Folding one book into another makes up no cover.** -/
theorem mergeBook (h : CoversIn S c) (loser winner : String) :
    CoversIn S (c.mergeBook jsonReal loser winner) := by
  have hfiles := (h.mergeRecord loser winner).moveFiles loser winner
  have hposition := ((hfiles.moveAllNotes jsonReal loser winner).dropOlderProgress jsonReal loser
    winner).moveProgress jsonReal loser winner
  have hstate := ((hposition.refreshRecord winner).mergeOverrides jsonReal loser
    winner).mergeMemberships loser winner
  exact hstate.deleteRecord loser

lemma sweepOrphans (h : CoversIn S c) : CoversIn S c.sweepOrphans := by
  refine ⟨fun i f' hf' => ?_, h.record, h.override⟩
  replace hf' := (Table.lookup_mapRows _ c.files i).symm.trans hf'
  obtain ⟨f, hf, rfl⟩ := Option.map_eq_some_iff.mp hf'
  exact h.file i f hf

end CoversIn

end Catalog

end TuxBooks
