import Mathlib.Algebra.Order.Ring.Rat
import TuxBooks.Catalog.Recompute
import TuxBooks.Device.Draining

set_option relaxedAutoImplicit false
set_option autoImplicit false

/-!
# Projecting what a snapshot said

The state that a snapshot becomes on its way through the mirror, projected into a catalog, gives
back the row of the snapshot. Three things do not come back as they were: a real number is what its
JSON text reads back as, a position carries the time of the projection, and a cover is the
receiving device's own file of the same name.

## Main definitions

* `TuxBooks.RendersReals` — what SQLite's rendering of real numbers guarantees.
* `TuxBooks.ProgressRow.carried`, `TuxBooks.OverrideRow.carried` — a row as it arrives.
* `TuxBooks.Catalog.position`, `TuxBooks.Catalog.overridesOf`, `TuxBooks.Catalog.addedAt` — what a
  catalog says about a book.

## Main results

* `TuxBooks.Catalog.position_projectProgress`, `TuxBooks.Catalog.overridesOf_projectMetadata`,
  `TuxBooks.Catalog.addedAt_projectMembership` — the projections of published states.
-/

namespace TuxBooks

open State Fallible

/-! ## Real numbers in JSON -/

/-- The text of a real number reads back as a number. It has fifteen significant digits: reading
it back keeps the order, and the integers among them. -/
structure RendersReals (jsonReal : ℚ → Value) (read : ℚ → ℚ) : Prop where
  asF64 : ∀ q, (jsonReal q).asF64 = some (read q)
  mono : Monotone read
  ofInt : ∀ n : ℤ, |n| < 10 ^ 15 → read n = n

/-! ## Columns -/

/-- The state has the fields of a snapshot. -/
def Agrees (kind : EntityKind) (state snapshot : Fields) : Prop :=
  ∀ field ∈ fieldNames kind, state.lookup field = some ((snapshot.lookup field).getD .null)

section Columns

variable {kind : EntityKind} {state snapshot : Fields} (h : Agrees kind state snapshot)
include h

lemma Agrees.text {field : String} (hfield : field ∈ fieldNames kind) {t : Option String}
    (hvalue : snapshot.lookup field = some (.ofText t)) : stringOrNone state field = t := by
  unfold stringOrNone
  rw [h field hfield, hvalue]
  cases t <;> rfl

lemma Agrees.integer (field : String) (hfield : field ∈ fieldNames kind) (n : Option ℤ)
    (hvalue : snapshot.lookup field = some (.ofInt n)) (hn : ∀ i ∈ n, IsInteger i) :
    integerOrNone state field = n := by
  unfold integerOrNone
  rw [h field hfield, hvalue]
  cases n with
  | none => rfl
  | some i => exact if_pos (hn i rfl)

lemma Agrees.number (field : String) (hfield : field ∈ fieldNames kind) {jsonReal : ℚ → Value}
    {read : ℚ → ℚ} (hreal : RendersReals jsonReal read) (q : Option ℚ)
    (hvalue : snapshot.lookup field = some (.ofReal jsonReal q)) :
    numberOrNone state field = q.map read := by
  unfold numberOrNone
  rw [h field hfield, hvalue]
  cases q with
  | none => rfl
  | some q => exact hreal.asF64 q

lemma Agrees.bool (field : String) (hfield : field ∈ fieldNames kind) (b : Bool)
    (hvalue : snapshot.lookup field = some (.bool b)) : boolOrFalse state field = b := by
  unfold boolOrFalse
  rw [h field hfield, hvalue]
  rfl

lemma Agrees.names {field : String} (hfield : field ∈ fieldNames kind) {names : List String}
    (hvalue : snapshot.lookup field = some (.ofNames names)) :
    State.stringList state field = names := by
  unfold State.stringList
  rw [h field hfield, hvalue]
  change (names.map Value.str).filterMap Value.asStr = names
  rw [List.filterMap_map]
  exact List.filterMap_some

end Columns

/-! ## Positions -/

/-- A position as another device gets it. -/
def ProgressRow.carried (read : ℚ → ℚ) (r : ProgressRow) : ProgressRow :=
  { r with
    scrollOffset := r.scrollOffset.map read
    progressPercent := r.progressPercent.map read
    progression := r.progression.map read }

/-- The saved position of a book without its time; empty when there is none. -/
def Catalog.position (c : Catalog) (uid : String) : ProgressRow :=
  { (c.progress.lookup uid).getD { updatedAt := "" } with updatedAt := "" }

lemma ProgressRow.ofState_of_agrees {jsonReal : ℚ → Value} {read : ℚ → ℚ}
    (hreal : RendersReals jsonReal read) {r : ProgressRow} (hr : r.Storable) {state : State}
    (h : Agrees .progress state (r.snapshot jsonReal)) (now : String) :
    ProgressRow.ofState state now = { r.carried read with updatedAt := now } := by
  have htext : ∀ field ∈ fieldNames .progress, ∀ t : Option String,
      (r.snapshot jsonReal).lookup field = some (.ofText t) → stringOrNone state field = t :=
    fun _ hfield _ => h.text hfield
  unfold ProgressRow.ofState ProgressRow.carried
  rw [htext "chapter_href" (by decide) r.chapterHref (by simp [snapshot, lookup_jsonObject]),
    htext "cfi" (by decide) r.cfi (by simp [snapshot, lookup_jsonObject]),
    h.integer "character_offset" (by decide) r.characterOffset
      (by simp [snapshot, lookup_jsonObject]) hr.characterOffset,
    h.integer "page_number" (by decide) r.pageNumber
      (by simp [snapshot, lookup_jsonObject]) hr.pageNumber,
    h.number "scroll_offset" (by decide) hreal r.scrollOffset
      (by simp [snapshot, lookup_jsonObject]),
    h.number "progress_percent" (by decide) hreal r.progressPercent
      (by simp [snapshot, lookup_jsonObject]),
    htext "locator" (by decide) r.locator (by simp [snapshot, lookup_jsonObject]),
    h.number "progression" (by decide) hreal r.progression
      (by simp [snapshot, lookup_jsonObject]),
    htext "locations" (by decide) r.locations (by simp [snapshot, lookup_jsonObject]),
    htext "engine" (by decide) r.engine (by simp [snapshot, lookup_jsonObject]),
    h.integer "schema_version" (by decide) r.schemaVersion
      (by simp [snapshot, lookup_jsonObject]) hr.schemaVersion]

/-- Rounding to what the text says stays within bounds that are integers. -/
lemma ProgressRow.Checked.carried {jsonReal : ℚ → Value} {read : ℚ → ℚ}
    (hreal : RendersReals jsonReal read) {r : ProgressRow} (hr : r.Checked) :
    (r.carried read).Checked := by
  have hint : ∀ n : ℤ, |n| < 10 ^ 15 → read n = n := hreal.ofInt
  have h0 : read 0 = 0 := by simpa using hint 0 (by decide)
  have h1 : read 1 = 1 := by simpa using hint 1 (by decide)
  have h100 : read 100 = 100 := by simpa using hint 100 (by decide)
  refine ⟨fun p hp => ?_, fun p hp => ?_⟩
  · obtain ⟨q, hq, rfl⟩ := Option.map_eq_some_iff.mp hp
    obtain ⟨hlow, hhigh⟩ := hr.1 q hq
    exact ⟨h0 ▸ hreal.mono hlow, h100 ▸ hreal.mono hhigh⟩
  · obtain ⟨q, hq, rfl⟩ := Option.map_eq_some_iff.mp hp
    obtain ⟨hlow, hhigh⟩ := hr.2 q hq
    exact ⟨h0 ▸ hreal.mono hlow, h1 ▸ hreal.mono hhigh⟩

/-- The snapshot of an empty position has no value. -/
lemma lookup_empty_snapshot (jsonReal : ℚ → Value) : ∀ field ∈ fieldNames .progress,
    ((({ updatedAt := "" } : ProgressRow).snapshot jsonReal).lookup field).getD .null = .null := by
  intro field hfield
  simp only [fieldNames, List.mem_cons, List.not_mem_nil, or_false] at hfield
  rcases hfield with rfl | rfl | rfl | rfl | rfl | rfl | rfl | rfl | rfl | rfl | rfl <;>
    simp [ProgressRow.snapshot, lookup_jsonObject, Value.ofText, Value.ofInt, Value.ofReal]

namespace Catalog

variable {jsonReal : ℚ → Value} {read : ℚ → ℚ}

/-- **A projected position is the position that was published.** -/
theorem position_projectProgress (hreal : RendersReals jsonReal read) {r : ProgressRow}
    (hr : r.Storable) {state : State} (h : Agrees .progress state (r.snapshot jsonReal))
    (c : Catalog) (uid now : String) :
    (c.projectProgress jsonReal uid state false now).1.position uid =
      { r.carried read with updatedAt := "" } := by
  have hchecked : (ProgressRow.ofState state now).Checked := by
    rw [ProgressRow.ofState_of_agrees hreal hr h]
    exact hr.checked.carried hreal
  unfold projectProgress
  rw [if_neg Bool.false_ne_true, if_pos hchecked, ProgressRow.ofState_of_agrees hreal hr h]
  unfold position putProgress markWhen
  split_ifs <;> simp [mark]

/-- A tombstone leaves no position. -/
lemma position_projectProgress_deleted {c : Catalog} {uid : String}
    (h : c.progress.lookup uid = none)
    (state : State) (now : String) :
    (c.projectProgress jsonReal uid state true now).1 = c := by
  unfold projectProgress deleteProgress
  rw [if_pos rfl, h]

end Catalog

/-! ## Metadata -/

/-- An override row as another device gets it, with the cover at `cover` there. -/
def OverrideRow.carried (read : ℚ → ℚ) (cover : Option String) (r : OverrideRow) : OverrideRow :=
  { r with seriesIndex := r.seriesIndex.map read, coverPath := cover }

/-- The overrides of a book; none when there is no row. -/
def Catalog.overridesOf (c : Catalog) (uid : String) : OverrideRow :=
  (c.overrides.lookup uid).getD {}

section Metadata

variable {jsonReal : ℚ → Value} {read : ℚ → ℚ} {r : OverrideRow} {authors subjects : List String}
  {state : State}

lemma lookup_publishCover (snapshot : Fields) (field : String) :
    (Device.publishCover snapshot).lookup field = if field = "cover_path" then
      some (.ofText (((snapshot.lookup "cover_path").bind Value.asStr).bind coverFileName))
      else snapshot.lookup field :=
  Table.lookup_insert' _ _ _ _

/-- The overrides in a published state. -/
lemma OverrideRow.ofState_of_agrees (hreal : RendersReals jsonReal read)
    (h : Agrees .metadata state (Device.publishCover (r.snapshot jsonReal authors subjects)))
    (cover : Option String) : OverrideRow.ofState state cover = r.carried read cover := by
  have htext : ∀ field ∈ fieldNames .metadata, field ≠ "cover_path" → ∀ t : Option String,
      (r.snapshot jsonReal authors subjects).lookup field = some (.ofText t) →
        stringOrNone state field = t := by
    intro field hfield hne t ht
    exact h.text hfield (by rw [lookup_publishCover, if_neg hne, ht])
  unfold OverrideRow.ofState OverrideRow.carried
  rw [htext "title" (by decide) (by decide) r.title (by simp [snapshot, lookup_jsonObject]),
    htext "subtitle" (by decide) (by decide) r.subtitle (by simp [snapshot, lookup_jsonObject]),
    htext "publisher" (by decide) (by decide) r.publisher (by simp [snapshot, lookup_jsonObject]),
    htext "language" (by decide) (by decide) r.language (by simp [snapshot, lookup_jsonObject]),
    htext "isbn" (by decide) (by decide) r.isbn (by simp [snapshot, lookup_jsonObject]),
    htext "description" (by decide) (by decide) r.description
      (by simp [snapshot, lookup_jsonObject]),
    htext "publication_date" (by decide) (by decide) r.publicationDate
      (by simp [snapshot, lookup_jsonObject]),
    htext "series" (by decide) (by decide) r.series (by simp [snapshot, lookup_jsonObject]),
    h.number "series_index" (by decide) hreal r.seriesIndex
      (by simp [lookup_publishCover, snapshot, lookup_jsonObject]),
    h.bool "authors_customized" (by decide) r.authorsCustomized
      (by simp [lookup_publishCover, snapshot, lookup_jsonObject]),
    h.bool "subjects_customized" (by decide) r.subjectsCustomized
      (by simp [lookup_publishCover, snapshot, lookup_jsonObject])]

/-- The name of the cover in a published state. -/
lemma cover_of_agrees
    (h : Agrees .metadata state (Device.publishCover (r.snapshot jsonReal authors subjects))) :
    stringOrNone state "cover_path" = r.coverPath.bind coverFileName := by
  have hcover : ((r.snapshot jsonReal authors subjects).lookup "cover_path").bind Value.asStr =
      r.coverPath := by
    have hlookup : (r.snapshot jsonReal authors subjects).lookup "cover_path" =
        some (.ofText r.coverPath) := by
      simp [OverrideRow.snapshot, lookup_jsonObject]
    rw [hlookup]
    cases r.coverPath <;> rfl
  refine h.text (by decide) ?_
  rw [lookup_publishCover, if_pos rfl, hcover]

/-- The name under which a state has a list. -/
def BookList.field : BookList → String
  | .authors => "authors"
  | .subjects => "subjects"

/-- A list in a published state. -/
lemma names_of_agrees
    (h : Agrees .metadata state (Device.publishCover (r.snapshot jsonReal authors subjects)))
    {list : BookList} (howned : r.customized list = true) :
    State.stringList state list.field = match list with
      | .authors => authors
      | .subjects => subjects := by
  cases list with
  | authors =>
    have hc : r.authorsCustomized = true := howned
    exact h.names (by decide)
      (by simp [BookList.field, lookup_publishCover, OverrideRow.snapshot, lookup_jsonObject, hc])
  | subjects =>
    have hc : r.subjectsCustomized = true := howned
    exact h.names (by decide)
      (by simp [BookList.field, lookup_publishCover, OverrideRow.snapshot, lookup_jsonObject, hc])

/-- A state without values has no override and owns no list. -/
lemma OverrideRow.ofState_of_null (read : ℚ → ℚ)
    (h : ∀ field ∈ fieldNames .metadata, state.lookup field = some .null)
    (cover : Option String) : OverrideRow.ofState state cover =
      ({} : OverrideRow).carried read cover := by
  have htext : ∀ field ∈ fieldNames .metadata, stringOrNone state field = none := by
    intro field hfield
    unfold stringOrNone
    rw [h field hfield]
    rfl
  have hnumber : numberOrNone state "series_index" = none := by
    unfold numberOrNone
    rw [h _ (by decide)]
    rfl
  have hbool : ∀ field ∈ fieldNames .metadata, boolOrFalse state field = false := by
    intro field hfield
    unfold boolOrFalse
    rw [h field hfield]
    rfl
  unfold OverrideRow.ofState OverrideRow.carried
  rw [htext "title" (by decide), htext "subtitle" (by decide), htext "publisher" (by decide),
    htext "language" (by decide), htext "isbn" (by decide), htext "description" (by decide),
    htext "publication_date" (by decide), htext "series" (by decide), hnumber,
    hbool "authors_customized" (by decide), hbool "subjects_customized" (by decide)]
  rfl

end Metadata

/-! ## What a synced override writes -/

namespace Catalog

variable {jsonReal : ℚ → Value} {c c' c'' : Catalog} {uid : String} {o : OverrideRow}

/-- Names inserted one by one into an empty list are the list. -/
lemma listOf_insertNames {list : BookList} (names : List String) (c : Catalog)
    (h : (each (insertName jsonReal list uid) c names).2 = .ok ()) :
    (each (insertName jsonReal list uid) c names).1.listOf list uid =
      c.listOf list uid ++ names := by
  induction names generalizing c with
  | nil => simp
  | cons name names ih =>
    rw [each_cons, andThen_eq_ok] at h
    obtain ⟨_, hok, hrest⟩ := h
    rw [each_cons, andThen_of_ok hok, ih _ hrest, listOf_insertName jsonReal hok]
    simp

variable (jsonReal) in
lemma listOf_replaceList (list : BookList) {names : List String} (hnames : names.Nodup)
    (hrec : c.hasRecord uid = true) :
    (c.replaceList jsonReal list uid names).2 = .ok () ∧
      (c.replaceList jsonReal list uid names).1.listOf list uid = names := by
  have hok := (replaceList_ok_iff jsonReal c list uid names).mpr ⟨hnames, fun _ => hrec⟩
  refine ⟨hok, ?_⟩
  unfold replaceList at hok ⊢
  rw [listOf_insertNames names _ hok, listOf_deleteList]
  rfl

variable (jsonReal) in
lemma upsertOverrides_spec (c : Catalog) (uid : String) (o : OverrideRow) :
    (c.upsertOverrides jsonReal uid o).overrides = c.overrides.insert uid o ∧
      (∀ uid', (c.upsertOverrides jsonReal uid o).hasRecord uid' = c.hasRecord uid') := by
  have hrec := fun c : Catalog => (frame_markMetadata jsonReal c uid).record
  unfold upsertOverrides
  dsimp only
  split_ifs
  · refine ⟨?_, fun uid' => hrec _ uid'⟩
    unfold markMetadata
    split <;> rfl
  · exact ⟨rfl, fun _ => rfl⟩

/-- The list of the user, if the override row says that it is theirs, is replaced. -/
def replaceOwned (c : Catalog) (jsonReal : ℚ → Value) (o : OverrideRow) (list : BookList)
    (uid : String) (names : List String) : Catalog × Except AppError Unit :=
  if o.customized list then c.replaceList jsonReal list uid names else (c, .ok ())

variable (jsonReal) in
lemma replaceOwned_spec {list : BookList} {names : List String}
    (hnames : o.customized list = true → names.Nodup) (hrec : c.hasRecord uid = true) :
    (c.replaceOwned jsonReal o list uid names).2 = .ok () ∧
      (o.customized list = true →
        (c.replaceOwned jsonReal o list uid names).1.listOf list uid = names) ∧
      (∀ list', list' ≠ list → (c.replaceOwned jsonReal o list uid names).1.listOf list' uid =
        c.listOf list' uid) ∧
      (c.replaceOwned jsonReal o list uid names).1.overrides = c.overrides ∧
      ∀ uid', (c.replaceOwned jsonReal o list uid names).1.hasRecord uid' = c.hasRecord uid' := by
  unfold replaceOwned
  split_ifs with howned
  · obtain ⟨hok, hlist⟩ := listOf_replaceList jsonReal list (hnames howned) hrec
    let other : OverrideRow :=
      { authorsCustomized := list != .authors, subjectsCustomized := list != .subjects }
    have hother : ∀ list', other.customized list' = (list != list') := by
      intro list'
      cases list' <;> rfl
    have hkeeps : KeepsOwned uid other c (c.replaceList jsonReal list uid names).1 :=
      keepsOwned_replaceList (by rw [hother]; simp) names
    refine ⟨hok, fun _ => hlist, fun list' hne => hkeeps.lists list' ?_, hkeeps.overrides,
      hkeeps.records⟩
    rw [hother]
    simpa using Ne.symm hne
  · exact ⟨rfl, fun h => absurd h howned, fun _ _ => rfl, rfl, fun _ => rfl⟩

variable (jsonReal) in
/-- **A synced override is in the catalog afterwards**, with the lists that it owns. -/
theorem applySyncedOverrides_spec (o : OverrideRow) (authors subjects : List String)
    (hrec : c.hasRecord uid = true)
    (hauthors : o.customized .authors = true → authors.Nodup)
    (hsubjects : o.customized .subjects = true → subjects.Nodup) :
    (c.applySyncedOverrides jsonReal uid o authors subjects).1.overridesOf uid = o ∧
      (o.customized .authors = true →
        (c.applySyncedOverrides jsonReal uid o authors subjects).1.listOf .authors uid = authors) ∧
      (o.customized .subjects = true →
        (c.applySyncedOverrides jsonReal uid o authors subjects).1.listOf .subjects uid =
          subjects) := by
  obtain ⟨hover, hrec₁⟩ := upsertOverrides_spec jsonReal c uid o
  have ha := replaceOwned_spec jsonReal hauthors ((hrec₁ uid).trans hrec)
  have hs := replaceOwned_spec jsonReal hsubjects
    ((ha.2.2.2.2 uid).trans ((hrec₁ uid).trans hrec))
  have hshape : c.applySyncedOverrides jsonReal uid o authors subjects =
      andThen ((c.upsertOverrides jsonReal uid o).replaceOwned jsonReal o .authors uid authors)
        fun c _ => andThen (c.replaceOwned jsonReal o .subjects uid subjects) fun c _ =>
          andThen (c.recomputePrimary jsonReal uid) fun c _ => (c.sweepOrphans, .ok ()) := by
    unfold applySyncedOverrides
    rw [if_neg (not_not.mpr hrec)]
    rfl
  rw [hshape, andThen_of_ok ha.1, andThen_of_ok hs.1]
  generalize hc₃ : (((c.upsertOverrides jsonReal uid o).replaceOwned jsonReal o .authors uid
    authors).1.replaceOwned jsonReal o .subjects uid subjects).1 = c₃ at *
  have ho : c₃.overridesOf uid = o := by
    unfold overridesOf
    rw [hs.2.2.2.1, ha.2.2.2.1, hover, AList.lookup_insert, Option.getD_some]
  have hkeeps : KeepsOwned uid o c₃ (c₃.recomputePrimary jsonReal uid).1 :=
    keepsOwned_recomputePrimary ho
  have hfinal : KeepsOwned uid o c₃ (andThen (c₃.recomputePrimary jsonReal uid) fun c _ =>
      (c.sweepOrphans, (.ok () : Except AppError Unit))).1 :=
    andThen_inv (P := fun c' => KeepsOwned uid o c₃ c') hkeeps fun c' _ h =>
      ⟨h.overrides, h.records, h.lists⟩
  refine ⟨?_, fun h => ?_, fun h => ?_⟩
  · unfold overridesOf at ho ⊢
    rw [hfinal.overrides]
    exact ho
  · rw [hfinal.lists _ h, hs.2.2.1 .authors (by decide), ha.2.1 h]
  · rw [hfinal.lists _ h, hs.2.1 h]

/-! ## Projecting published states -/

section

variable {read : ℚ → ℚ} {state : State} {source : CoverSource} {cover : Option String}

lemma projectMetadata_eq (hcover : source.localPath (stringOrNone state "cover_path") = .ok cover) :
    c.projectMetadata jsonReal uid source state =
      c.applySyncedOverrides jsonReal uid (OverrideRow.ofState state cover)
        (State.stringList state "authors") (State.stringList state "subjects") := by
  unfold projectMetadata
  rw [hcover]

/-- Sorted names are listed as they are. -/
lemma listNames_of_listOf {list : BookList} (h : c'.listOf list uid = c.listNames list uid) :
    c'.listNames list uid = c.listNames list uid := by
  cases list with
  | authors => exact h
  | subjects =>
    have hsorted : (c.listNames .subjects uid).Pairwise (· ≤ ·) := List.pairwise_insertionSort _ _
    change (c'.listOf .subjects uid).insertionSort (· ≤ ·) = _
    rw [h, hsorted.insertionSort_eq]

lemma nodup_listNames {list : BookList} (h : (c.listOf list uid).Nodup) :
    (c.listNames list uid).Nodup := by
  cases list with
  | authors => exact h
  | subjects => exact (List.perm_insertionSort _ _).nodup_iff.mpr h

/-- **Projected metadata is the metadata that was published.** -/
theorem overridesOf_projectMetadata (hreal : RendersReals jsonReal read) {r : OverrideRow}
    (hnodup : ∀ list, (c.listOf list uid).Nodup)
    (h : Agrees .metadata state (Device.publishCover
      (r.snapshot jsonReal (c.ownNames r .authors uid) (c.ownNames r .subjects uid))))
    (hcover : source.localPath (r.coverPath.bind coverFileName) = .ok cover)
    (hrec : c'.hasRecord uid = true) :
    (c'.projectMetadata jsonReal uid source state).1.overridesOf uid = r.carried read cover ∧
      ∀ list, r.customized list = true →
        (c'.projectMetadata jsonReal uid source state).1.listNames list uid =
          c.listNames list uid := by
  have hnames : ∀ list, r.customized list = true →
      State.stringList state list.field = c.listNames list uid := by
    intro list howned
    rw [names_of_agrees h howned]
    cases list <;> exact if_pos howned
  have hcarried : ∀ list, (r.carried read cover).customized list = r.customized list := by
    intro list
    cases list <;> rfl
  have hstored : ∀ list, r.customized list = true → (State.stringList state list.field).Nodup := by
    intro list howned
    rw [hnames list howned]
    exact nodup_listNames (hnodup list)
  rw [projectMetadata_eq ((cover_of_agrees h).symm ▸ hcover),
    OverrideRow.ofState_of_agrees hreal h cover]
  have hspec := applySyncedOverrides_spec jsonReal (r.carried read cover)
    (State.stringList state "authors") (State.stringList state "subjects") hrec
    (fun ho => hstored .authors (hcarried _ ▸ ho)) (fun ho => hstored .subjects (hcarried _ ▸ ho))
  refine ⟨hspec.1, fun list howned => listNames_of_listOf ?_⟩
  rw [← hnames list howned]
  cases list with
  | authors => exact hspec.2.1 ((hcarried .authors).trans howned)
  | subjects => exact hspec.2.2 ((hcarried .subjects).trans howned)

/-- A state without values overrides nothing. -/
theorem overridesOf_projectMetadata_null
    (h : ∀ field ∈ fieldNames .metadata, state.lookup field = some .null)
    (hrec : c.hasRecord uid = true) :
    (c.projectMetadata jsonReal uid source state).1.overridesOf uid = {} := by
  have hcover : stringOrNone state "cover_path" = none := by
    unfold stringOrNone
    rw [h _ (by decide)]
    rfl
  have hlocal : source.localPath (stringOrNone state "cover_path") = .ok none := by
    rw [hcover]
    rfl
  rw [projectMetadata_eq hlocal, OverrideRow.ofState_of_null id h none]
  exact (applySyncedOverrides_spec jsonReal (({} : OverrideRow).carried id none) _ _ hrec
    (fun ho => absurd (show false = true from ho) Bool.false_ne_true)
    (fun ho => absurd (show false = true from ho) Bool.false_ne_true)).1

/-- When a book was added to a collection, by portable uids. -/
def addedAt (c : Catalog) (uid collection : String) : Option String :=
  (c.localCollectionId collection).bind fun id => c.bookCollections.lookup (uid, id)

/-- **A projected membership is the membership that was published.** -/
theorem addedAt_projectMembership {collection time : String} (hcolon : ':' ∉ collection.toList)
    (hrec : c.hasRecord uid = true) (hcol : (c.localCollectionId collection).isSome = true)
    (hpresent : state.lookup "present" = some (.bool true))
    (htime : state.lookup "added_at" = some (.str time)) (now : String) :
    (c.projectMembership (collection ++ ":" ++ uid) state now).addedAt uid collection =
      some time := by
  obtain ⟨id, hid⟩ := Option.isSome_iff_exists.mp hcol
  have hput : ∀ t, ((c.putMembership uid id t).localCollectionId collection = some id) ∧
      (c.putMembership uid id t).bookCollections.lookup (uid, id) = some t := by
    intro t
    unfold putMembership markWhen
    split_ifs
    · exact ⟨hid, AList.lookup_insert _⟩
    · exact ⟨hid, AList.lookup_insert _⟩
  have hpresent' : boolOrFalse state "present" = true := by
    unfold boolOrFalse
    rw [hpresent]
    rfl
  have htime' : stringOrNone state "added_at" = some time := by
    unfold stringOrNone
    rw [htime]
    rfl
  unfold projectMembership
  rw [splitOnce_membership hcolon]
  dsimp only
  rw [if_neg (not_not.mpr hrec), hid]
  dsimp only
  rw [if_pos hpresent', htime', Option.getD_some]
  unfold addedAt
  rw [(hput time).1]
  exact (hput time).2

/-- A membership that is not there is not projected. -/
theorem addedAt_projectMembership_absent {collection : String} (hcolon : ':' ∉ collection.toList)
    (habsent : c.addedAt uid collection = none) (hpresent : boolOrFalse state "present" = false)
    (now : String) :
    (c.projectMembership (collection ++ ":" ++ uid) state now).addedAt uid collection = none := by
  unfold projectMembership
  rw [splitOnce_membership hcolon]
  simp only [hpresent, Bool.false_eq_true, if_false]
  by_cases hrec : c.hasRecord uid = true
  · rw [if_neg (not_not.mpr hrec)]
    cases hid : c.localCollectionId collection with
    | none => exact habsent
    | some id =>
      have hnone : c.bookCollections.lookup (uid, id) = none := by
        unfold addedAt at habsent
        rwa [hid] at habsent
      dsimp only
      unfold deleteMembership
      rw [hnone]
      exact habsent
  · rw [if_pos hrec]
    exact habsent

end

end Catalog

end TuxBooks
