import TuxBooks.Device.Project
import TuxBooks.Device.Tracked

set_option relaxedAutoImplicit false
set_option autoImplicit false

/-!
# Rows that are deleted and inserted again

The rows of book state have no identity of their own: the next row of a book, or of a collection
and a book, reuses the key of the one before. Over a whole run of edits and drains, a row without a
marker is what the mirror says about it, and another device that projects the entity gets the row.

## Main definitions

* `TuxBooks.Capturing.Tracked` — the invariant.
* `TuxBooks.Device.received` — the catalog of another device after it projected the entity.
* `TuxBooks.Device.Reproduced` — that catalog has the row.

## Main results

* `TuxBooks.Capturing.Tracked.run` — every run with fresh draws keeps the invariant.
* `TuxBooks.Capturing.republished` — after every such run the row is reproduced.
-/

namespace TuxBooks

open Device

variable (jsonReal : ℚ → Value) (fromStr : String → Option Value)

/-! ## The invariant -/

/-- The row of `key` is what its marker says or, without one, what the mirror says. -/
structure Capturing.Tracked (key : DirtyKey) (s : Capturing) : Prop where
  canonical : s.device.Canonical
  anchored : s.device.catalog.Anchored key
  live : ∀ uid ∈ key.ownBook, s.device.mirror.forgottenReplacement uid = none
  storable : (s.device.catalog.view key).Storable
  nodup : ∀ list uid, (s.device.catalog.listOf list uid).Nodup
  markers : ∀ k marker, s.device.catalog.dirty.lookup k = some marker → k.HasMarker jsonReal marker
  fetched : ∀ e ∈ s.pending, e.1.HasMarker jsonReal e.2
  distinct : (s.pending.map (·.1)).Nodup
  waiting : key ∈ s.pending.map (·.1) → s.device.catalog.dirty.lookup key ≠ none
  current : ∀ marker, s.device.catalog.dirty.lookup key = some marker →
    MarkerOf jsonReal marker (s.device.catalog.view key)
  behind : (s.device.entityRow key).Behind s.device.mirror.clock
  alive : (∀ uid, key ≠ .progress uid) → (s.device.entityRow key).deleted = false
  book : ∀ row, s.device.entityLookup key = some row → row.bookUid = key.ownBook
  inStep : s.device.catalog.dirty.lookup key = none →
    (s.device.catalog.view key).Mirrored jsonReal (s.device.entityRow key)

namespace Device

/-! ## What edits leave -/

lemma Canonical.congr {d d' : Device} (hd : d.Canonical) (hmirror : d'.mirror = d.mirror)
    (hrec : ∀ uid, d'.catalog.hasRecord uid = d.catalog.hasRecord uid)
    (hcol : d'.catalog.collections = d.catalog.collections) : d'.Canonical := by
  have huid : ∀ id, collectionUid id d'.catalog = collectionUid id d.catalog := by
    intro id
    unfold collectionUid
    rw [hcol]
  refine ⟨fun uid h => ?_, fun id uid h => ?_, fun id id' uid h h' => ?_⟩
  · rw [hmirror]
    exact hd.book uid (hrec uid ▸ h)
  · rw [hmirror]
    exact hd.collection id uid (huid id ▸ h)
  · exact hd.unique id id' uid (huid id ▸ h) (huid id' ▸ h')

lemma entityLookup_eq {d d' : Device} (hmirror : d'.mirror = d.mirror)
    (hcol : d'.catalog.collections = d.catalog.collections) (key : DirtyKey) :
    d'.entityLookup key = d.entityLookup key := by
  have hkey : d'.entityKey key = d.entityKey key := by
    cases key with
    | membership uid id =>
      rw [entityKey_membership, entityKey_membership]
      unfold collectionUid
      rw [hcol]
    | _ => rfl
  unfold entityLookup
  rw [hkey, hmirror]

end Device

/-- Rows stay anchored while their book and their collection stay. -/
lemma Catalog.Anchored.mono {c c' : Catalog} {key : DirtyKey} (h : c.Anchored key)
    (hrec : ∀ uid, c'.hasRecord uid = c.hasRecord uid)
    (hcol : ∀ id, (c'.collections.lookup id).isSome = (c.collections.lookup id).isSome) :
    c'.Anchored key := by
  cases key with
  | progress uid => exact (hrec uid).trans h
  | opened uid => exact (hrec uid).trans h
  | metadata uid => exact (hrec uid).trans h
  | membership uid id => exact ⟨(hrec uid).trans h.1, (hcol id).trans h.2⟩
  | _ => trivial

lemma isSome_of_named {fresh : String} {t t' : Table ℤ CollectionRow} (h : Named fresh t t')
    (id : ℤ) : (t'.lookup id).isSome = (t.lookup id).isSome := by
  obtain rfl | ⟨id₀, r, hr, -, rfl⟩ := h
  · rfl
  · by_cases hid : id = id₀
    · subst hid
      simp [hr]
    · rw [AList.lookup_insert_ne hid]

namespace Capturing

variable {jsonReal fromStr} {key : DirtyKey} {s : Capturing}

/-- A statement keeps the invariant. -/
lemma Tracked.edit (h : s.Tracked jsonReal key) (e : RowEdit) :
    ((CaptureEvent.edit e).step jsonReal fromStr s).Tracked jsonReal key := by
  have hw := e.written jsonReal s.device.catalog
  change Capturing.Tracked jsonReal key
    { s with device := { s.device with catalog := e.apply jsonReal s.device.catalog } }
  generalize e.apply jsonReal s.device.catalog = c' at hw ⊢
  have hrow : ({ s.device with catalog := c' } : Device).entityLookup key =
      s.device.entityLookup key := by
    apply entityLookup_eq
    · rfl
    · exact hw.collections
  have hrow' : ({ s.device with catalog := c' } : Device).entityRow key =
      s.device.entityRow key := by
    unfold entityRow
    rw [hrow]
  -- on another row nothing happened; on this one the marker is new, or nothing happened either
  have hown : c'.view key = s.device.catalog.view key ∧
        c'.dirty.lookup key = s.device.catalog.dirty.lookup key ∨
      ∃ marker, c'.dirty.lookup key = some marker ∧ MarkerOf jsonReal marker (c'.view key) := by
    by_cases hk : key = e.key
    · subst hk
      exact hw.own h.anchored
    · exact Or.inl ⟨hw.view key hk, hw.dirty key hk⟩
  refine ⟨h.canonical.congr rfl hw.records hw.collections,
    h.anchored.mono hw.records fun id => by rw [hw.collections], h.live, ?_, hw.nodup h.nodup,
    fun k marker hmk => ?_, h.fetched, h.distinct, fun hmem => ?_, fun marker hmk => ?_, ?_,
    fun hne => ?_, fun row hr => h.book row (hrow ▸ hr), fun hnone => ?_⟩
  · change (c'.view key).Storable
    by_cases hk : key = e.key
    · subst hk
      exact hw.storable h.storable
    · rw [hw.view key hk]
      exact h.storable
  · by_cases hk : k = e.key
    · subst hk
      obtain hold | hnew := hw.marker marker hmk
      · exact h.markers _ _ hold
      · exact hnew
    · exact h.markers k marker (hw.dirty k hk ▸ hmk)
  · change c'.dirty.lookup key ≠ none
    obtain ⟨-, hsame⟩ | ⟨marker, hnew, -⟩ := hown
    · rw [hsame]
      exact h.waiting hmem
    · rw [hnew]
      exact Option.some_ne_none _
  · change c'.dirty.lookup key = some marker at hmk
    change MarkerOf jsonReal marker (c'.view key)
    obtain ⟨hview, hsame⟩ | ⟨marker', hnew, hof⟩ := hown
    · rw [hview]
      exact h.current marker (hsame ▸ hmk)
    · rw [hnew] at hmk
      exact Option.some.inj hmk ▸ hof
  · rw [hrow']
    exact h.behind
  · rw [hrow']
    exact h.alive hne
  · change c'.dirty.lookup key = none at hnone
    change (c'.view key).Mirrored jsonReal _
    obtain ⟨hview, hsame⟩ | ⟨marker, hnew, -⟩ := hown
    · rw [hview, hrow']
      exact h.inStep (hsame ▸ hnone)
    · rw [hnew] at hnone
      cases hnone

/-- The query of a drain keeps the invariant. -/
lemma Tracked.query (h : s.Tracked jsonReal key) (keys : List DirtyKey) :
    ((CaptureEvent.query keys).step jsonReal fromStr s).Tracked jsonReal key := by
  have hentry : ∀ e, e ∈ (keys.dedup.filterMap fun k =>
      (s.device.catalog.dirty.lookup k).map fun marker => (k, marker)) →
        s.device.catalog.dirty.lookup e.1 = some e.2 := by
    intro e he
    obtain ⟨k, -, hk⟩ := List.mem_filterMap.mp he
    obtain ⟨marker, hmk, rfl⟩ := Option.map_eq_some_iff.mp hk
    exact hmk
  unfold CaptureEvent.step
  dsimp only
  split
  · refine { h with fetched := fun e he => ?_, distinct := ?_, waiting := fun hmem => ?_ }
    · exact h.markers e.1 e.2 (hentry e he)
    · change (List.map _ (List.filterMap _ _)).Nodup
      rw [List.map_filterMap]
      refine (List.nodup_dedup keys).filterMap fun k k' k'' hk hk' => ?_
      rw [Option.mem_def, Option.map_eq_some_iff] at hk hk'
      obtain ⟨_, he, rfl⟩ := hk
      obtain ⟨_, he', heq⟩ := hk'
      obtain ⟨_, -, rfl⟩ := Option.map_eq_some_iff.mp he
      obtain ⟨_, -, rfl⟩ := Option.map_eq_some_iff.mp he'
      exact heq.symm
    · obtain ⟨e, he, rfl⟩ := List.mem_map.mp hmem
      rw [hentry e he]
      exact Option.some_ne_none _
  · exact h

/-- What a capture of any marker leaves of the invariant; the rest is about the entity. -/
lemma Tracked.of_captures (h : s.Tracked jsonReal key) (hstate : key.IsBookState)
    {k : DirtyKey} {draw : Draw} {d' : Device} {rest : List (DirtyKey × Marker)}
    (hfresh : draw.Fresh s.device) (hcap : Captures s.device k draw.freshUid d')
    (hrest : rest.Sublist s.pending) (hbehind : (d'.entityRow key).Behind d'.mirror.clock)
    (halive : (∀ uid, key ≠ .progress uid) → (d'.entityRow key).deleted = false)
    (hbook : ∀ row, d'.entityLookup key = some row → row.bookUid = key.ownBook)
    (hwaiting : key ∈ rest.map (·.1) → d'.catalog.dirty.lookup key ≠ none)
    (hinStep : d'.catalog.dirty.lookup key = none →
      (s.device.catalog.view key).Mirrored jsonReal (d'.entityRow key)) :
    Capturing.Tracked jsonReal key ⟨d', rest⟩ := by
  have hkeeps := hcap.catalog
  have hmirror : d'.mirror.merges = s.device.mirror.merges ∧
      d'.mirror.bookTrash = s.device.mirror.bookTrash := by
    obtain ht | ⟨target, -, ht⟩ := hcap.mirror
    · exact ⟨(ht (EntityKind.book, "")).merges, (ht (EntityKind.book, "")).bookTrash⟩
    · exact ⟨ht.merges, ht.bookTrash⟩
  refine ⟨h.canonical.captures hfresh hcap,
    h.anchored.mono hkeeps.records (isSome_of_named hkeeps.collections), fun uid huid => ?_, ?_,
    fun list uid => ?_, fun k' marker hmk => ?_, fun e he => h.fetched e (hrest.subset he),
    (hrest.map _).nodup h.distinct, hwaiting, fun marker hmk => ?_, hbehind, halive, hbook,
    fun hnone => ?_⟩
  · rw [← h.live uid huid]
    unfold Mirror.forgottenReplacement
    rw [Mirror.canonicalBookUid_congr hmirror.1, hmirror.2]
  · rw [hkeeps.view key]
    exact h.storable
  · rw [hkeeps.lists list uid]
    exact h.nodup list uid
  · by_cases hk' : k'.IsBookState
    · exact h.markers k' marker (hkeeps.marker k' marker hk' hmk)
    · cases k' <;> first | exact absurd trivial hk' | trivial
  · rw [hkeeps.view key]
    exact h.current marker (hkeeps.marker key marker hstate hmk)
  · rw [hkeeps.view key]
    exact hinStep hnone

/-- A capture keeps the invariant. -/
lemma Tracked.capture (h : s.Tracked jsonReal key) (hstate : key.IsBookState)
    (hid : IntegerKey key) {draw : Draw} (hfresh : draw.Fresh s.device) :
    ((CaptureEvent.capture draw).step jsonReal fromStr s).Tracked jsonReal key := by
  obtain ⟨uid, huid⟩ : ∃ uid, key.ownBook = some uid := by
    cases key <;> first | exact ⟨_, rfl⟩ | exact hstate.elim
  cases hpending : s.pending with
  | nil =>
    unfold CaptureEvent.step
    dsimp only
    rw [hpending]
    exact h
  | cons e rest =>
    obtain ⟨k, marker⟩ := e
    have hmarker : k.HasMarker jsonReal marker := h.fetched (k, marker) (by simp [hpending])
    have hcap := captures_captureState jsonReal fromStr h.canonical hmarker hfresh
    have hkey : k ∉ rest.map (·.1) := by
      have hdistinct := h.distinct
      rw [hpending, List.map_cons, List.nodup_cons] at hdistinct
      exact hdistinct.1
    have hafter : ∀ rest', rest'.Sublist rest → Capturing.Tracked jsonReal key
        ⟨(s.device.captureState jsonReal fromStr k marker draw).1.1, rest'⟩ := by
      intro rest' hsub
      have hsub' : rest'.Sublist s.pending := hpending ▸ hsub.cons _
      by_cases hk : k = key
      · subst hk
        have hown := followed_captureState jsonReal fromStr
          ⟨h.canonical, h.anchored, huid, h.live uid huid, hfresh, h.behind⟩ hid hmarker
        refine h.of_captures hstate hfresh hcap hsub' hown.behind
          (fun hne => (hown.alive hne).trans (h.alive hne))
          (fun row hrow => (hown.book row hrow).elim id (h.book row))
          (fun hmem => absurd ((hsub.map _).subset hmem) hkey) fun hnone => ?_
        -- a marker that is gone was the fetched one, so the state that went out is the row
        obtain hsame | ⟨⟨c, hc⟩, hmk, -⟩ := hown.dirty
        · refine absurd (hsame ▸ hnone) (h.waiting ?_)
          rw [hpending]
          exact List.mem_cons_self
        · exact hown.mirrored c hc (h.current marker hmk) h.alive
      · have hlookup := hcap.entityLookup h.canonical hfresh hk
        have hrow : (s.device.captureState jsonReal fromStr k marker draw).1.1.entityRow key =
            s.device.entityRow key := by
          unfold entityRow
          rw [hlookup]
        have hdirty := hcap.catalog.dirty key hstate (Ne.symm hk)
        have hclock : ∀ c, Above
            (s.device.captureState jsonReal fromStr k marker draw).1.1.mirror.clock c →
              Above s.device.mirror.clock c := by
          obtain ht | ⟨target, -, ht⟩ := hcap.mirror
          · exact (ht (EntityKind.book, "")).clock
          · exact ht.clock
        refine h.of_captures hstate hfresh hcap hsub' ?_ ?_ ?_ ?_ ?_
        · rw [hrow]
          exact h.behind.mono hclock
        · rw [hrow]
          exact h.alive
        · rw [hlookup]
          exact h.book
        · intro hmem
          rw [hdirty]
          exact h.waiting ((hsub'.map _).subset hmem)
        · rw [hdirty, hrow]
          exact h.inStep
    unfold CaptureEvent.step
    dsimp only
    rw [hpending]
    dsimp only
    generalize s.device.captureState jsonReal fromStr k marker draw = r at hafter ⊢
    obtain ⟨r, _ | _⟩ := r
    · exact hafter [] (List.nil_sublist _)
    · exact hafter rest (List.Sublist.refl _)

/-- **The invariant holds along every run** whose captures draw fresh values. -/
theorem Tracked.run (hstate : key.IsBookState) (hid : IntegerKey key) {events : List CaptureEvent}
    (h : s.Tracked jsonReal key) (hfresh : CaptureEvent.Fresh jsonReal fromStr s events) :
    (CaptureEvent.run jsonReal fromStr s events).Tracked jsonReal key := by
  induction events generalizing s with
  | nil => exact h
  | cons event events ih =>
    refine ih ?_ hfresh.2
    cases event with
    | edit e => exact h.edit e
    | query keys => exact h.query keys
    | capture draw => exact h.capture hstate hid hfresh.1

end Capturing

/-! ## The start of a run -/

/-- The catalog has no row for the entity. -/
def Catalog.Absent (c : Catalog) : DirtyKey → Prop
  | .progress uid => c.progress.lookup uid = none
  | .opened uid => (c.records.lookup uid).bind (·.lastOpenedAt) = none
  | .metadata uid => c.overrides.lookup uid = none
  | .membership uid id => c.bookCollections.lookup (uid, id) = none
  | _ => True

/-- A device that has the book, and the collection of a membership, where nothing is known of the
entity yet and no drain is running. The markers of other rows are as the triggers leave them. -/
structure Capturing.Unknown (key : DirtyKey) (s : Capturing) : Prop where
  canonical : s.device.Canonical
  anchored : s.device.catalog.Anchored key
  live : ∀ uid ∈ key.ownBook, s.device.mirror.forgottenReplacement uid = none
  nodup : ∀ list uid, (s.device.catalog.listOf list uid).Nodup
  markers : ∀ k marker, s.device.catalog.dirty.lookup k = some marker → k.HasMarker jsonReal marker
  idle : s.pending = []
  absent : s.device.catalog.Absent key
  unmarked : s.device.catalog.dirty.lookup key = none
  unseen : s.device.entityLookup key = none

namespace Capturing

variable {jsonReal fromStr} {key : DirtyKey} {s : Capturing}

lemma Unknown.tracked (h : s.Unknown jsonReal key) : s.Tracked jsonReal key := by
  have hrow : s.device.entityRow key = {} := by
    unfold entityRow
    rw [h.unseen]
    rfl
  have hnull : ∀ field, ({} : EntityRow).value field = .null := fun _ => rfl
  have habsent := h.absent
  refine ⟨h.canonical, h.anchored, h.live, ?_, h.nodup, h.markers, ?_, ?_, ?_, fun marker hmk => ?_,
    ?_, ?_, fun row hr => ?_, fun _ => ?_⟩
  · cases key with
    | progress uid =>
      have hview : s.device.catalog.view (.progress uid) = .progress none :=
        congrArg RowView.progress habsent
      rw [hview]
      trivial
    | _ => trivial
  · simp [h.idle]
  · simp [h.idle]
  · simp [h.idle]
  · rw [h.unmarked] at hmk
    cases hmk
  · rw [hrow]
    exact EntityRow.behind_default _
  · rw [hrow]
    exact fun _ => rfl
  · rw [h.unseen] at hr
    cases hr
  · rw [hrow]
    cases key with
    | progress uid =>
      have hview : s.device.catalog.view (.progress uid) = .progress none :=
        congrArg RowView.progress habsent
      rw [hview]
      exact Or.inr fun field hfield => (lookup_empty_snapshot jsonReal field hfield).symm
    | opened uid =>
      have hview : s.device.catalog.view (.opened uid) = .opened none :=
        congrArg RowView.opened habsent
      rw [hview]
      intro field hfield
      obtain rfl : field = "last_opened_at" := by simpa [fieldNames] using hfield
      simp [hnull, openedSnapshot, lookup_jsonObject, Value.ofText]
    | metadata uid =>
      have hview : s.device.catalog.view (.metadata uid) = .metadata none :=
        congrArg (fun row => RowView.metadata (Option.map _ row)) habsent
      rw [hview]
      exact Or.inr fun field _ => hnull field
    | membership uid id =>
      have hview : s.device.catalog.view (.membership uid id) = .membership uid id none :=
        congrArg (RowView.membership uid id) habsent
      rw [hview]
      rfl
    | _ => trivial

end Capturing

/-! ## What another device gets -/

namespace Device

/-- The catalog `c` of another device after it projected the entity of `key` as `d` has it. -/
def received (d : Device) (key : DirtyKey) (source : CoverSource) (now : String) (c : Catalog) :
    Catalog :=
  match (d.entityKey key).bind fun k => d.mirror.affectedRow k.1 k.2 with
  | none => c
  | some item => (projectState jsonReal { d with catalog := c } source now item).1.catalog

/-- The catalog has the book, and the collection of a membership, and no row for the entity. -/
def Vacant (d : Device) (c : Catalog) : DirtyKey → Prop
  | .membership uid id => c.hasRecord uid = true ∧ ∀ collection ∈ collectionUid id d.catalog,
      (c.localCollectionId collection).isSome = true ∧ c.addedAt uid collection = none
  | key => c.Anchored key ∧ c.Absent key

/-- The catalog has the row of `d`: the same position, time of opening, overrides with the lists
that the user owns, or membership. A row without values is as good as none. The tombstone of a
position is permanent: there is no row, whatever was saved since. -/
def Reproduced (d : Device) (read : ℚ → ℚ) (source : CoverSource) (c : Catalog) : DirtyKey → Prop
  | .progress uid =>
    if (d.entityRow (.progress uid)).deleted then c.progress.lookup uid = none
    else c.position uid = (d.catalog.position uid).carried read
  | .opened uid => (c.records.lookup uid).bind (·.lastOpenedAt) =
      (d.catalog.records.lookup uid).bind (·.lastOpenedAt)
  | .metadata uid => ∀ cover,
      source.localPath ((d.catalog.overridesOf uid).coverPath.bind coverFileName) = .ok cover →
        c.overridesOf uid = (d.catalog.overridesOf uid).carried read cover ∧
          ∀ list, (d.catalog.overridesOf uid).customized list = true →
            c.listNames list uid = d.catalog.listNames list uid
  | .membership uid id =>
    match collectionUid id d.catalog with
    | some collection => c.addedAt uid collection = d.catalog.bookCollections.lookup (uid, id)
    | none => d.catalog.bookCollections.lookup (uid, id) = none
  | _ => True

variable {jsonReal} {d : Device} {key : DirtyKey} {read : ℚ → ℚ} {source : CoverSource}
  {c : Catalog}

lemma entityRow_of_none (h : d.entityLookup key = none) : d.entityRow key = {} := by
  unfold entityRow
  rw [h]
  rfl

lemma entityRow_of_some {row : EntityRow} (h : d.entityLookup key = some row) :
    d.entityRow key = row := by
  unfold entityRow
  rw [h]
  rfl

/-- What a device without a row of the entity gets. -/
lemma received_of_none (h : d.entityLookup key = none) (now : String) :
    d.received jsonReal key source now c = c := by
  unfold received Mirror.affectedRow
  unfold entityLookup at h
  cases hkey : d.entityKey key with
  | none => rfl
  | some k =>
    rw [hkey, Option.bind_some] at h
    rw [Option.bind_some, h]
    rfl

/-- What a device with a row of the entity gets. -/
lemma received_of_some {k : EntityKind × String} (hkey : d.entityKey key = some k)
    {row : EntityRow} (h : d.entityLookup key = some row) {uid : String}
    (hbook : row.bookUid = some uid) (now : String) :
    d.received jsonReal key source now c =
      (projectState jsonReal { d with catalog := c } source now
        ⟨k.1, k.2, some uid⟩).1.catalog := by
  unfold entityLookup at h
  rw [hkey, Option.bind_some] at h
  unfold received Mirror.affectedRow
  rw [hkey, Option.bind_some, h, Option.map_some, hbook]

/-- The state of a row that has the fields of a snapshot. -/
lemma agrees_loadState {kind : EntityKind} {uid : String} {snapshot : Fields}
    (hkey : d.entityKey key = some (kind, uid)) (h : (d.entityRow key).Has kind snapshot) :
    Agrees kind (d.mirror.loadState kind uid).1 snapshot := by
  intro field hfield
  rw [Mirror.lookup_loadState, if_pos hfield]
  rw [entityRow_eq hkey] at h
  rw [h field hfield]

/-- A position of which the mirror has no row. -/
lemma position_of_default {jsonReal : ℚ → Value} (hreal : RendersReals jsonReal read)
    {r : ProgressRow} (hr : r.Storable)
    (h : ({} : EntityRow).Has .progress (r.snapshot jsonReal)) :
    { r.carried read with updatedAt := "" } = ({ updatedAt := "" } : ProgressRow) := by
  let state : State := canonicalFromSnapshot .progress ∅
  have hagrees : Agrees .progress state (r.snapshot jsonReal) := by
    intro field hfield
    rw [← h field hfield]
    unfold state
    rw [lookup_canonicalFromSnapshot, if_pos hfield]
    rfl
  exact (ProgressRow.ofState_of_agrees hreal hr hagrees "").symm

lemma storable_empty : ({ updatedAt := "" } : ProgressRow).Storable := by decide

end Device

namespace Capturing

variable {jsonReal : ℚ → Value} {s : Capturing} {read : ℚ → ℚ} {source : CoverSource}
  {c : Catalog} {uid : String} (now : String)

lemma Tracked.reproduced_progress (hreal : RendersReals jsonReal read)
    (h : s.Tracked jsonReal (.progress uid))
    (hnone : s.device.catalog.dirty.lookup (.progress uid) = none)
    (hvacant : s.device.Vacant c (.progress uid)) :
    s.device.Reproduced read source (s.device.received jsonReal (.progress uid) source now c)
      (.progress uid) := by
  unfold Reproduced
  dsimp only
  have hrec : c.hasRecord uid = true := hvacant.1
  have habsent : c.progress.lookup uid = none := hvacant.2
  have hempty : c.position uid = { updatedAt := "" } := by
    unfold Catalog.position
    rw [habsent]
    rfl
  have hkey : s.device.entityKey (.progress uid) = some (.progress, uid) := rfl
  -- the row of the device, with an empty one in place of none
  let r : ProgressRow := (s.device.catalog.progress.lookup uid).getD { updatedAt := "" }
  have hr : r.Storable := by
    have hstorable := h.storable
    change (RowView.progress (s.device.catalog.progress.lookup uid)).Storable at hstorable
    unfold r
    cases hrow : s.device.catalog.progress.lookup uid with
    | none => exact storable_empty
    | some r => exact (hrow ▸ hstorable : (RowView.progress (some r)).Storable)
  have hcarried : (s.device.catalog.position uid).carried read =
      { r.carried read with updatedAt := "" } := rfl
  have hmirrored : (s.device.entityRow (.progress uid)).deleted = true ∨
      (s.device.entityRow (.progress uid)).Has .progress (r.snapshot jsonReal) := h.inStep hnone
  cases hlookup : s.device.entityLookup (.progress uid) with
  | none =>
    rw [entityRow_of_none hlookup] at hmirrored ⊢
    rw [if_neg Bool.false_ne_true, received_of_none hlookup, hempty, hcarried]
    exact (position_of_default hreal hr (hmirrored.resolve_left Bool.false_ne_true)).symm
  | some row =>
    have hrow := entityRow_of_some hlookup
    have hproject : s.device.received jsonReal (.progress uid) source now c =
        (c.projectProgress jsonReal uid (s.device.mirror.loadState .progress uid).1 row.deleted
          now).1 := by
      rw [received_of_some hkey hlookup (h.book row hlookup)]
      unfold projectState
      dsimp only
      rw [if_neg (not_not.mpr hrec), ← hrow, entityRow_eq hkey]
      rfl
    rw [hproject, hrow]
    cases hdeleted : row.deleted with
    | true => rwa [if_pos rfl, Catalog.position_projectProgress_deleted habsent]
    | false =>
      rw [hrow, hdeleted, ← hrow] at hmirrored
      rw [if_neg Bool.false_ne_true, hcarried]
      exact Catalog.position_projectProgress hreal hr
        (agrees_loadState hkey (hmirrored.resolve_left Bool.false_ne_true)) c uid now

lemma Tracked.reproduced_opened (h : s.Tracked jsonReal (.opened uid))
    (hnone : s.device.catalog.dirty.lookup (.opened uid) = none)
    (hvacant : s.device.Vacant c (.opened uid)) :
    s.device.Reproduced read source (s.device.received jsonReal (.opened uid) source now c)
      (.opened uid) := by
  have hrec : c.hasRecord uid = true := hvacant.1
  have hkey : s.device.entityKey (.opened uid) = some (.opened, uid) := rfl
  have hmirrored : (s.device.entityRow (.opened uid)).Has .opened
    (openedSnapshot ((s.device.catalog.records.lookup uid).bind (·.lastOpenedAt))) :=
      h.inStep hnone
  change ((s.device.received jsonReal (.opened uid) source now c).records.lookup uid).bind
    (·.lastOpenedAt) = _
  generalize (s.device.catalog.records.lookup uid).bind (·.lastOpenedAt) = time at hmirrored ⊢
  have htext : (openedSnapshot time).lookup "last_opened_at" = some (.ofText time) := by
    simp [openedSnapshot, lookup_jsonObject]
  cases hlookup : s.device.entityLookup (.opened uid) with
  | none =>
    have hvalue := hmirrored "last_opened_at" (by decide)
    rw [entityRow_of_none hlookup, htext] at hvalue
    rw [received_of_none hlookup]
    cases time with
    | none => exact hvacant.2
    | some time => cases hvalue
  | some row =>
    have hstate : State.stringOrNone (s.device.mirror.loadState .opened uid).1 "last_opened_at" =
      time :=
      (agrees_loadState hkey hmirrored).text (by decide) htext
    have hproject : s.device.received jsonReal (.opened uid) source now c =
        c.setLastOpened uid time := by
      rw [received_of_some hkey hlookup (h.book row hlookup)]
      unfold projectState
      dsimp only
      rw [if_neg (not_not.mpr hrec)]
      change c.projectOpened uid _ = _
      unfold Catalog.projectOpened
      rw [hstate]
    obtain ⟨r, hr⟩ := Option.isSome_iff_exists.mp hrec
    rw [hproject]
    unfold Catalog.setLastOpened Catalog.markWhen
    rw [hr]
    dsimp only
    split_ifs <;> simp [Catalog.mark]

lemma Tracked.reproduced_metadata (hreal : RendersReals jsonReal read)
    (h : s.Tracked jsonReal (.metadata uid))
    (hnone : s.device.catalog.dirty.lookup (.metadata uid) = none)
    (hvacant : s.device.Vacant c (.metadata uid)) :
    s.device.Reproduced read source (s.device.received jsonReal (.metadata uid) source now c)
      (.metadata uid) := by
  intro cover hcover
  have hrec : c.hasRecord uid = true := hvacant.1
  have habsent : c.overrides.lookup uid = none := hvacant.2
  have hkey : s.device.entityKey (.metadata uid) = some (.metadata, uid) := rfl
  have hmirrored := h.inStep hnone
  change (RowView.metadata ((s.device.catalog.overrides.lookup uid).map fun r =>
    (r, s.device.catalog.ownNames r .authors uid,
      s.device.catalog.ownNames r .subjects uid))).Mirrored
      jsonReal (s.device.entityRow (.metadata uid)) at hmirrored
  have hempty : ∀ c : Catalog, c.overrides.lookup uid = none → c.overridesOf uid = {} := by
    intro c hc
    unfold Catalog.overridesOf
    rw [hc]
    rfl
  cases hlookup : s.device.entityLookup (.metadata uid) with
  | none =>
    -- an override row has its flags in the mirror, so there is none here
    rw [entityRow_of_none hlookup] at hmirrored
    have hsender : s.device.catalog.overrides.lookup uid = none := by
      cases hrow : s.device.catalog.overrides.lookup uid with
      | none => rfl
      | some r =>
        rw [hrow] at hmirrored
        have hflag := hmirrored "authors_customized" (by decide)
        rw [lookup_publishCover, if_neg (by decide)] at hflag
        simp [OverrideRow.snapshot, lookup_jsonObject, EntityRow.value] at hflag
    rw [hempty _ hsender] at hcover ⊢
    obtain rfl : none = cover := Except.ok.inj hcover
    rw [received_of_none hlookup, hempty _ habsent]
    exact ⟨rfl, fun list howned => by cases list <;> cases howned⟩
  | some row =>
    have hproject : s.device.received jsonReal (.metadata uid) source now c =
        (c.projectMetadata jsonReal uid source (s.device.mirror.loadState .metadata uid).1).1 := by
      rw [received_of_some hkey hlookup (h.book row hlookup)]
      unfold projectState
      dsimp only
      rw [if_neg (not_not.mpr hrec)]
      rfl
    rw [hproject]
    cases hrow : s.device.catalog.overrides.lookup uid with
    | some r =>
      have hover : s.device.catalog.overridesOf uid = r := by
        unfold Catalog.overridesOf
        rw [hrow]
        rfl
      rw [hrow] at hmirrored
      rw [hover] at hcover ⊢
      exact Catalog.overridesOf_projectMetadata hreal (fun list => h.nodup list uid)
        (agrees_loadState hkey hmirrored) hcover hrec
    | none =>
      rw [hrow] at hmirrored
      rw [hempty _ hrow] at hcover ⊢
      refine ⟨?_, fun list howned => by cases list <;> cases howned⟩
      obtain rfl : none = cover := Except.ok.inj hcover
      obtain hreset | hnull := hmirrored
      · have hagrees : Agrees .metadata (s.device.mirror.loadState .metadata uid).1
            (publishCover (({} : OverrideRow).snapshot jsonReal
              (s.device.catalog.ownNames {} .authors uid)
              (s.device.catalog.ownNames {} .subjects uid))) := agrees_loadState hkey hreset
        exact (Catalog.overridesOf_projectMetadata hreal (fun list => h.nodup list uid) hagrees rfl
          hrec).1
      · refine Catalog.overridesOf_projectMetadata_null (fun field hfield => ?_) hrec
        rw [Mirror.lookup_loadState, if_pos hfield, ← hnull field hfield, entityRow_eq hkey]

lemma Tracked.reproduced_membership {id : ℤ} (h : s.Tracked jsonReal (.membership uid id))
    (hnone : s.device.catalog.dirty.lookup (.membership uid id) = none)
    (hvacant : s.device.Vacant c (.membership uid id)) :
    s.device.Reproduced read source (s.device.received jsonReal (.membership uid id) source now c)
      (.membership uid id) := by
  obtain ⟨hrec, hcollection⟩ := hvacant
  have hmirrored := h.inStep hnone
  change (RowView.membership uid id (s.device.catalog.bookCollections.lookup (uid, id))).Mirrored
    jsonReal (s.device.entityRow (.membership uid id)) at hmirrored
  have hsender : s.device.entityLookup (.membership uid id) = none →
      s.device.catalog.bookCollections.lookup (uid, id) = none := by
    intro hlookup
    rw [entityRow_of_none hlookup] at hmirrored
    cases htime : s.device.catalog.bookCollections.lookup (uid, id) with
    | none => rfl
    | some time =>
      rw [htime] at hmirrored
      obtain ⟨hpresent, -⟩ := hmirrored
      cases hpresent
  unfold Reproduced
  dsimp only
  cases hcol : collectionUid id s.device.catalog with
  | none =>
    refine hsender ?_
    unfold entityLookup
    rw [entityKey_membership, hcol]
    rfl
  | some collection =>
    obtain ⟨hlocal, habsent⟩ := hcollection collection hcol
    have hcolon := (h.canonical.collection id collection hcol).2
    have hkey : s.device.entityKey (.membership uid id) =
        some (.membership, collection ++ ":" ++ uid) := by
      rw [entityKey_membership, hcol]
      rfl
    dsimp only
    cases hlookup : s.device.entityLookup (.membership uid id) with
    | none => rw [received_of_none hlookup, habsent, hsender hlookup]
    | some row =>
      have hstate : ∀ field ∈ fieldNames .membership,
          (s.device.mirror.loadState .membership (collection ++ ":" ++ uid)).1.lookup field =
            some ((s.device.entityRow (.membership uid id)).value field) := by
        intro field hfield
        rw [Mirror.lookup_loadState, if_pos hfield, entityRow_eq hkey]
      have hproject : s.device.received jsonReal (.membership uid id) source now c =
          c.projectMembership (collection ++ ":" ++ uid)
            (s.device.mirror.loadState .membership (collection ++ ":" ++ uid)).1 now := by
        rw [received_of_some hkey hlookup (h.book row hlookup)]
        unfold projectState
        dsimp only
        rw [if_neg (not_not.mpr hrec)]
        rfl
      rw [hproject]
      cases htime : s.device.catalog.bookCollections.lookup (uid, id) with
      | some time =>
        rw [htime] at hmirrored
        apply Catalog.addedAt_projectMembership hcolon hrec hlocal
        · rw [hstate _ (by decide), hmirrored.1]
        · rw [hstate _ (by decide), hmirrored.2]
      | none =>
        rw [htime] at hmirrored
        apply Catalog.addedAt_projectMembership_absent hcolon habsent
        unfold State.boolOrFalse
        rw [hstate _ (by decide)]
        exact hmirrored

/-- A row without a marker is reproduced on another device. -/
theorem Tracked.reproduced {key : DirtyKey} (hreal : RendersReals jsonReal read)
    (h : s.Tracked jsonReal key) (hnone : s.device.catalog.dirty.lookup key = none)
    (hvacant : s.device.Vacant c key) :
    s.device.Reproduced read source (s.device.received jsonReal key source now c) key := by
  cases key with
  | progress uid => exact h.reproduced_progress now hreal hnone hvacant
  | opened uid => exact h.reproduced_opened now hnone hvacant
  | metadata uid => exact h.reproduced_metadata now hreal hnone hvacant
  | membership uid id => exact h.reproduced_membership now hnone hvacant
  | _ => trivial

instance decidableFresh (jsonReal : ℚ → Value) (fromStr : String → Option Value) :
    (s : Capturing) → (events : List CaptureEvent) →
      Decidable (CaptureEvent.Fresh jsonReal fromStr s events)
  | _, [] => isTrue trivial
  | s, event :: events =>
    have := decidableFresh jsonReal fromStr (event.step jsonReal fromStr s) events
    match event with
    | .edit _ => inferInstanceAs (Decidable (True ∧ _))
    | .query _ => inferInstanceAs (Decidable (True ∧ _))
    | .capture draw => inferInstanceAs (Decidable (draw.Fresh s.device ∧ _))

/-! ### A row that is deleted and inserted again -/

/-- A device with one book. -/
def sampleCapturing : Capturing where
  device := { catalog := { records := [⟨"b", { createdAt := "t" }⟩].toAList } }

/-- A drain of one entity. -/
def sampleDrain (key : DirtyKey) (n : ℕ) : List CaptureEvent :=
  [.query [key], .capture { stamp := .ok ⟨toString n, ⟨n, 0, "d"⟩, ""⟩, freshUid := "u" }]

/-- The title of a book is set, reset and set again, with a drain after each. -/
def sampleEdits : List CaptureEvent :=
  .edit (.upsertOverrides "b" { title := some "A" }) :: sampleDrain (.metadata "b") 1 ++
    .edit (.clearOverrides "b") :: sampleDrain (.metadata "b") 2 ++
    .edit (.upsertOverrides "b" { title := some "B" }) :: sampleDrain (.metadata "b") 3

/-- A position is saved, removed and saved again, with a drain after each. -/
def samplePositions : List CaptureEvent :=
  .edit (.saveProgress "b" { cfi := some "x", updatedAt := "t" }) ::
    sampleDrain (.progress "b") 1 ++
    .edit (.deleteProgress "b") :: sampleDrain (.progress "b") 2 ++
    .edit (.saveProgress "b" { cfi := some "y", updatedAt := "t" }) ::
      sampleDrain (.progress "b") 3

lemma unknown_sampleCapturing (jsonReal : ℚ → Value) {key : DirtyKey}
    (hkey : key = .metadata "b" ∨ key = .progress "b") :
    sampleCapturing.Unknown jsonReal key := by
  have hcanonical : sampleCapturing.device.Canonical := by
    refine ⟨fun uid _ => ?_, fun id uid h => ?_, fun id id' uid h => ?_⟩
    · simp [sampleCapturing, Mirror.canonicalBookUid, MergeForest.find]
    · simp [sampleCapturing, collectionUid] at h
    · simp [sampleCapturing, collectionUid] at h
  have hlists : ∀ list uid, (sampleCapturing.device.catalog.listOf list uid).Nodup := by
    intro list uid
    simp [sampleCapturing, Catalog.listOf]
  have hmarkers : ∀ k marker, sampleCapturing.device.catalog.dirty.lookup k = some marker →
      k.HasMarker jsonReal marker := by
    intro k marker h
    simp [sampleCapturing] at h
  have hlive : ∀ uid, sampleCapturing.device.mirror.forgottenReplacement uid = none := by
    intro uid
    simp [sampleCapturing, Mirror.forgottenReplacement]
  obtain rfl | rfl := hkey
  · exact ⟨hcanonical, rfl, fun uid _ => hlive uid, hlists, hmarkers, rfl, rfl, rfl, rfl⟩
  · exact ⟨hcanonical, rfl, fun uid _ => hlive uid, hlists, hmarkers, rfl, rfl, rfl, rfl⟩

lemma rendersReals_float : RendersReals Value.float id :=
  ⟨fun _ => rfl, monotone_id, fun _ _ => rfl⟩

end Capturing

end TuxBooks
