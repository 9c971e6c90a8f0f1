import TuxBooks.Catalog.Edits
import TuxBooks.Device.Emit

set_option relaxedAutoImplicit false
set_option autoImplicit false

/-!
# Edits and drains on one device

A device on which statements change rows of book state while drains run: a drain fetches markers
by one query and captures them one by one, and statements may come between any two of these. A
capture touches the entity of its marker and, when a collection has no portable uid yet, gives it
one.

## Main definitions

* `TuxBooks.Capturing`, `TuxBooks.CaptureEvent` — the device with its running drain.
* `TuxBooks.Draw.Fresh` — what random ids and the clock guarantee.
* `TuxBooks.Device.Captures` — what one capture may change.

## Main results

* `TuxBooks.Device.captures_captureState` — a capture changes no more than that.
-/

namespace TuxBooks

/-! ## The machine -/

/-- A device with the markers that its running drain has fetched and not captured yet. -/
structure Capturing where
  device : Device := {}
  pending : List (DirtyKey × Marker) := []

inductive CaptureEvent where
  /-- A statement changes a row. -/
  | edit (e : RowEdit)
  /-- A drain begins: its query returns the markers of these entities. -/
  | query (keys : List DirtyKey)
  /-- The drain captures its next marker; an error ends it. -/
  | capture (draw : Draw)

namespace CaptureEvent

variable (jsonReal : ℚ → Value) (fromStr : String → Option Value)

def step (s : Capturing) : CaptureEvent → Capturing
  | edit e => { s with device := { s.device with catalog := e.apply jsonReal s.device.catalog } }
  | query keys =>
    match s.pending with
    | [] => { s with
        pending := keys.dedup.filterMap fun k =>
          (s.device.catalog.dirty.lookup k).map fun marker => (k, marker) }
    | _ :: _ => s
  | capture draw =>
    match s.pending with
    | [] => s
    | (k, marker) :: rest =>
      match s.device.captureState jsonReal fromStr k marker draw with
      | (r, .ok _) => ⟨r.1, rest⟩
      | (r, .error _) => ⟨r.1, []⟩

def run (s : Capturing) (events : List CaptureEvent) : Capturing :=
  events.foldl (step jsonReal fromStr) s

end CaptureEvent

/-- What one capture can rely on: the stamp is fresh and the random uid is new. -/
structure Draw.Fresh (d : Device) (draw : Draw) : Prop where
  stamp : ∀ stamp, draw.stamp = .ok stamp → stamp.Fresh d.mirror
  colon : ':' ∉ draw.freshUid.toList
  unmerged : (EntityKind.collection, draw.freshUid) ∉ d.mirror.entityMerges
  unused : ∀ e ∈ d.catalog.collections.entries, e.2.syncUid ≠ some draw.freshUid
  unseen : ∀ e ∈ d.mirror.entities.entries,
    (splitOnce ':' e.1.2).map (·.1) ≠ some draw.freshUid

instance (d : Device) (draw : Draw) : Decidable (draw.Fresh d) :=
  have : Decidable (∀ stamp, draw.stamp = .ok stamp → stamp.Fresh d.mirror) :=
    match draw.stamp with
    | .error _ => isTrue fun _ h => nomatch h
    | .ok stamp => decidable_of_iff (stamp.Fresh d.mirror)
        ⟨fun h _ he => Except.ok.inj he ▸ h, fun h => h stamp rfl⟩
  decidable_of_iff ((∀ stamp, draw.stamp = .ok stamp → stamp.Fresh d.mirror) ∧
      ':' ∉ draw.freshUid.toList ∧ (EntityKind.collection, draw.freshUid) ∉ d.mirror.entityMerges ∧
      (∀ e ∈ d.catalog.collections.entries, e.2.syncUid ≠ some draw.freshUid) ∧
      ∀ e ∈ d.mirror.entities.entries, (splitOnce ':' e.1.2).map (·.1) ≠ some draw.freshUid)
    ⟨fun h => ⟨h.1, h.2.1, h.2.2.1, h.2.2.2.1, h.2.2.2.2⟩,
      fun h => ⟨h.stamp, h.colon, h.unmerged, h.unused, h.unseen⟩⟩

/-- Every capture of a run draws fresh values. -/
def CaptureEvent.Fresh (jsonReal : ℚ → Value) (fromStr : String → Option Value) :
    Capturing → List CaptureEvent → Prop
  | _, [] => True
  | s, event :: events =>
    (match event with
      | capture draw => draw.Fresh s.device
      | _ => True) ∧ Fresh jsonReal fromStr (event.step jsonReal fromStr s) events

/-! ## Book state -/

/-- The kinds that are keyed by a book, or by a collection and a book. -/
def DirtyKey.IsBookState : DirtyKey → Prop
  | progress _ | metadata _ | opened _ | membership _ _ => True
  | _ => False

/-- The tables after a collection without a portable uid got one. -/
def Named (fresh : String) (t t' : Table ℤ CollectionRow) : Prop :=
  t' = t ∨ ∃ id r, t.lookup id = some r ∧ r.syncUid = none ∧
    t' = t.insert id { r with syncUid := some fresh }

namespace Device

/-- What the catalog keeps through a capture of `k`. -/
structure Keeps (c : Catalog) (k : DirtyKey) (fresh : String) (c' : Catalog) : Prop where
  view : ∀ key, c'.view key = c.view key
  dirty : ∀ key, key.IsBookState → key ≠ k → c'.dirty.lookup key = c.dirty.lookup key
  marker : ∀ key marker, key.IsBookState → c'.dirty.lookup key = some marker →
    c.dirty.lookup key = some marker
  records : ∀ uid, c'.hasRecord uid = c.hasRecord uid
  lists : ∀ list uid, c'.listOf list uid = c.listOf list uid
  collections : Named fresh c.collections c'.collections

/-- The entity that a capture of `k` publishes. -/
def Targets (c : Catalog) (target : EntityKind × String) : DirtyKey → Prop
  | .progress uid => target = (.progress, uid)
  | .metadata uid => target = (.metadata, uid)
  | .opened uid => target = (.opened, uid)
  | .membership uid id => ∃ collection, collectionUid id c = some collection ∧
      target = (.membership, collection ++ ":" ++ uid)
  | DirtyKey.annotation _ => target.1 = EntityKind.annotation
  | .collection _ => target.1 = .collection
  | .bookIdentity _ | .book _ => False

/-- What a capture of `k` may change. -/
structure Captures (d : Device) (k : DirtyKey) (fresh : String) (d' : Device) : Prop where
  catalog : Keeps d.catalog k fresh d'.catalog
  mirror : (∀ target, d.mirror.Touched target d'.mirror) ∨
    ∃ target, Targets d'.catalog target k ∧ d.mirror.Touched target d'.mirror

lemma keeps_refl (c : Catalog) (k : DirtyKey) (fresh : String) : Keeps c k fresh c :=
  ⟨fun _ => rfl, fun _ _ _ => rfl, fun _ _ _ h => h, fun _ => rfl, fun _ _ => rfl, Or.inl rfl⟩

/-- Clearing the marker of `k` after a capture. -/
lemma Keeps.clearMarker {c : Catalog} {k : DirtyKey} {fresh : String} {d : Device}
    (h : Keeps c k fresh d.catalog) (marker : Marker) :
    Keeps c k fresh (d.clearMarker k marker).catalog := by
  unfold Device.clearMarker
  split_ifs with hcur
  · refine ⟨fun key => ?_, fun key hkey hne => ?_, fun key mk hkey hmk => ?_, h.records, h.lists,
      h.collections⟩
    · rw [← h.view]
      cases key <;> rfl
    · rw [← h.dirty key hkey hne]
      exact AList.lookup_erase_ne hne
    · rw [Table.lookup_erase'] at hmk
      split_ifs at hmk
      exact h.marker key mk hkey hmk
  · exact h

section

variable (jsonReal : ℚ → Value) (fromStr : String → Option Value)

lemma keeps_storeCollectionUid {c : Catalog} (k : DirtyKey) {id : ℤ} (fresh : String)
    (hnone : collectionUid id c = none) : Keeps c k fresh (storeCollectionUid id c fresh) := by
  unfold storeCollectionUid
  cases hrow : c.collections.lookup id with
  | none => exact keeps_refl c k fresh
  | some r =>
    have huid : r.syncUid = none := by simpa [collectionUid, hrow] using hnone
    have hdirty : ∀ key : DirtyKey, key.IsBookState →
        (c.putCollection id { r with syncUid := some fresh }).dirty.lookup key =
          c.dirty.lookup key := by
      intro key hkey
      refine AList.lookup_insert_ne ?_
      rintro rfl
      exact hkey
    refine ⟨fun key => ?_, fun key hkey _ => hdirty key hkey, fun key mk hkey hmk => ?_,
      fun _ => rfl, fun _ _ => rfl, Or.inr ⟨id, r, hrow, huid, rfl⟩⟩
    · cases key <;> rfl
    · rwa [hdirty key hkey] at hmk

lemma keeps_storeAnnotationUid {c : Catalog} (k : DirtyKey) (id : ℤ) (fresh uid : String) :
    Keeps c k fresh (storeAnnotationUid jsonReal id c uid) := by
  unfold storeAnnotationUid
  cases hrow : c.annotations.lookup id with
  | none => exact keeps_refl c k fresh
  | some r =>
    have hdirty : ∀ key : DirtyKey, key.IsBookState →
        (c.putAnnotation jsonReal id { r with syncUid := some uid }).dirty.lookup key =
          c.dirty.lookup key := by
      intro key hkey
      unfold Catalog.putAnnotation Catalog.markWhen
      split_ifs
      · refine AList.lookup_insert_ne ?_
        rintro rfl
        exact hkey
      · rfl
    have hview : ∀ key, (c.putAnnotation jsonReal id { r with syncUid := some uid }).view key =
        c.view key := by
      intro key
      unfold Catalog.putAnnotation Catalog.markWhen
      split_ifs
      · rw [Catalog.view_mark]
        cases key <;> rfl
      · cases key <;> rfl
    have htables : ∀ (uid' : String) (list : BookList),
        (c.putAnnotation jsonReal id { r with syncUid := some uid }).hasRecord uid' =
          c.hasRecord uid' ∧
        (c.putAnnotation jsonReal id { r with syncUid := some uid }).listOf list uid' =
          c.listOf list uid' ∧
        (c.putAnnotation jsonReal id { r with syncUid := some uid }).collections =
          c.collections := by
      intro uid' list
      unfold Catalog.putAnnotation Catalog.markWhen
      split_ifs <;> exact ⟨rfl, rfl, rfl⟩
    exact ⟨hview, fun key hkey _ => hdirty key hkey,
      fun key mk hkey hmk => by rwa [hdirty key hkey] at hmk,
      fun uid' => (htables uid' .authors).1, fun list uid' => (htables uid' list).2.1,
      Or.inl (htables "" .authors).2.2⟩

/-- Resolving the uid of a row leaves the mirror, and the catalog up to that row. -/
lemma resolveLocalUid_spec (d : Device) (read : Catalog → Option String)
    (store : Catalog → String → Catalog) (snapshotUid : Option String) (deleted : Bool)
    (fresh : String) (k : DirtyKey)
    (hstore : read d.catalog = none → Keeps d.catalog k fresh (store d.catalog fresh)) :
    (d.resolveLocalUid read store snapshotUid deleted fresh).1.mirror = d.mirror ∧
      Keeps d.catalog k fresh
        (d.resolveLocalUid read store snapshotUid deleted fresh).1.catalog := by
  have hself := keeps_refl d.catalog k fresh
  unfold resolveLocalUid
  split
  · exact ⟨rfl, hself⟩
  · split_ifs
    · exact ⟨rfl, hself⟩
    · split
      · exact ⟨rfl, hself⟩
      · next hread => exact ⟨rfl, hstore hread⟩

/-- A capture that published a state on `d₁`, which differs from `d` in what `Keeps` allows. -/
lemma Captures.settle {d d₁ : Device} {k : DirtyKey} {marker : Marker} {draw : Draw}
    {kind : EntityKind} {uid key : String} {bookUid : Option String} {deleted : Bool}
    {state : State} (hkeeps : Keeps d.catalog k draw.freshUid d₁.catalog)
    (hmirror : ∀ target, d.mirror.Touched target d₁.mirror) (hstate : kind.IsState)
    (hkey : Addresses d₁.mirror kind uid key)
    (htarget : ∀ c : Catalog, c.collections = d₁.catalog.collections → Targets c (kind, key) k) :
    Captures d k draw.freshUid (Device.settle k marker
      (d₁.emitState jsonReal fromStr kind uid bookUid deleted false state draw)).1.1 := by
  have hemit : d₁.mirror.Touched (kind, key)
        (d₁.emitState jsonReal fromStr kind uid bookUid deleted false state draw).1.1.mirror ∧
      (d₁.emitState jsonReal fromStr kind uid bookUid deleted false state draw).1.1.catalog =
        d₁.catalog := touched_emitState jsonReal fromStr hstate hkey
  obtain ⟨htouched, hcatalog⟩ := hemit
  generalize d₁.emitState jsonReal fromStr kind uid bookUid deleted false state draw = r at *
  have hkeeps' : Keeps d.catalog k draw.freshUid r.1.1.catalog := by rwa [hcatalog]
  have hclear : (r.1.1.clearMarker k marker).mirror = r.1.1.mirror ∧
      (r.1.1.clearMarker k marker).catalog.collections = r.1.1.catalog.collections := by
    unfold Device.clearMarker
    split_ifs <;> exact ⟨rfl, rfl⟩
  unfold Device.settle
  obtain ⟨⟨d₂, o⟩, _ | _⟩ := r
  · exact ⟨hkeeps', Or.inr ⟨(kind, key), htarget _ (congrArg Catalog.collections hcatalog),
      (hmirror _).trans htouched⟩⟩
  · refine ⟨hkeeps'.clearMarker marker, Or.inr ⟨(kind, key), htarget _ ?_, ?_⟩⟩
    · exact hclear.2.trans (congrArg Catalog.collections hcatalog)
    · change d.mirror.Touched _ (d₂.clearMarker k marker).mirror
      rw [hclear.1]
      exact (hmirror _).trans htouched

/-- A capture that only drops its marker. -/
lemma Captures.skip {d d₁ : Device} {k : DirtyKey} {marker : Marker} {fresh : String}
    (hkeeps : Keeps d.catalog k fresh d₁.catalog)
    (hmirror : ∀ target, d.mirror.Touched target d₁.mirror) :
    Captures d k fresh (d₁.skip k marker).1.1 := by
  refine ⟨hkeeps.clearMarker marker, Or.inl fun target => ?_⟩
  have hclear : (d₁.clearMarker k marker).mirror = d₁.mirror := by
    unfold Device.clearMarker
    split_ifs <;> rfl
  change d.mirror.Touched target (d₁.clearMarker k marker).mirror
  rw [hclear]
  exact hmirror target

end

end Device

/-! ## Canonical identities -/

/-- The uids of the rows are the surviving ones of their identity merges, and the rows of
collections have different ones. -/
structure Device.Canonical (d : Device) : Prop where
  book : ∀ uid, d.catalog.hasRecord uid = true → d.mirror.canonicalBookUid uid = uid
  collection : ∀ id uid, Device.collectionUid id d.catalog = some uid →
    d.mirror.canonicalEntityUid .collection uid = uid ∧ ':' ∉ uid.toList
  unique : ∀ id id' uid, Device.collectionUid id d.catalog = some uid →
    Device.collectionUid id' d.catalog = some uid → id = id'

/-- Splitting the key of a membership at its colon. -/
lemma splitOnce_membership {collection bookUid : String} (h : ':' ∉ collection.toList) :
    splitOnce ':' (collection ++ ":" ++ bookUid) = some (collection, bookUid) := by
  have hkeep : ∀ c ∈ collection.toList, (c != ':') = true := by
    intro c hc
    simp only [bne_iff_ne, ne_eq]
    rintro rfl
    exact h hc
  unfold splitOnce
  rw [String.toList_append, String.toList_append, List.append_assoc,
    List.dropWhile_append_of_pos hkeep, List.takeWhile_append_of_pos hkeep]
  simp

namespace Device

lemma addresses_membership {m : Mirror} {collection bookUid : String}
    (hcollection : m.canonicalEntityUid .collection collection = collection)
    (hcolon : ':' ∉ collection.toList) (hbook : m.canonicalBookUid bookUid = bookUid) :
    Addresses m .membership (collection ++ ":" ++ bookUid) (collection ++ ":" ++ bookUid) := by
  intro op hkind huid
  unfold Mirror.stateKey
  rw [hkind, huid, splitOnce_membership hcolon]
  dsimp only
  rw [hcollection, hbook]

/-- A uid that no merge names is its own canonical uid. -/
lemma canonicalEntityUid_of_notMem {m : Mirror} {kind : EntityKind} {uid : String}
    (h : (kind, uid) ∉ m.entityMerges) : m.canonicalEntityUid kind uid = uid := by
  have hnone : m.entityMerges.lookup (kind, uid) = none := AList.lookup_eq_none.mpr h
  unfold Mirror.canonicalEntityUid
  simp [MergeForest.find, hnone]

lemma collectionUid_of_named {c c' : Catalog} {fresh : String}
    (h : Named fresh c.collections c'.collections) (id : ℤ) :
    collectionUid id c' = collectionUid id c ∨
      collectionUid id c = none ∧ collectionUid id c' = some fresh ∧
        ∀ id', id' ≠ id → collectionUid id' c' = collectionUid id' c := by
  unfold collectionUid
  obtain h | ⟨id₀, r, hr, hnone, h⟩ := h
  · exact Or.inl (by rw [h])
  · by_cases hid : id = id₀
    · subst hid
      refine Or.inr ⟨by simp [hr, hnone], by simp [h], fun id' hne => ?_⟩
      rw [h, AList.lookup_insert_ne hne]
    · exact Or.inl (by rw [h, AList.lookup_insert_ne hid])

/-- A fresh uid for a collection keeps the identities canonical. -/
lemma Canonical.captures {d d' : Device} {k : DirtyKey} {draw : Draw} (hd : d.Canonical)
    (hfresh : draw.Fresh d) (hcap : Captures d k draw.freshUid d') : d'.Canonical := by
  have hmerges : d'.mirror.merges = d.mirror.merges ∧
      d'.mirror.entityMerges = d.mirror.entityMerges := by
    obtain h | ⟨target, -, h⟩ := hcap.mirror
    · exact ⟨(h (EntityKind.book, "")).merges, (h (EntityKind.book, "")).entityMerges⟩
    · exact ⟨h.merges, h.entityMerges⟩
  have hcanon : ∀ uid, d'.mirror.canonicalEntityUid .collection uid =
      d.mirror.canonicalEntityUid .collection uid := by
    intro uid
    unfold Mirror.canonicalEntityUid
    rw [hmerges.2]
  have hunused : ∀ id, collectionUid id d.catalog ≠ some draw.freshUid := by
    intro id huid
    unfold collectionUid at huid
    rw [Option.bind_eq_some_iff] at huid
    obtain ⟨r, hr, hr'⟩ := huid
    exact hfresh.unused _ (AList.mem_lookup_iff.mp hr) hr'
  have hnamed := collectionUid_of_named hcap.catalog.collections
  refine ⟨fun uid huid => ?_, fun id uid huid => ?_, fun id id' uid huid huid' => ?_⟩
  · rw [hcap.catalog.records] at huid
    rw [Mirror.canonicalBookUid_congr hmerges.1]
    exact hd.book uid huid
  · rw [hcanon]
    obtain h | ⟨-, h, -⟩ := hnamed id
    · exact hd.collection id uid (h ▸ huid)
    · obtain rfl := Option.some.inj (h.symm.trans huid)
      exact ⟨canonicalEntityUid_of_notMem hfresh.unmerged, hfresh.colon⟩
  · by_contra hne
    obtain h | ⟨-, h, hother⟩ := hnamed id
    · obtain h' | ⟨-, h', hother⟩ := hnamed id'
      · exact hne (hd.unique id id' uid (h ▸ huid) (h' ▸ huid'))
      · obtain rfl := Option.some.inj (h'.symm.trans huid')
        exact hunused id (h ▸ huid)
    · obtain rfl := Option.some.inj (h.symm.trans huid)
      exact hunused id' ((hother id' (Ne.symm hne)) ▸ huid')

section

variable (jsonReal : ℚ → Value) (fromStr : String → Option Value)

/-- The device before the state goes out differs by an issue about a cover at most. -/
lemma prepare_spec (d : Device) (kind : EntityKind) (snapshot : Fields) (stored : Bool) :
    (∀ target, d.mirror.Touched target (d.prepare kind snapshot stored).1.mirror) ∧
      (d.prepare kind snapshot stored).1.mirror.entities = d.mirror.entities ∧
      (d.prepare kind snapshot stored).1.mirror.appliedOps = d.mirror.appliedOps ∧
      (d.prepare kind snapshot stored).1.mirror.clock = d.mirror.clock ∧
      (d.prepare kind snapshot stored).1.catalog = d.catalog := by
  have hissue : ∀ key issue, (d.mirror.recordIssue key issue).entities = d.mirror.entities ∧
      (d.mirror.recordIssue key issue).appliedOps = d.mirror.appliedOps ∧
      (d.mirror.recordIssue key issue).clock = d.mirror.clock := by
    intro key issue
    unfold Mirror.recordIssue
    split_ifs <;> exact ⟨rfl, rfl, rfl⟩
  have hself : (∀ target, d.mirror.Touched target d.mirror) :=
    fun target => Mirror.Touched.refl d.mirror target
  unfold prepare storeCover
  split_ifs
  · split
    · exact ⟨hself, rfl, rfl, rfl, rfl⟩
    · exact ⟨hself, rfl, rfl, rfl, rfl⟩
  · split
    · exact ⟨fun target => Mirror.touched_recordIssue .., (hissue _ _).1, (hissue _ _).2.1,
        (hissue _ _).2.2, rfl⟩
    · exact ⟨hself, rfl, rfl, rfl, rfl⟩
  · exact ⟨hself, rfl, rfl, rfl, rfl⟩

lemma captures_captureBookState {d : Device} {kind : EntityKind} {k : DirtyKey} {uid : String}
    {marker : Marker} {draw : Draw} (hkind : kind ≠ .collection ∧ kind ≠ .membership)
    (hstate : kind.IsState) (htarget : ∀ c, Targets c (kind, uid) k) :
    Captures d k draw.freshUid
      (d.captureBookState jsonReal fromStr kind k uid marker draw).1.1 := by
  have hrefl : ∀ target, d.mirror.Touched target d.mirror := fun _ => Mirror.Touched.refl _ _
  unfold captureBookState
  split_ifs with hrec
  · cases marker.snapshot with
    | none => exact Captures.skip (keeps_refl _ _ _) hrefl
    | some snapshot =>
      obtain ⟨htouched, -, -, -, hcatalog⟩ := prepare_spec d kind snapshot draw.coverStored
      refine Captures.settle jsonReal fromStr ?_ htouched hstate (addresses_self hkind)
        fun c _ => htarget c
      rw [hcatalog]
      exact keeps_refl _ _ _
  · exact Captures.skip (keeps_refl _ _ _) hrefl

/-- The fields of a membership marker that name its entity. -/
lemma lookup_membershipSnapshot (uid : String) (id : ℤ) (present : Bool) (time : String) :
    ((membershipSnapshot uid id present time).lookup "book_uid").bind Value.asStr = some uid ∧
      (membershipSnapshot uid id present time).lookup "collection_id" = some (.int id) ∧
      (membershipSnapshot uid id present time).lookup "present" = some (.bool present) ∧
      (membershipSnapshot uid id present time).lookup "added_at" = some (.str time) := by
  simp [membershipSnapshot, lookup_jsonObject, Value.asStr]

/-- The snapshot of a membership marker. -/
lemma exists_membershipSnapshot {marker : Marker} {uid : String} {id : ℤ}
    (h : (DirtyKey.membership uid id).HasMarker jsonReal marker) :
    ∃ present time, marker.snapshot = some (membershipSnapshot uid id present time) := by
  obtain ⟨time, h⟩ := h
  cases time with
  | some time =>
    obtain rfl : marker = .upsert (membershipSnapshot uid id true time) := h
    exact ⟨true, time, rfl⟩
  | none =>
    obtain ⟨time, rfl⟩ : ∃ time, marker = .delete (membershipSnapshot uid id false time) := h
    exact ⟨false, time, rfl⟩

/-- A collection marker resolves to the uid of its row. -/
lemma resolveLocalUid_membership {d d₁ : Device} {id : ℤ} {fresh uid : String}
    (hrow : (d.catalog.collections.lookup id).isSome = true)
    (h : d.resolveLocalUid (collectionUid id) (storeCollectionUid id) none false fresh =
      (d₁, some uid)) : collectionUid id d₁.catalog = some uid := by
  unfold resolveLocalUid at h
  simp only [Option.filter_none, Bool.false_eq_true, if_false] at h
  cases hread : collectionUid id d.catalog with
  | some uid' =>
    rw [hread] at h
    cases h
    exact hread
  | none =>
    rw [hread] at h
    cases h
    obtain ⟨r, hr⟩ := Option.isSome_iff_exists.mp hrow
    simp [collectionUid, storeCollectionUid, hr, Catalog.putCollection, Catalog.mark]

lemma captures_captureMembership {d : Device} (hd : d.Canonical) {uid : String} {id : ℤ}
    {marker : Marker} (hmarker : (DirtyKey.membership uid id).HasMarker jsonReal marker)
    {draw : Draw} (hfresh : draw.Fresh d) :
    Captures d (.membership uid id) draw.freshUid
      (d.captureMembership jsonReal fromStr (.membership uid id) marker draw).1.1 := by
  have hrefl : ∀ target, d.mirror.Touched target d.mirror := fun _ => Mirror.Touched.refl _ _
  obtain ⟨present, time, hsnapshot⟩ := exists_membershipSnapshot jsonReal hmarker
  obtain ⟨huid, hid, -, -⟩ := lookup_membershipSnapshot uid id present time
  unfold captureMembership
  rw [hsnapshot]
  dsimp only
  rw [huid, hid]
  by_cases hint : -2 ^ 63 ≤ id ∧ id < 2 ^ 63
  · have hi64 : (some (Value.int id)).bind Value.asI64 = some id := if_pos hint
    rw [hi64]
    dsimp only
    split_ifs with hmissing
    · exact Captures.skip (keeps_refl _ _ _) hrefl
    · rw [not_or, not_not, Option.isNone_iff_eq_none, ← ne_eq, Option.ne_none_iff_isSome]
        at hmissing
      obtain ⟨hmirror, hkeeps⟩ := resolveLocalUid_spec d (collectionUid id)
        (storeCollectionUid id) none false draw.freshUid (.membership uid id)
        fun hnone => keeps_storeCollectionUid _ _ hnone
      rcases hres : d.resolveLocalUid (collectionUid id) (storeCollectionUid id) none false
        draw.freshUid with ⟨d₁, _ | collection⟩
      · rw [hres] at hmirror hkeeps
        exact ⟨hkeeps, Or.inl fun target => hmirror ▸ hrefl target⟩
      · rw [hres] at hmirror hkeeps
        have hcol := resolveLocalUid_membership hmissing.2 hres
        have hd₁ : d₁.Canonical := hd.captures hfresh ⟨hkeeps, Or.inl fun target =>
          hmirror ▸ hrefl target⟩
        obtain ⟨hcanon, hcolon⟩ := hd₁.collection id collection hcol
        have hbook : d₁.mirror.canonicalBookUid uid = uid :=
          hd₁.book uid ((hkeeps.records uid).trans hmissing.1)
        dsimp only
        rw [hcanon, hbook]
        refine Captures.settle jsonReal fromStr hkeeps (fun target => hmirror ▸ hrefl target)
          (by decide) (addresses_membership hcanon hcolon hbook) fun c hc => ⟨collection, ?_, rfl⟩
        unfold collectionUid at hcol ⊢
        rwa [hc]
  · have hi64 : (some (Value.int id)).bind Value.asI64 = none := if_neg hint
    rw [hi64]
    exact Captures.skip (keeps_refl _ _ _) hrefl

/-- **A capture changes its entity and its marker**, and at most names a row. -/
theorem captures_captureState {d : Device} (hd : d.Canonical) {k : DirtyKey} {marker : Marker}
    (hmarker : k.HasMarker jsonReal marker) {draw : Draw} (hfresh : draw.Fresh d) :
    Captures d k draw.freshUid (d.captureState jsonReal fromStr k marker draw).1.1 := by
  have hrefl : ∀ target, d.mirror.Touched target d.mirror := fun _ => Mirror.Touched.refl _ _
  cases k with
  | progress uid =>
    exact captures_captureBookState jsonReal fromStr (by decide) (by decide) fun _ => rfl
  | metadata uid =>
    exact captures_captureBookState jsonReal fromStr (by decide) (by decide) fun _ => rfl
  | opened uid =>
    exact captures_captureBookState jsonReal fromStr (by decide) (by decide) fun _ => rfl
  | membership uid id => exact captures_captureMembership jsonReal fromStr hd hmarker hfresh
  | bookIdentity contentHash => exact ⟨keeps_refl _ _ _, Or.inl hrefl⟩
  | book uid => exact ⟨keeps_refl _ _ _, Or.inl hrefl⟩
  | collection id =>
    change Captures d _ _ (d.captureCollection jsonReal fromStr _ id marker draw).1.1
    unfold captureCollection
    cases marker.snapshot with
    | none => exact Captures.skip (keeps_refl _ _ _) hrefl
    | some snapshot =>
      dsimp only
      obtain ⟨hmirror, hkeeps⟩ := resolveLocalUid_spec d (collectionUid id)
        (storeCollectionUid id) ((snapshot.lookup "sync_uid").bind Value.asStr)
        (marker.op == .delete) draw.freshUid (.collection id)
        fun hnone => keeps_storeCollectionUid _ _ hnone
      rcases hres : d.resolveLocalUid (collectionUid id) (storeCollectionUid id)
        ((snapshot.lookup "sync_uid").bind Value.asStr) (marker.op == .delete)
        draw.freshUid with ⟨d₁, _ | uid⟩
      · rw [hres] at hmirror hkeeps
        exact Captures.skip hkeeps fun target => hmirror ▸ hrefl target
      · rw [hres] at hmirror hkeeps
        have hkey : Addresses d₁.mirror .collection (d₁.mirror.canonicalEntityUid .collection uid)
            (d₁.mirror.canonicalEntityUid .collection
              (d₁.mirror.canonicalEntityUid .collection uid)) := by
          intro op hkind huid
          unfold Mirror.stateKey
          rw [hkind, huid]
        exact Captures.settle jsonReal fromStr hkeeps (fun target => hmirror ▸ hrefl target)
          (by decide) hkey fun _ _ => rfl
  | annotation id =>
    change Captures d _ _ (d.captureAnnotation jsonReal fromStr _ id marker draw).1.1
    unfold captureAnnotation
    cases marker.snapshot with
    | none => exact Captures.skip (keeps_refl _ _ _) hrefl
    | some snapshot =>
      dsimp only
      cases (snapshot.lookup "book_uid").bind Value.asStr with
      | none => exact Captures.skip (keeps_refl _ _ _) hrefl
      | some bookUid =>
        dsimp only
        obtain ⟨hmirror, hkeeps⟩ := resolveLocalUid_spec d
          (fun c => (c.annotations.lookup id).bind (·.syncUid)) (storeAnnotationUid jsonReal id)
          ((snapshot.lookup "sync_uid").bind Value.asStr) (marker.op == .delete) draw.freshUid
          (DirtyKey.annotation id) fun _ => keeps_storeAnnotationUid jsonReal _ _ _ _
        rcases hres : d.resolveLocalUid (fun c => (c.annotations.lookup id).bind (·.syncUid))
          (storeAnnotationUid jsonReal id) ((snapshot.lookup "sync_uid").bind Value.asStr)
          (marker.op == .delete) draw.freshUid with ⟨d₁, _ | uid⟩
        · rw [hres] at hmirror hkeeps
          exact Captures.skip hkeeps fun target => hmirror ▸ hrefl target
        · rw [hres] at hmirror hkeeps
          exact Captures.settle jsonReal fromStr hkeeps (fun target => hmirror ▸ hrefl target)
            (by decide) (addresses_self (by decide)) fun _ _ => rfl

end

end Device

end TuxBooks
