import TuxBooks.Device.Readback

set_option relaxedAutoImplicit false
set_option autoImplicit false

/-!
# A row and its entity

One row of book state and the entity of the mirror that a capture makes stand for it. A tombstone
of a position is the exception, since it keeps what a later edit of the position says out of the
mirror.

## Main definitions

* `TuxBooks.Device.entityKey`, `TuxBooks.Device.entityRow` — the entity of a row.
* `TuxBooks.RowView.Mirrored` — the entity stands for the row.

## Main results

* `TuxBooks.Device.Captures.entityLookup` — the capture of another marker leaves the entity.
* `TuxBooks.Device.followed_captureState` — the capture of the row's own marker makes the entity
  stand for the row.
-/

namespace TuxBooks

open Fallible

/-! ## Rows and entities -/

/-- The book that an entity of book state belongs to. -/
def DirtyKey.ownBook : DirtyKey → Option String
  | progress uid | metadata uid | opened uid | membership uid _ => some uid
  | _ => none

/-- The row has the fields of a snapshot. -/
def EntityRow.Has (kind : EntityKind) (row : EntityRow) (snapshot : Fields) : Prop :=
  ∀ field ∈ fieldNames kind, row.value field = (snapshot.lookup field).getD .null

/-- The row of the mirror stands for the local row. -/
def RowView.Mirrored (jsonReal : ℚ → Value) (row : EntityRow) : RowView → Prop
  | progress r => row.deleted = true ∨
    row.Has .progress ((r.getD { updatedAt := "" }).snapshot jsonReal)
  | opened time => row.Has .opened (openedSnapshot time)
  | metadata (some (r, authors, subjects)) =>
    row.Has .metadata (Device.publishCover (r.snapshot jsonReal authors subjects))
  | metadata none => row.Has .metadata (Device.publishCover resetSnapshot) ∨
    ∀ field ∈ fieldNames .metadata, row.value field = .null
  | membership _ _ (some time) =>
    row.value "present" = .bool true ∧ row.value "added_at" = .str time
  | membership _ _ none => (row.value "present").asBool.getD false = false
  | other => True

namespace Device

/-- The entity of the mirror that a row stands for; a collection without a portable uid has none. -/
def entityKey (d : Device) : DirtyKey → Option (EntityKind × String)
  | .progress uid => some (.progress, uid)
  | .metadata uid => some (.metadata, uid)
  | .opened uid => some (.opened, uid)
  | .membership uid id =>
    (collectionUid id d.catalog).map fun collection => (.membership, collection ++ ":" ++ uid)
  | _ => none

lemma entityKey_membership (d : Device) (uid : String) (id : ℤ) :
    d.entityKey (.membership uid id) = (collectionUid id d.catalog).map fun collection =>
      (.membership, collection ++ ":" ++ uid) := rfl

def entityLookup (d : Device) (key : DirtyKey) : Option EntityRow :=
  (d.entityKey key).bind fun k => d.mirror.entities.lookup k

def entityRow (d : Device) (key : DirtyKey) : EntityRow := (d.entityLookup key).getD {}

lemma entityRow_eq {d : Device} {key : DirtyKey} {k : EntityKind × String}
    (h : d.entityKey key = some k) : d.entityRow key = d.mirror.row k.1 k.2 := by
  unfold entityRow entityLookup Mirror.row
  rw [h]
  rfl

variable (jsonReal : ℚ → Value) (fromStr : String → Option Value)

/-- The entity of a row is the one it was before, when nothing but a fresh uid for a collection
changed and the mirror has the same row for it. -/
lemma entityLookup_congr {d d' : Device} {draw : Draw} (hfresh : draw.Fresh d)
    (hnamed : Named draw.freshUid d.catalog.collections d'.catalog.collections) {key : DirtyKey}
    (hlookup : ∀ k, d'.entityKey key = some k →
      d'.mirror.entities.lookup k = d.mirror.entities.lookup k) :
    d'.entityLookup key = d.entityLookup key := by
  have hsame : d'.entityKey key = d.entityKey key → d'.entityLookup key = d.entityLookup key := by
    intro hkey
    unfold entityLookup
    rw [← hkey]
    cases hk : d'.entityKey key with
    | none => rfl
    | some k => exact hlookup k hk
  cases key with
  | membership uid id =>
    obtain h | ⟨hnone, hsome, -⟩ := collectionUid_of_named hnamed id
    · exact hsame (congrArg (Option.map _) h)
    · -- the collection got its uid here, and the mirror knows no membership under it
      have hkey : d'.entityKey (.membership uid id) =
          some (.membership, draw.freshUid ++ ":" ++ uid) := by
        rw [entityKey_membership, hsome]
        rfl
      have hunseen : d.mirror.entities.lookup (.membership, draw.freshUid ++ ":" ++ uid)
          = none := by
        rw [Option.eq_none_iff_forall_ne_some]
        intro row hrow
        refine hfresh.unseen _ (AList.mem_lookup_iff.mp hrow) ?_
        dsimp only
        rw [splitOnce_membership hfresh.colon]
        rfl
      have hbefore : d.entityKey (.membership uid id) = none := by
        rw [entityKey_membership, hnone]
        rfl
      unfold entityLookup
      rw [hkey, hbefore]
      exact (hlookup _ hkey).trans hunseen
  | _ => exact hsame rfl

/-- The entity that a capture of another marker publishes is another one. -/
lemma Targets.ne_entityKey {d : Device} (hd : d.Canonical) {k key : DirtyKey}
    {target : EntityKind × String} (htarget : Targets d.catalog target k) (hne : k ≠ key) :
    d.entityKey key ≠ some target := by
  intro hkey
  cases key with
  | progress uid =>
    obtain rfl := Option.some.inj hkey
    cases k <;> simp_all [Targets]
  | metadata uid =>
    obtain rfl := Option.some.inj hkey
    cases k <;> simp_all [Targets]
  | opened uid =>
    obtain rfl := Option.some.inj hkey
    cases k <;> simp_all [Targets]
  | membership uid id =>
    obtain ⟨collection, hcol, rfl⟩ := Option.map_eq_some_iff.mp hkey
    cases k with
    | membership uid' id' =>
      obtain ⟨collection', hcol', heq⟩ := htarget
      have hjoin : collection ++ ":" ++ uid = collection' ++ ":" ++ uid' := congrArg Prod.snd heq
      have hsplit : splitOnce ':' (collection ++ ":" ++ uid) = some (collection, uid) :=
        splitOnce_membership (hd.collection id _ hcol).2
      rw [hjoin, splitOnce_membership (hd.collection id' _ hcol').2] at hsplit
      obtain ⟨rfl, rfl⟩ := Prod.mk.inj (Option.some.inj hsplit)
      exact hne (by rw [hd.unique id' id _ hcol' hcol])
    | _ => simp_all [Targets]
  | _ => cases hkey

/-- A capture of another marker leaves the entity. -/
lemma Captures.entityLookup {d d' : Device} {k key : DirtyKey} {draw : Draw} (hd : d.Canonical)
    (hfresh : draw.Fresh d) (hcap : Captures d k draw.freshUid d') (hne : k ≠ key) :
    d'.entityLookup key = d.entityLookup key := by
  refine entityLookup_congr hfresh hcap.catalog.collections fun t ht => ?_
  obtain h | ⟨target, htarget, h⟩ := hcap.mirror
  · exact (h (EntityKind.annotation, t.2 ++ "x")).lookup t
      fun heq => absurd (congrArg (·.2.length) heq) (by simp)
  · refine h.lookup t fun heq => ?_
    exact htarget.ne_entityKey (hd.captures hfresh hcap) hne (heq ▸ ht)

/-! ## The capture of a row's own marker -/

/-- What a capture of the row's own marker leaves. `before` is the entity it found. -/
structure OwnCapture (d : Device) (key : DirtyKey) (marker : Marker) (kind : EntityKind)
    (deleted : Bool) (state : State) (before : EntityRow)
    (r : (Device × Option Op) × Except AppError Captured) : Prop where
  behind : (r.1.1.entityRow key).Behind r.1.1.mirror.clock
  flag : deleted = false → (r.1.1.entityRow key).deleted = before.deleted
  book : ∀ row, r.1.1.entityLookup key = some row →
    row.bookUid = key.ownBook ∨ d.entityLookup key = some row
  holds : ∀ c, r.2 = .ok c → EntityRow.Holds kind deleted state before (r.1.1.entityRow key)
  dirty : r.1.1.catalog.dirty.lookup key = d.catalog.dirty.lookup key ∨
    (∃ c, r.2 = .ok c) ∧ d.catalog.dirty.lookup key = some marker ∧
      r.1.1.catalog.dirty.lookup key = none

lemma settle_spec (key : DirtyKey) (marker : Marker)
    (r : (Device × Option Op) × Except AppError Unit) :
    (settle key marker r).1.1.mirror = r.1.1.mirror ∧
      (settle key marker r).1.1.catalog.collections = r.1.1.catalog.collections ∧
      ((∃ c, (settle key marker r).2 = .ok c) ↔ r.2 = .ok ()) ∧
      (settle key marker r).1.1.catalog.dirty.lookup key =
        if r.2 = .ok () ∧ r.1.1.catalog.dirty.lookup key = some marker then none
        else r.1.1.catalog.dirty.lookup key := by
  obtain ⟨⟨d, o⟩, e | u⟩ := r
  · exact ⟨rfl, rfl, by simp [settle], by simp [settle]⟩
  · have hclear : ∀ d : Device, (d.clearMarker key marker).mirror = d.mirror ∧
        (d.clearMarker key marker).catalog.collections = d.catalog.collections ∧
        (d.clearMarker key marker).catalog.dirty.lookup key =
          if d.catalog.dirty.lookup key = some marker then none
          else d.catalog.dirty.lookup key := by
      intro d
      unfold clearMarker
      split_ifs
      · exact ⟨rfl, rfl, AList.lookup_erase _ _⟩
      · exact ⟨rfl, rfl, rfl⟩
    obtain ⟨hm, hc, hd⟩ := hclear d
    refine ⟨hm, hc, by simp [settle], ?_⟩
    simpa [settle] using hd

/-- The capture of a row's own marker, from the device `d₁` on which the state is published. -/
lemma ownCapture_settle {d d₁ : Device} {key : DirtyKey} {marker : Marker} {draw : Draw}
    {kind : EntityKind} {uid bookUid : String} {deleted : Bool} {state : State}
    (hkey : d₁.entityKey key = some (kind, uid))
    (hlookup : d₁.entityLookup key = d.entityLookup key)
    (hdirty : d₁.catalog.dirty.lookup key = d.catalog.dirty.lookup key)
    (hready : Ready d₁.mirror kind uid (some bookUid) draw) (hbook : key.ownBook = some bookUid)
    (hcanon : d₁.mirror.canonicalBookUid bookUid = bookUid) (hstate : State.Complete kind state) :
    OwnCapture d key marker kind deleted state (d.entityRow key)
      (settle key marker
        (d₁.emitState jsonReal fromStr kind uid (some bookUid) deleted false state draw)) := by
  obtain ⟨hpub, hholds⟩ := holds_emitState jsonReal fromStr deleted hready hstate
  have hcatalog :
      (d₁.emitState jsonReal fromStr kind uid (some bookUid) deleted false state draw).1.1.catalog =
        d₁.catalog := (touched_emitState jsonReal fromStr hready.state hready.key).2
  generalize d₁.emitState jsonReal fromStr kind uid (some bookUid) deleted false state draw = r at *
  obtain ⟨hmirror, hcol, hok, hclear⟩ := settle_spec key marker r
  have hbefore : d.entityRow key = d₁.mirror.row kind uid := by
    rw [← entityRow_eq hkey]
    unfold entityRow
    rw [hlookup]
  have hkey' : (settle key marker r).1.1.entityKey key = some (kind, uid) := by
    rw [← hkey]
    cases key with
    | membership u id =>
      rw [entityKey_membership, entityKey_membership]
      unfold collectionUid
      rw [hcol, hcatalog]
    | _ => rfl
  have hafter : (settle key marker r).1.1.entityRow key = r.1.1.mirror.row kind uid := by
    rw [entityRow_eq hkey', hmirror]
  refine ⟨?_, fun hdel => ?_, fun row hrow => ?_, fun c hc => ?_, ?_⟩
  · rw [hafter, hmirror]
    exact hpub.behind
  · rw [hafter, hbefore]
    exact hpub.flag hdel
  · unfold entityLookup at hrow
    rw [hkey', Option.bind_some, hmirror] at hrow
    rcases hpub.book row hrow with h | h
    · left
      rw [h, hbook]
      simp [hcanon]
    · right
      rw [← hlookup]
      unfold entityLookup
      rw [hkey]
      exact h
  · rw [hafter, hbefore]
    exact hholds (hok.mp ⟨c, hc⟩)
  · rw [hclear, hcatalog, hdirty]
    by_cases h : r.2 = .ok () ∧ d.catalog.dirty.lookup key = some marker
    · rw [if_pos h]
      exact Or.inr ⟨hok.mpr h.1, h.2, rfl⟩
    · rw [if_neg h]
      exact Or.inl rfl

/-- What the capture of a row's own marker relies on. -/
structure Capturable (d : Device) (key : DirtyKey) (uid : String) (draw : Draw) : Prop where
  canonical : d.Canonical
  anchored : d.catalog.Anchored key
  book : key.ownBook = some uid
  live : d.mirror.forgottenReplacement uid = none
  fresh : draw.Fresh d
  behind : (d.entityRow key).Behind d.mirror.clock

variable {d : Device} {key : DirtyKey} {marker : Marker} {uid : String} {draw : Draw}

lemma Capturable.hasRecord (h : Capturable d key uid draw) : d.catalog.hasRecord uid = true := by
  have hanchored := h.anchored
  have hbook := h.book
  cases key with
  | membership u id =>
    obtain rfl := Option.some.inj hbook
    exact hanchored.1
  | annotation id => cases hbook
  | collection id => cases hbook
  | bookIdentity contentHash => cases hbook
  | book u => cases hbook
  | _ =>
    obtain rfl := Option.some.inj hbook
    exact hanchored

/-- A device that differs from `d` in what operations do not read is as ready. -/
lemma Capturable.ready (h : Capturable d key uid draw) {m : Mirror} {kind : EntityKind}
    {entity : String} (hstate : kind.IsState) (hkey : Addresses m kind entity entity)
    (hmerges : m.merges = d.mirror.merges) (htrash : m.bookTrash = d.mirror.bookTrash)
    (hids : m.appliedOps = d.mirror.appliedOps) (hclock : m.clock = d.mirror.clock)
    (hrow : m.row kind entity = d.entityRow key) : Ready m kind entity (some uid) draw := by
  have hcanon := h.canonical.book uid h.hasRecord
  refine ⟨hstate, hkey, ?_, fun stamp hstamp => ?_, ?_⟩
  · have hsame : m.forgottenReplacement (m.canonicalBookUid uid) =
        d.mirror.forgottenReplacement (d.mirror.canonicalBookUid uid) := by
      unfold Mirror.forgottenReplacement Mirror.canonicalBookUid
      rw [hmerges, htrash]
    simp only [Option.any_some]
    rw [hsame, hcanon, h.live]
    rfl
  · have hfresh := h.fresh.stamp stamp hstamp
    exact ⟨hids ▸ hfresh.opId, hfresh.zero, hclock ▸ hfresh.above⟩
  · rw [hrow, hclock]
    exact h.behind

lemma own_captureBookState (h : Capturable d key uid draw) {kind : EntityKind}
    (hkind : kind = .progress ∨ kind = .metadata ∨ kind = .opened)
    (hkey : ∀ d : Device, d.entityKey key = some (kind, uid)) {snapshot published : Fields}
    (hsnapshot : marker.snapshot = some snapshot)
    (hpublished : (d.prepare kind snapshot draw.coverStored).2 = published) {deleted : Bool}
    (hdeleted : (marker.op == .delete) = deleted) :
    OwnCapture d key marker kind deleted (canonicalFromSnapshot kind published) (d.entityRow key)
      (d.captureBookState jsonReal fromStr kind key uid marker draw) := by
  subst hpublished hdeleted
  obtain ⟨htouched, hentities, hids, hclock, hcatalog⟩ :=
    prepare_spec d kind snapshot draw.coverStored
  have hself := htouched (kind, uid)
  have hstate : kind.IsState ∧ kind ≠ .collection ∧ kind ≠ .membership := by
    rcases hkind with rfl | rfl | rfl <;> decide
  have hlookup : (d.prepare kind snapshot draw.coverStored).1.entityLookup key =
      d.entityLookup key := by
    unfold entityLookup
    rw [hkey, hkey, Option.bind_some, Option.bind_some, hentities]
  have hrow : (d.prepare kind snapshot draw.coverStored).1.mirror.row kind uid =
      d.entityRow key := by
    rw [entityRow_eq (hkey d)]
    unfold Mirror.row
    rw [hentities]
  unfold captureBookState
  rw [if_neg (not_not.mpr h.hasRecord), hsnapshot]
  refine ownCapture_settle jsonReal fromStr (hkey _) hlookup (by rw [hcatalog])
    (h.ready hstate.1 (addresses_self hstate.2) hself.merges hself.bookTrash hids hclock hrow)
    h.book ?_ (complete_canonicalFromSnapshot _ _)
  rw [Mirror.canonicalBookUid_congr hself.merges]
  exact h.canonical.book uid h.hasRecord

lemma complete_membershipState (marker : Marker) (snapshot : Fields) :
    State.Complete .membership (membershipState marker snapshot) := by
  intro field
  unfold membershipState
  rw [lookup_jsonObject]
  by_cases h : field = "present" ∨ field = "added_at"
  · rcases h with rfl | rfl <;> simp [fieldNames]
  · rw [not_or] at h
    simp [fieldNames, h.1, h.2, Ne.symm h.1, Ne.symm h.2]

lemma own_captureMembership {id : ℤ} (hid : IsInteger id)
    (h : Capturable d (.membership uid id) uid draw) {present : Bool} {time : String}
    (hsnapshot : marker.snapshot = some (membershipSnapshot uid id present time)) :
    OwnCapture d (.membership uid id) marker .membership false
      (membershipState marker (membershipSnapshot uid id present time))
      (d.entityRow (.membership uid id))
      (d.captureMembership jsonReal fromStr (.membership uid id) marker draw) := by
  obtain ⟨hrec, hcol⟩ := h.anchored
  obtain ⟨huid, hid', -, -⟩ := lookup_membershipSnapshot uid id present time
  have hi64 : (some (Value.int id)).bind Value.asI64 = some id := if_pos hid
  have hmissing : ¬(¬d.catalog.hasRecord uid = true ∨
      (d.catalog.collections.lookup id).isNone = true) := by
    rw [not_or, not_not, Option.isNone_iff_eq_none, ← ne_eq, Option.ne_none_iff_isSome]
    exact ⟨hrec, hcol⟩
  obtain ⟨hmirror, hkeeps⟩ := resolveLocalUid_spec d (collectionUid id)
    (storeCollectionUid id) none false draw.freshUid (.bookIdentity "")
    fun hnone => keeps_storeCollectionUid _ _ hnone
  unfold captureMembership
  rw [hsnapshot]
  dsimp only
  rw [huid, hid', hi64]
  dsimp only
  rw [if_neg hmissing]
  rcases hres : d.resolveLocalUid (collectionUid id) (storeCollectionUid id) none false
    draw.freshUid with ⟨d₁, _ | collection⟩
  · exfalso
    unfold resolveLocalUid at hres
    simp only [Option.filter_none, Bool.false_eq_true, if_false] at hres
    split at hres <;> cases hres
  · rw [hres] at hmirror hkeeps
    dsimp only at hmirror hkeeps ⊢
    have hnamed := resolveLocalUid_membership hcol hres
    have hd₁ : d₁.Canonical := h.canonical.captures h.fresh
      ⟨hkeeps, Or.inl fun target => hmirror ▸ Mirror.Touched.refl _ _⟩
    obtain ⟨hcanon, hcolon⟩ := hd₁.collection id collection hnamed
    have hbook : d₁.mirror.canonicalBookUid uid = uid :=
      hd₁.book uid ((hkeeps.records uid).trans hrec)
    have hkey : d₁.entityKey (.membership uid id) =
        some (.membership, collection ++ ":" ++ uid) := by
      rw [entityKey_membership, hnamed]
      rfl
    have hlookup : d₁.entityLookup (.membership uid id) = d.entityLookup (.membership uid id) :=
      entityLookup_congr h.fresh hkeeps.collections fun _ _ => by rw [hmirror]
    have hrow : d₁.mirror.row .membership (collection ++ ":" ++ uid) =
        d.entityRow (.membership uid id) := by
      rw [← entityRow_eq hkey]
      unfold entityRow
      rw [hlookup]
    rw [hcanon, hbook]
    exact ownCapture_settle jsonReal fromStr hkey hlookup
      (hkeeps.dirty _ trivial (by simp))
      (h.ready (by decide) (addresses_membership hcanon hcolon hbook) (by rw [hmirror])
        (by rw [hmirror]) (by rw [hmirror]) (by rw [hmirror]) hrow)
      h.book hbook (complete_membershipState _ _)

/-- Row ids are integers of SQLite. -/
def IntegerKey : DirtyKey → Prop
  | .membership _ id => IsInteger id
  | _ => True

/-- What the capture of a row's own marker does to the row's entity. -/
structure Followed (d : Device) (key : DirtyKey) (marker : Marker)
    (r : (Device × Option Op) × Except AppError Captured) : Prop where
  behind : (r.1.1.entityRow key).Behind r.1.1.mirror.clock
  alive : (∀ uid, key ≠ .progress uid) →
    (r.1.1.entityRow key).deleted = (d.entityRow key).deleted
  book : ∀ row, r.1.1.entityLookup key = some row →
    row.bookUid = key.ownBook ∨ d.entityLookup key = some row
  mirrored : ∀ c, r.2 = .ok c → MarkerOf jsonReal marker (d.catalog.view key) →
    ((∀ uid, key ≠ .progress uid) → (d.entityRow key).deleted = false) →
    (d.catalog.view key).Mirrored jsonReal (r.1.1.entityRow key)
  dirty : r.1.1.catalog.dirty.lookup key = d.catalog.dirty.lookup key ∨
    (∃ c, r.2 = .ok c) ∧ d.catalog.dirty.lookup key = some marker ∧
      r.1.1.catalog.dirty.lookup key = none

/-- A published snapshot is what the row has. -/
lemma has_of_holds {kind : EntityKind} {snapshot : Fields} {before after : EntityRow}
    (h : EntityRow.Holds kind false (canonicalFromSnapshot kind snapshot) before after)
    (hlive : before.deleted = false) : after.Has kind snapshot := by
  unfold EntityRow.Holds at h
  rw [if_neg Bool.false_ne_true, hlive] at h
  have hstate := h.resolve_left Bool.false_ne_true
  intro field hfield
  have hvalue := hstate field hfield
  rw [lookup_canonicalFromSnapshot, if_pos hfield] at hvalue
  exact (Option.some.inj hvalue).symm

/-- A marker of an upsert holds its snapshot. -/
lemma snapshot_upsert (snapshot : Fields) : (Marker.upsert snapshot).snapshot = some snapshot := rfl

lemma followed_progress (h : Capturable d (.progress uid) uid draw)
    (hmarker : (DirtyKey.progress uid).HasMarker jsonReal marker) :
    Followed jsonReal d (.progress uid) marker
      (d.captureState jsonReal fromStr (.progress uid) marker draw) := by
  obtain ⟨row, hrow⟩ := hmarker
  have hself : ∀ u, (DirtyKey.progress uid ≠ .progress u) → u ≠ uid :=
    fun u hne hu => hne (hu ▸ rfl)
  cases row with
  | some r =>
    obtain rfl : marker = .upsert (r.snapshot jsonReal) := hrow
    have hown : OwnCapture d (.progress uid) (.upsert (r.snapshot jsonReal)) .progress false
        (canonicalFromSnapshot .progress (r.snapshot jsonReal)) (d.entityRow (.progress uid))
        (d.captureState jsonReal fromStr (.progress uid) (.upsert (r.snapshot jsonReal)) draw) :=
      own_captureBookState jsonReal fromStr h (Or.inl rfl) (fun _ => rfl) (snapshot_upsert _)
        rfl rfl
    generalize d.captureState jsonReal fromStr (.progress uid) _ draw = res at hown ⊢
    refine ⟨hown.behind, fun hne => absurd rfl (hself uid (hne uid)), hown.book,
      fun c hc hof _ => ?_, hown.dirty⟩
    have hholds := hown.holds c hc
    unfold Catalog.view at hof ⊢
    dsimp only at hof ⊢
    cases hlook : d.catalog.progress.lookup uid with
    | some r' =>
      rw [hlook] at hof
      have hsame := Option.some.inj (congrArg Marker.newJson
        (show Marker.upsert (r.snapshot jsonReal) = .upsert (r'.snapshot jsonReal) from hof))
      rw [hsame] at hholds
      cases hdel : (d.entityRow (.progress uid)).deleted with
      | true => exact Or.inl ((hown.flag rfl).trans hdel)
      | false => exact Or.inr (has_of_holds hholds hdel)
    | none =>
      rw [hlook] at hof
      obtain ⟨r', hof⟩ : ∃ r' : ProgressRow,
        Marker.upsert (r.snapshot jsonReal) = .delete (r'.snapshot jsonReal) := hof
      cases hof
  | none =>
    obtain ⟨r, rfl⟩ : ∃ r : ProgressRow, marker = .delete (r.snapshot jsonReal) := hrow
    have hown : OwnCapture d (.progress uid) (.delete (r.snapshot jsonReal)) .progress true
        (canonicalFromSnapshot .progress (r.snapshot jsonReal)) (d.entityRow (.progress uid))
        (d.captureState jsonReal fromStr (.progress uid) (.delete (r.snapshot jsonReal)) draw) :=
      own_captureBookState jsonReal fromStr h (Or.inl rfl) (fun _ => rfl) rfl rfl rfl
    generalize d.captureState jsonReal fromStr (.progress uid) _ draw = res at hown ⊢
    refine ⟨hown.behind, fun hne => absurd rfl (hself uid (hne uid)), hown.book,
      fun c hc hof _ => ?_, hown.dirty⟩
    have hholds := hown.holds c hc
    unfold Catalog.view at hof ⊢
    dsimp only at hof ⊢
    cases hlook : d.catalog.progress.lookup uid with
    | some r' =>
      rw [hlook] at hof
      have hof' : Marker.delete (r.snapshot jsonReal) = .upsert (r'.snapshot jsonReal) := hof
      cases hof'
    | none =>
      unfold EntityRow.Holds at hholds
      rw [if_pos rfl] at hholds
      refine hholds.imp_right fun hnull field hfield => ?_
      rw [hnull field hfield]
      exact (lookup_empty_snapshot jsonReal field hfield).symm

lemma followed_opened (h : Capturable d (.opened uid) uid draw)
    (hmarker : (DirtyKey.opened uid).HasMarker jsonReal marker) :
    Followed jsonReal d (.opened uid) marker
      (d.captureState jsonReal fromStr (.opened uid) marker draw) := by
  obtain ⟨time, rfl⟩ : ∃ time, marker = .upsert (openedSnapshot time) := hmarker
  have hown : OwnCapture d (.opened uid) (.upsert (openedSnapshot time)) .opened false
      (canonicalFromSnapshot .opened (openedSnapshot time)) (d.entityRow (.opened uid))
      (d.captureState jsonReal fromStr (.opened uid) (.upsert (openedSnapshot time)) draw) :=
    own_captureBookState jsonReal fromStr h (Or.inr (Or.inr rfl)) (fun _ => rfl)
      (snapshot_upsert _) rfl rfl
  generalize d.captureState jsonReal fromStr (.opened uid) _ draw = res at hown ⊢
  refine ⟨hown.behind, fun _ => hown.flag rfl, hown.book, fun c hc hof hlive => ?_, hown.dirty⟩
  have hhas := has_of_holds (hown.holds c hc) (hlive fun _ hne => (nomatch hne))
  have hsame := Option.some.inj (congrArg Marker.newJson
    (show Marker.upsert (openedSnapshot time) = .upsert (openedSnapshot
      ((d.catalog.records.lookup uid).bind (·.lastOpenedAt))) from hof))
  rw [hsame] at hhas
  exact hhas

lemma followed_metadata (h : Capturable d (.metadata uid) uid draw)
    (hmarker : (DirtyKey.metadata uid).HasMarker jsonReal marker) :
    Followed jsonReal d (.metadata uid) marker
      (d.captureState jsonReal fromStr (.metadata uid) marker draw) := by
  obtain ⟨snapshot, rfl⟩ : ∃ snapshot, marker = .upsert snapshot := by
    obtain ⟨_ | ⟨r, authors, subjects⟩, hrow⟩ := hmarker
    · exact ⟨_, hrow⟩
    · exact ⟨_, hrow⟩
  have hown : OwnCapture d (.metadata uid) (.upsert snapshot) .metadata false
      (canonicalFromSnapshot .metadata (publishCover snapshot)) (d.entityRow (.metadata uid))
      (d.captureState jsonReal fromStr (.metadata uid) (.upsert snapshot) draw) :=
    own_captureBookState jsonReal fromStr h (Or.inr (Or.inl rfl)) (fun _ => rfl)
      (snapshot_upsert _) rfl rfl
  generalize d.captureState jsonReal fromStr (.metadata uid) _ draw = res at hown ⊢
  refine ⟨hown.behind, fun _ => hown.flag rfl, hown.book, fun c hc hof hlive => ?_, hown.dirty⟩
  have hhas := has_of_holds (hown.holds c hc) (hlive fun _ hne => (nomatch hne))
  unfold Catalog.view at hof ⊢
  dsimp only at hof ⊢
  cases hrow : d.catalog.overrides.lookup uid with
  | some r =>
    rw [hrow] at hof
    have hsame := Option.some.inj (congrArg Marker.newJson (show Marker.upsert snapshot =
      .upsert (r.snapshot jsonReal (d.catalog.ownNames r .authors uid)
        (d.catalog.ownNames r .subjects uid)) from hof))
    rw [hsame] at hhas
    exact hhas
  | none =>
    rw [hrow] at hof
    have hsame := Option.some.inj (congrArg Marker.newJson
      (show Marker.upsert snapshot = .upsert resetSnapshot from hof))
    rw [hsame] at hhas
    exact Or.inl hhas

lemma followed_membership {id : ℤ} (hid : IsInteger id)
    (h : Capturable d (.membership uid id) uid draw)
    (hmarker : (DirtyKey.membership uid id).HasMarker jsonReal marker) :
    Followed jsonReal d (.membership uid id) marker
      (d.captureState jsonReal fromStr (.membership uid id) marker draw) := by
  obtain ⟨present, time, hsnapshot⟩ := exists_membershipSnapshot jsonReal hmarker
  have hown : OwnCapture d (.membership uid id) marker .membership false
      (membershipState marker (membershipSnapshot uid id present time))
      (d.entityRow (.membership uid id))
      (d.captureState jsonReal fromStr (.membership uid id) marker draw) :=
    own_captureMembership jsonReal fromStr hid h hsnapshot
  generalize d.captureState jsonReal fromStr (.membership uid id) _ draw = res at hown ⊢
  refine ⟨hown.behind, fun _ => hown.flag rfl, hown.book, fun c hc hof hlive => ?_, hown.dirty⟩
  have hholds := hown.holds c hc
  unfold EntityRow.Holds at hholds
  rw [if_neg Bool.false_ne_true, hlive fun _ hne => (nomatch hne)] at hholds
  have hstate := hholds.resolve_left Bool.false_ne_true
  have hpresent := hstate "present" (by decide)
  have htime := hstate "added_at" (by decide)
  obtain ⟨-, -, hp, ht⟩ := lookup_membershipSnapshot uid id present time
  simp only [membershipState, lookup_jsonObject, hp, ht] at hpresent htime
  have hvalue := Option.some.inj hpresent
  have hvalue' := Option.some.inj htime
  unfold Catalog.view at hof ⊢
  dsimp only at hof ⊢
  cases hrow : d.catalog.bookCollections.lookup (uid, id) with
  | some t =>
    rw [hrow] at hof
    obtain rfl : marker = .upsert (membershipSnapshot uid id true t) := hof
    have hsame : membershipSnapshot uid id true t = membershipSnapshot uid id present time :=
      Option.some.inj hsnapshot
    obtain ⟨-, -, hp', ht'⟩ := lookup_membershipSnapshot uid id true t
    rw [hsame, hp] at hp'
    rw [hsame, ht] at ht'
    obtain rfl : present = true := Value.bool.inj (Option.some.inj hp')
    obtain rfl : time = t := Value.str.inj (Option.some.inj ht')
    exact ⟨hvalue.symm, hvalue'.symm⟩
  | none =>
    rw [hrow] at hof
    obtain ⟨t, rfl⟩ : ∃ t, marker = .delete (membershipSnapshot uid id false t) := hof
    unfold RowView.Mirrored
    dsimp only
    rw [← hvalue]
    rfl

/-- **The capture of a row's own marker makes the entity stand for the row.** -/
theorem followed_captureState (h : Capturable d key uid draw) (hid : IntegerKey key)
    (hmarker : key.HasMarker jsonReal marker) :
    Followed jsonReal d key marker (d.captureState jsonReal fromStr key marker draw) := by
  have hbook := h.book
  cases key with
  | progress u =>
    obtain rfl := Option.some.inj hbook
    exact followed_progress jsonReal fromStr h hmarker
  | opened u =>
    obtain rfl := Option.some.inj hbook
    exact followed_opened jsonReal fromStr h hmarker
  | metadata u =>
    obtain rfl := Option.some.inj hbook
    exact followed_metadata jsonReal fromStr h hmarker
  | membership u id =>
    obtain rfl := Option.some.inj hbook
    exact followed_membership jsonReal fromStr hid h hmarker
  | annotation id => cases hbook
  | collection id => cases hbook
  | bookIdentity contentHash => cases hbook
  | book u => cases hbook

end Device

end TuxBooks
