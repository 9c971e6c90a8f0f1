import TuxBooks.Catalog.Rows
import TuxBooks.Device.Draining
import TuxBooks.Device.Project
import TuxBooks.Sync.CollectionMerge

set_option relaxedAutoImplicit false
set_option autoImplicit false

/-!
# Projecting a collection

`project_collection` of `sidecar/src/sync/merge.rs`: the name that the mirror has for a collection
becomes the name of its local row. Names of local collections are unique, so a collection that is
here under its name only is merged with the local one. A collection that is here under its uid is
renamed in place, without a look at the name of the other rows.

## Main definitions

* `TuxBooks.Device.projectCollection` — the projection.
* `TuxBooks.Device.KnownTwice` — the uid and the name of a collection are in two local rows.
* `TuxBooks.Device.KeepsNames` — what projecting a collection should do.

## Main results

* `TuxBooks.Device.keepsNames_iff` — it does so exactly when the collection is not known twice.
-/

namespace TuxBooks

open Fallible

/-! ## Writing a collection -/

namespace Catalog

/-- `SELECT id FROM collections WHERE name = ?`. -/
def collectionNamed (c : Catalog) (name : String) : Option ℤ :=
  c.collections.findKey fun r => r.name == name

/-- The unique column in which a row would meet another row of `collections`. -/
def collectionClash (c : Catalog) (id : ℤ) (r : CollectionRow) : Option String :=
  if ∃ e ∈ c.collections.entries, e.1 ≠ id ∧ e.2.name = r.name then some "collections.name"
  else if r.syncUid.isSome ∧ ∃ e ∈ c.collections.entries, e.1 ≠ id ∧ e.2.syncUid = r.syncUid then
    some "collections.sync_uid"
  else none

/-- `UPDATE collections SET ... WHERE id = ?`. -/
def updateCollection (c : Catalog) (id : ℤ) (r : CollectionRow) : Catalog × Except AppError Unit :=
  match c.collectionClash id r with
  | some column => (c, .error (.database ("UNIQUE constraint failed: " ++ column)))
  | none => (c.putCollection id r, .ok ())

/-- `INSERT INTO collections ...`. -/
def insertCollection (c : Catalog) (r : CollectionRow) : Catalog × Except AppError Unit :=
  andThen (c.updateCollection (c.collectionSeq + 1) r) fun c' _ =>
    ({ c' with collectionSeq := c.collectionSeq + 1 }, .ok ())

end Catalog

/-! ## The projection -/

/-- One iteration of the loop of `project_collection_memberships`. -/
def Mirror.projectMember (m : Mirror) (now : String) (c : Catalog) (uid : String) : Catalog :=
  let state := m.loadState .membership uid
  if state.2 then c else c.projectMembership uid state.1 now

namespace Device

def projectCollectionMemberships (d : Device) (uid now : String) : Device :=
  { d with catalog := (d.mirror.membershipsLike uid).foldl (d.mirror.projectMember now) d.catalog }

/-- The uid that two collections of one name go on under; an empty one is no uid. -/
def keptUid (localUid uid : String) : String :=
  if localUid = "" then uid else if localUid ≤ uid then localUid else uid

/-- The merges of a collection with the local one of its name. -/
def joinNamed (m : Mirror) (localUid uid : String) : Mirror :=
  let canonical := keptUid localUid uid
  let m := if localUid ≠ "" ∧ localUid ≠ canonical then
      m.mergeCollectionIdentity localUid canonical
    else m
  if canonical ≠ uid then m.mergeCollectionIdentity uid canonical else m

def projectCollection (d : Device) (uid now : String) : Device × Except AppError Unit :=
  let state := d.mirror.loadState .collection uid
  if state.2 then
    match d.catalog.localCollectionId uid with
    | some id => ({ d with catalog := d.catalog.deleteCollection id }, .ok ())
    | none => (d, .ok ())
  else match (state.1.lookup "name").bind Value.asStr with
    | none => (d, .ok ())
    | some name =>
      let createdAt :=
        ((state.1.lookup "created_at").bind Value.asStr).getD "1970-01-01T00:00:00.000Z"
      match d.catalog.localCollectionId uid with
      | some id =>
        andThen (d.onCatalog (d.catalog.updateCollection id ⟨some uid, name, createdAt⟩))
          fun d _ => (d.projectCollectionMemberships uid now, .ok ())
      | none =>
        match d.catalog.collectionNamed name with
        | some id =>
          let localUid := (collectionUid id d.catalog).getD ""
          let canonical := keptUid localUid uid
          let d := { d with mirror := joinNamed d.mirror localUid uid }
          -- the surviving row keeps the local id, so memberships keep pointing at it
          andThen (d.onCatalog (d.catalog.updateCollection id ⟨some canonical, name, createdAt⟩))
            fun d _ => (d.projectCollectionMemberships canonical now, .ok ())
        | none =>
          andThen (d.onCatalog (d.catalog.insertCollection ⟨some uid, name, createdAt⟩))
            fun d _ => (d.projectCollectionMemberships uid now, .ok ())

end Device

/-! ## What it should do -/

/-- Different local collections have different names. -/
def Catalog.DistinctNames (c : Catalog) : Prop :=
  ∀ i j r s, c.collections.lookup i = some r → c.collections.lookup j = some s →
    r.name = s.name → i = j

/-- The unique columns of `collections`. -/
structure Catalog.UniqueCollections (c : Catalog) : Prop where
  name : c.DistinctNames
  uid : ∀ i j r s, c.collections.lookup i = some r → c.collections.lookup j = some s →
    r.syncUid = s.syncUid → r.syncUid.isSome → i = j

/-- Rows are compared pairwise, so the entries of the table decide. -/
lemma Catalog.forall_collections {c : Catalog} {P : ℤ → CollectionRow → ℤ → CollectionRow → Prop} :
    (∀ e ∈ c.collections.entries, ∀ f ∈ c.collections.entries, P e.1 e.2 f.1 f.2) ↔
      ∀ i j r s, c.collections.lookup i = some r → c.collections.lookup j = some s → P i r j s := by
  simp only [Table.lookup_eq_some_iff]
  constructor
  · intro h i j r s hr hs
    exact h ⟨i, r⟩ hr ⟨j, s⟩ hs
  · rintro h ⟨i, r⟩ hr ⟨j, s⟩ hs
    exact h i j r s hr hs

instance (c : Catalog) : Decidable c.UniqueCollections :=
  decidable_of_iff
    (∀ e ∈ c.collections.entries, ∀ f ∈ c.collections.entries,
      (e.2.name = f.2.name → e.1 = f.1) ∧
        (e.2.syncUid = f.2.syncUid → e.2.syncUid.isSome → e.1 = f.1)) <| by
    rw [Catalog.forall_collections (P := fun i r j s => (r.name = s.name → i = j) ∧
      (r.syncUid = s.syncUid → r.syncUid.isSome → i = j))]
    exact ⟨fun h => ⟨fun i j r s hr hs => (h i j r s hr hs).1,
      fun i j r s hr hs => (h i j r s hr hs).2⟩,
      fun h i j r s hr hs => ⟨h.name i j r s hr hs, h.uid i j r s hr hs⟩⟩

/-- The name of a local collection. -/
def Catalog.collectionName (c : Catalog) (id : ℤ) : Option String :=
  (c.collections.lookup id).map (·.name)

/-- The name that the mirror has for a collection, unless it is deleted. -/
def Mirror.shelfName (m : Mirror) (uid : String) : Option String :=
  if (m.loadState .collection uid).2 then none
  else ((m.loadState .collection uid).1.lookup "name").bind Value.asStr

/-- What the mirror says about a book in a collection, if it says anything. -/
def Mirror.says (m : Mirror) (collection book : String) : Option Bool :=
  match m.entities.lookup (.membership, collection ++ ":" ++ book) with
  | some row =>
    if row.deleted then none
    else some (State.boolOrFalse (m.loadState .membership (collection ++ ":" ++ book)).1 "present")
  | none => none

namespace Device

/-- One of two local rows is left, under the smaller uid and with the books of both. -/
structure OneLeft (c c' : Catalog) (uid : String) (i j kept gone : ℤ) : Prop where
  either : kept = i ∧ gone = j ∨ kept = j ∧ gone = i
  gone : c'.collections.lookup gone = none
  uid : collectionUid kept c' = some (keptUid ((collectionUid j c).getD "") uid)
  books : ∀ book, (book, kept) ∈ c'.bookCollections ↔
    (book, i) ∈ c.bookCollections ∨ (book, j) ∈ c.bookCollections

/-- The local row of a name stands for both collections, under the uid they keep. Its books are its
own and those of the joined memberships, except where the newest membership is a removal. -/
structure Adopted (c : Catalog) (d' : Device) (name kept : String) (j : ℤ) : Prop where
  name : d'.catalog.collectionName j = some name
  uid : collectionUid j d'.catalog = some kept
  books : ':' ∉ kept.toList → ∀ book, c.hasRecord book = true →
    ((book, j) ∈ d'.catalog.bookCollections ↔
      ((book, j) ∈ c.bookCollections ∨ d'.mirror.says kept book = some true) ∧
        d'.mirror.says kept book ≠ some false)

/-- The projection succeeds, names stay distinct, and a name that two collections share leaves one
local row. -/
structure KeepsNames (d : Device) (uid : String) (r : Device × Except AppError Unit) : Prop where
  succeeds : r.2 = .ok ()
  distinct : r.1.catalog.DistinctNames
  joined : ∀ name ∈ d.mirror.shelfName uid, ∀ i j, collectionUid i d.catalog = some uid →
    d.catalog.collectionName j = some name → i ≠ j →
      ∃ kept gone, OneLeft d.catalog r.1.catalog uid i j kept gone
  adopted : ∀ name ∈ d.mirror.shelfName uid, (∀ i, collectionUid i d.catalog ≠ some uid) →
    ∀ j, d.catalog.collectionName j = some name →
      Adopted d.catalog r.1 name (keptUid ((collectionUid j d.catalog).getD "") uid) j

/-- One local row has the uid of the collection, and another one has its name. -/
def KnownTwice (d : Device) (uid : String) : Prop :=
  ∃ name ∈ d.mirror.shelfName uid, ∃ i j, collectionUid i d.catalog = some uid ∧
    d.catalog.collectionName j = some name ∧ i ≠ j

end Device

/-! ## Rows of collections -/

namespace Catalog

variable {c : Catalog} {id : ℤ} {uid name : String} {r : CollectionRow}

lemma collectionName_eq_some :
    c.collectionName id = some name ↔ ∃ r, c.collections.lookup id = some r ∧ r.name = name :=
  Option.map_eq_some_iff

lemma collectionUid_eq_some :
    Device.collectionUid id c = some uid ↔
      ∃ r, c.collections.lookup id = some r ∧ r.syncUid = some uid :=
  Option.bind_eq_some_iff

lemma collectionNamed_eq_some (h : c.UniqueCollections) :
    c.collectionNamed name = some id ↔ c.collectionName id = some name := by
  rw [collectionName_eq_some]
  constructor
  · intro hfound
    obtain ⟨r, hr, hname⟩ := Table.exists_of_findKey hfound
    exact ⟨r, hr, beq_iff_eq.mp hname⟩
  · rintro ⟨r, hr, rfl⟩
    refine (Table.findKey_eq_some fun j s hs hname => ?_).mpr ⟨r, hr, beq_self_eq_true _⟩
    exact h.name j id s r hs hr (beq_iff_eq.mp hname)

lemma collectionNamed_eq_none :
    c.collectionNamed name = none ↔ ∀ j, c.collectionName j ≠ some name := by
  rw [collectionNamed, Table.findKey_eq_none]
  simp [collectionName]

/-- The row that is found under a uid has it. -/
lemma collectionUid_of_localCollectionId (h : c.localCollectionId uid = some id) :
    Device.collectionUid id c = some uid := by
  obtain ⟨r, hr, huid⟩ :=
    Table.exists_of_findKey (p := fun r : CollectionRow => r.syncUid == some uid) h
  exact collectionUid_eq_some.mpr ⟨r, hr, beq_iff_eq.mp huid⟩

/-- The only row with a uid is found under it. -/
lemma localCollectionId_of_own (hid : Device.collectionUid id c = some uid)
    (hown : ∀ j s, c.collections.lookup j = some s → s.syncUid = some uid → j = id) :
    c.localCollectionId uid = some id := by
  obtain ⟨r, hr, huid⟩ := collectionUid_eq_some.mp hid
  exact (Table.findKey_eq_some fun j s hs hsame => hown j s hs (beq_iff_eq.mp hsame)).mpr
    ⟨r, hr, beq_iff_eq.mpr huid⟩

lemma localCollectionId_eq_some (h : c.UniqueCollections) :
    c.localCollectionId uid = some id ↔ Device.collectionUid id c = some uid := by
  refine ⟨collectionUid_of_localCollectionId, fun hid => ?_⟩
  refine localCollectionId_of_own hid fun j s hs hsame => ?_
  obtain ⟨r, hr, huid⟩ := collectionUid_eq_some.mp hid
  exact h.uid j id s r hs hr (hsame.trans huid.symm) (hsame ▸ rfl)

lemma localCollectionId_eq_none :
    c.localCollectionId uid = none ↔ ∀ i, Device.collectionUid i c ≠ some uid := by
  have hfind : c.localCollectionId uid = c.collections.findKey fun r => r.syncUid == some uid := rfl
  rw [hfind, Table.findKey_eq_none]
  simp [Device.collectionUid, Option.bind_eq_some_iff]

/-- A row meets no other row exactly when it is the only one with its name and its uid. -/
lemma collectionClash_eq_none :
    c.collectionClash id r = none ↔
      (∀ j s, c.collections.lookup j = some s → s.name = r.name → j = id) ∧
        (r.syncUid.isSome → ∀ j s, c.collections.lookup j = some s → s.syncUid = r.syncUid →
          j = id) := by
  have hentries (P : CollectionRow → Prop) :
      (∃ e ∈ c.collections.entries, e.1 ≠ id ∧ P e.2) ↔
        ¬∀ j s, c.collections.lookup j = some s → P s → j = id := by
    push Not
    constructor
    · rintro ⟨⟨j, s⟩, hmem, hne, hp⟩
      exact ⟨j, s, Table.lookup_eq_some_iff.mpr hmem, hp, hne⟩
    · rintro ⟨j, s, hs, hp, hne⟩
      exact ⟨⟨j, s⟩, Table.lookup_eq_some_iff.mp hs, hne, hp⟩
  have hnames := hentries fun s => s.name = r.name
  have huids := hentries fun s => s.syncUid = r.syncUid
  unfold collectionClash
  split_ifs with hname huid
  · refine iff_of_false nofun fun h => ?_
    exact hnames.mp hname h.1
  · refine iff_of_false nofun fun h => ?_
    exact huids.mp huid.2 (h.2 huid.1)
  · refine iff_of_true rfl ⟨?_, fun hsome => ?_⟩
    · exact not_not.mp (mt hnames.mpr hname)
    · exact not_not.mp (mt huids.mpr fun h => huid ⟨hsome, h⟩)

lemma updateCollection_of_clash {column : String} (h : c.collectionClash id r = some column) :
    c.updateCollection id r =
      (c, .error (.database ("UNIQUE constraint failed: " ++ column))) := by
  rw [updateCollection, h]

lemma updateCollection_of_none (h : c.collectionClash id r = none) :
    c.updateCollection id r = (c.putCollection id r, .ok ()) := by
  rw [updateCollection, h]

/-- A row that meets no other row keeps names distinct. -/
lemma DistinctNames.insert {c' : Catalog} (h : c.DistinctNames)
    (hclash : ∀ j s, c.collections.lookup j = some s → s.name = r.name → j = id)
    (hc' : c'.collections = c.collections.insert id r) : c'.DistinctNames := by
  intro i j s t hs ht hname
  rw [hc', Table.lookup_insert'] at hs ht
  split_ifs at hs ht with hi hj hj
  · rw [hi, hj]
  · rw [hi]
    refine (hclash j t ht ?_).symm
    rw [← hname, Option.some.inj hs]
  · rw [hj]
    refine hclash i s hs ?_
    rw [hname, Option.some.inj ht]
  · exact h i j s t hs ht hname

end Catalog

/-! ## Projecting memberships -/

namespace Catalog

/-- The membership with this key is about the book and the local collection. -/
def NamesMember (c : Catalog) (key book : String) (id : ℤ) : Prop :=
  ∃ collection, splitOnce ':' key = some (collection, book) ∧ c.hasRecord book = true ∧
    c.localCollectionId collection = some id

/-- Besides the books of collections, two catalogs agree. -/
def SameShelves (c c' : Catalog) : Prop :=
  ∃ t, c'.plain = { c.plain with bookCollections := t }

variable {c c' c'' : Catalog}

lemma SameShelves.refl (c : Catalog) : c.SameShelves c := ⟨c.bookCollections, rfl⟩

lemma SameShelves.trans (h : c.SameShelves c') (h' : c'.SameShelves c'') : c.SameShelves c'' := by
  obtain ⟨_, ht⟩ := h
  obtain ⟨t', ht'⟩ := h'
  exact ⟨t', by rw [ht', ht]⟩

lemma SameShelves.collections (h : c.SameShelves c') : c'.collections = c.collections := by
  obtain ⟨_, ht⟩ := h
  exact (congrArg Catalog.collections ht : c'.plain.collections = _)

lemma SameShelves.records (h : c.SameShelves c') : c'.records = c.records := by
  obtain ⟨_, ht⟩ := h
  exact (congrArg Catalog.records ht : c'.plain.records = _)

lemma SameShelves.namesMember (h : c.SameShelves c') {key book : String} {id : ℤ} :
    c'.NamesMember key book id ↔ c.NamesMember key book id := by
  unfold NamesMember hasRecord localCollectionId
  rw [h.records, h.collections]

lemma bookCollections_putMembership (c : Catalog) (uid : String) (id : ℤ) (time : String) :
    (c.putMembership uid id time).bookCollections = c.bookCollections.insert (uid, id) time :=
  (congrArg Catalog.bookCollections (plain_putMembership c uid id time) :)

lemma bookCollections_deleteMembership (c : Catalog) (uid : String) (id : ℤ) :
    (c.deleteMembership uid id).bookCollections = c.bookCollections.erase (uid, id) :=
  (congrArg Catalog.bookCollections (plain_deleteMembership c uid id) :)

/-- Projecting a membership writes the one row that the membership is about, if there is one. -/
lemma projectMembership_cases (c : Catalog) (key : String) (state : State) (now : String) :
    (c.projectMembership key state now = c ∧ ∀ book i, ¬c.NamesMember key book i) ∨
      ∃ book i, (∀ book' i', c.NamesMember key book' i' ↔ (book', i') = (book, i)) ∧
        if state.boolOrFalse "present" = true then
          ∃ time, c.projectMembership key state now = c.putMembership book i time
        else c.projectMembership key state now = c.deleteMembership book i := by
  unfold projectMembership NamesMember
  cases hsplit : splitOnce ':' key with
  | none => exact .inl ⟨rfl, by simp⟩
  | some p =>
    obtain ⟨collection, book⟩ := p
    dsimp only
    by_cases hrecord : c.hasRecord book = true
    · rw [if_neg (not_not.mpr hrecord)]
      cases hid : c.localCollectionId collection with
      | none =>
        refine .inl ⟨rfl, ?_⟩
        rintro _ i ⟨_, heq, -, hi⟩
        cases heq
        rw [hid] at hi
        cases hi
      | some i =>
        refine .inr ⟨book, i, fun book' i' => ⟨?_, ?_⟩, ?_⟩
        · rintro ⟨_, heq, -, hi⟩
          cases heq
          rw [hid] at hi
          cases hi
          rfl
        · intro heq
          cases heq
          exact ⟨collection, rfl, hrecord, hid⟩
        · dsimp only
          split_ifs
          · exact ⟨_, rfl⟩
          · rfl
    · rw [if_pos hrecord]
      refine .inl ⟨rfl, ?_⟩
      rintro _ i ⟨_, heq, hrec, -⟩
      cases heq
      exact hrecord hrec

lemma sameShelves_projectMembership (c : Catalog) (key : String) (state : State) (now : String) :
    c.SameShelves (c.projectMembership key state now) := by
  obtain ⟨heq, -⟩ | ⟨book, i, -, hwrite⟩ := c.projectMembership_cases key state now
  · rw [heq]
    exact SameShelves.refl c
  · split_ifs at hwrite
    · obtain ⟨time, heq⟩ := hwrite
      exact ⟨_, heq ▸ plain_putMembership c book i time⟩
    · exact ⟨_, hwrite ▸ plain_deleteMembership c book i⟩

/-- What projecting a membership does to the row that it is about. -/
lemma mem_projectMembership_of_names {key book : String} {i : ℤ} (h : c.NamesMember key book i)
    (state : State) (now : String) :
    (book, i) ∈ (c.projectMembership key state now).bookCollections ↔
      state.boolOrFalse "present" = true := by
  obtain ⟨-, hnone⟩ | ⟨book', i', hnames, hwrite⟩ := c.projectMembership_cases key state now
  · exact absurd h (hnone book i)
  · rw [hnames] at h
    split_ifs at hwrite with hpresent
    · obtain ⟨time, heq⟩ := hwrite
      rw [heq, bookCollections_putMembership, AList.mem_insert]
      simp [h, hpresent]
    · rw [hwrite, bookCollections_deleteMembership, AList.mem_erase]
      simp [h, hpresent]

/-- Other rows stay as they are. -/
lemma mem_projectMembership_of_not {key book : String} {i : ℤ} (h : ¬c.NamesMember key book i)
    (state : State) (now : String) :
    (book, i) ∈ (c.projectMembership key state now).bookCollections ↔
      (book, i) ∈ c.bookCollections := by
  obtain ⟨heq, -⟩ | ⟨book', i', hnames, hwrite⟩ := c.projectMembership_cases key state now
  · rw [heq]
  · rw [hnames] at h
    split_ifs at hwrite with hpresent
    · obtain ⟨time, heq⟩ := hwrite
      rw [heq, bookCollections_putMembership, AList.mem_insert]
      simp [h]
    · rw [hwrite, bookCollections_deleteMembership, AList.mem_erase]
      simp [h]

end Catalog

namespace Mirror

variable (m : Mirror) (now : String) {c : Catalog} {key book : String} {i : ℤ}

lemma sameShelves_projectMember (c : Catalog) (key : String) :
    c.SameShelves (m.projectMember now c key) := by
  unfold projectMember
  dsimp only
  split_ifs
  · exact Catalog.SameShelves.refl c
  · exact c.sameShelves_projectMembership key _ now

lemma sameShelves_foldl_projectMember (keys : List String) (c : Catalog) :
    c.SameShelves (keys.foldl (m.projectMember now) c) := by
  induction keys generalizing c with
  | nil => exact Catalog.SameShelves.refl c
  | cons key keys ih => exact (m.sameShelves_projectMember now c key).trans (ih _)

/-- A live membership decides about its row. -/
lemma mem_projectMember_of_names (h : c.NamesMember key book i)
    (hlive : (m.loadState .membership key).2 = false) :
    (book, i) ∈ (m.projectMember now c key).bookCollections ↔
      (m.loadState .membership key).1.boolOrFalse "present" = true := by
  unfold projectMember
  dsimp only
  rw [hlive, if_neg Bool.false_ne_true]
  exact Catalog.mem_projectMembership_of_names h _ now

/-- A deleted membership and one of another row leave a row as it is. -/
lemma mem_projectMember_of_not
    (h : ¬(c.NamesMember key book i ∧ (m.loadState .membership key).2 = false)) :
    (book, i) ∈ (m.projectMember now c key).bookCollections ↔ (book, i) ∈ c.bookCollections := by
  unfold projectMember
  dsimp only
  split_ifs with hdeleted
  · rfl
  · refine Catalog.mem_projectMembership_of_not (fun hnames => h ⟨hnames, ?_⟩) _ now
    exact Bool.eq_false_of_not_eq_true hdeleted

/-- Memberships that leave a row as it is. -/
lemma mem_foldl_projectMember_of_not (keys : List String) (c : Catalog)
    (h : ∀ key ∈ keys, ¬(c.NamesMember key book i ∧ (m.loadState .membership key).2 = false)) :
    (book, i) ∈ (keys.foldl (m.projectMember now) c).bookCollections ↔
      (book, i) ∈ c.bookCollections := by
  induction keys generalizing c with
  | nil => rfl
  | cons key keys ih =>
    obtain ⟨hkey, hkeys⟩ := List.forall_mem_cons.mp h
    rw [List.foldl_cons, ih _ fun key' hmem => ?_]
    · exact m.mem_projectMember_of_not now hkey
    · rw [(m.sameShelves_projectMember now c key).namesMember]
      exact hkeys key' hmem

/-- The one membership that is about a row decides about it. -/
lemma mem_foldl_projectMember (keys : List String) (c : Catalog) (hmem : key ∈ keys)
    (hnames : c.NamesMember key book i) (hlive : (m.loadState .membership key).2 = false)
    (hone : ∀ key', c.NamesMember key' book i → key' = key) :
    (book, i) ∈ (keys.foldl (m.projectMember now) c).bookCollections ↔
      (m.loadState .membership key).1.boolOrFalse "present" = true := by
  induction keys generalizing c with
  | nil => exact absurd hmem List.not_mem_nil
  | cons first keys ih =>
    have hsame := m.sameShelves_projectMember now c first
    rw [List.foldl_cons]
    by_cases hrest : key ∈ keys
    · refine ih _ hrest (hsame.namesMember.mpr hnames) fun key' hkey' => ?_
      exact hone key' (hsame.namesMember.mp hkey')
    · obtain rfl : key = first := (List.mem_cons.mp hmem).resolve_right hrest
      rw [m.mem_foldl_projectMember_of_not now keys _ fun key' hkey' hother => ?_]
      · exact m.mem_projectMember_of_names now hnames hlive
      · rw [hone key' (hsame.namesMember.mp hother.1)] at hkey'
        exact hrest hkey'

end Mirror

namespace Device

/-- **The memberships of a collection decide about its books**, where there are any. -/
lemma mem_projectCollectionMemberships {d : Device} (now : String) {kept book : String} {j : ℤ}
    (hcolon : ':' ∉ kept.toList) (hrecord : d.catalog.hasRecord book = true)
    (hid : d.catalog.localCollectionId kept = some j)
    (hone : ∀ uid, d.catalog.localCollectionId uid = some j → uid = kept) :
    (book, j) ∈ (d.projectCollectionMemberships kept now).catalog.bookCollections ↔
      match d.mirror.says kept book with
      | some present => present = true
      | none => (book, j) ∈ d.catalog.bookCollections := by
  set key := kept ++ ":" ++ book with hkey
  have hnames : d.catalog.NamesMember key book j :=
    ⟨kept, splitOnce_membership hcolon, hrecord, hid⟩
  have honly : ∀ key', d.catalog.NamesMember key' book j → key' = key := by
    rintro key' ⟨collection, hsplit, -, hcollection⟩
    rw [hone collection hcollection] at hsplit
    exact (splitOnce_eq_some hsplit).symm
  have hmember (row : EntityRow) (hrow : d.mirror.entities.lookup (.membership, key) = some row) :
      key ∈ d.mirror.membershipsLike kept ∧
        (d.mirror.loadState .membership key).2 = row.deleted := by
    refine ⟨Mirror.mem_membershipsLike.mpr ⟨by simp [hrow], sqlLike_own kept book⟩, ?_⟩
    simp [Mirror.loadState, Mirror.row, hrow]
  unfold Mirror.says
  rw [← hkey]
  cases hrow : d.mirror.entities.lookup (.membership, key) with
  | none =>
    refine d.mirror.mem_foldl_projectMember_of_not now _ _ fun key' hmem hother => ?_
    rw [honly key' hother.1] at hmem
    exact (Mirror.mem_membershipsLike.mp hmem).1 hrow
  | some row =>
    obtain ⟨hmem, hdeleted⟩ := hmember row hrow
    dsimp only
    cases hdel : row.deleted with
    | true =>
      refine d.mirror.mem_foldl_projectMember_of_not now _ _ fun key' _ hother => ?_
      rw [honly key' hother.1, hdeleted, hdel] at hother
      cases hother.2
    | false =>
      exact d.mirror.mem_foldl_projectMember now _ _ hmem hnames (hdeleted.trans hdel) honly

/-! ## The four cases -/

variable {d : Device} {uid name now : String} {i j : ℤ}

lemma shelfName_eq (hlive : (d.mirror.loadState .collection uid).2 = false) :
    d.mirror.shelfName uid =
      ((d.mirror.loadState .collection uid).1.lookup "name").bind Value.asStr := by
  rw [Mirror.shelfName, hlive, if_neg Bool.false_ne_true]

/-- Projecting the memberships leaves the rows of the collections. -/
lemma collections_projectCollectionMemberships (d : Device) (uid now : String) :
    (d.projectCollectionMemberships uid now).catalog.collections = d.catalog.collections :=
  (d.mirror.sameShelves_foldl_projectMember now _ d.catalog).collections

/-- A collection without a name in the mirror is deleted or left alone. -/
lemma keepsNames_of_shelfName_none (hnames : d.catalog.DistinctNames)
    (hname : d.mirror.shelfName uid = none) :
    KeepsNames d uid (d.projectCollection uid now) := by
  have hself : d.catalog.DistinctNames → KeepsNames d uid (d, .ok ()) := fun h =>
    ⟨rfl, h, by simp [hname], by simp [hname]⟩
  unfold projectCollection
  dsimp only
  split_ifs with hdeleted
  · cases hid : d.catalog.localCollectionId uid with
    | none => exact hself hnames
    | some id =>
      refine ⟨rfl, ?_, by simp [hname], by simp [hname]⟩
      dsimp only
      unfold Catalog.deleteCollection
      split
      · intro i j r s hr hs
        rw [Catalog.mark, Table.lookup_erase'] at hr hs
        split_ifs at hr hs
        exact hnames i j r s hr hs
      · exact hnames
  · rw [shelfName_eq (Bool.eq_false_of_not_eq_true hdeleted)] at hname
    rw [hname]
    exact hself hnames

/-- The time that projecting gives a collection. -/
def shelfTime (m : Mirror) (uid : String) : String :=
  (((m.loadState .collection uid).1.lookup "created_at").bind Value.asStr).getD
    "1970-01-01T00:00:00.000Z"

/-- The projection of a collection that has a name in the mirror. -/
lemma projectCollection_of_name (hname : d.mirror.shelfName uid = some name) :
    d.projectCollection uid now =
      match d.catalog.localCollectionId uid with
      | some id =>
        andThen (d.onCatalog (d.catalog.updateCollection id
          ⟨some uid, name, shelfTime d.mirror uid⟩))
          fun d _ => (d.projectCollectionMemberships uid now, .ok ())
      | none =>
        match d.catalog.collectionNamed name with
        | some id =>
          let localUid := (collectionUid id d.catalog).getD ""
          let canonical := keptUid localUid uid
          andThen (onCatalog { d with mirror := joinNamed d.mirror localUid uid }
            (d.catalog.updateCollection id ⟨some canonical, name, shelfTime d.mirror uid⟩))
            fun d _ => (d.projectCollectionMemberships canonical now, .ok ())
        | none =>
          andThen (d.onCatalog (d.catalog.insertCollection
            ⟨some uid, name, shelfTime d.mirror uid⟩))
            fun d _ => (d.projectCollectionMemberships uid now, .ok ()) := by
  have hlive : (d.mirror.loadState .collection uid).2 = false := by
    cases hdeleted : (d.mirror.loadState .collection uid).2 with
    | false => rfl
    | true =>
      rw [Mirror.shelfName, hdeleted, if_pos rfl] at hname
      cases hname
  rw [shelfName_eq hlive] at hname
  unfold projectCollection
  dsimp only
  rw [hlive, if_neg Bool.false_ne_true, hname]
  rfl

/-- What the memberships that follow leave of a write that kept names distinct. -/
lemma distinctNames_projectCollectionMemberships (h : d.catalog.DistinctNames) (uid now : String) :
    (d.projectCollectionMemberships uid now).catalog.DistinctNames := by
  unfold Catalog.DistinctNames
  rw [collections_projectCollectionMemberships]
  exact h

/-- A collection that is here under its uid, and whose name no other row has. -/
lemma keepsNames_of_uid (h : d.catalog.UniqueCollections)
    (hname : d.mirror.shelfName uid = some name)
    (hi : collectionUid i d.catalog = some uid)
    (hfree : ∀ j, d.catalog.collectionName j = some name → j = i) :
    KeepsNames d uid (d.projectCollection uid now) := by
  have hclash : d.catalog.collectionClash i ⟨some uid, name, shelfTime d.mirror uid⟩ = none := by
    rw [Catalog.collectionClash_eq_none]
    refine ⟨fun j s hs hsame => hfree j ?_, fun _ j s hs hsame => ?_⟩
    · exact Catalog.collectionName_eq_some.mpr ⟨s, hs, hsame⟩
    · obtain ⟨r, hr, hruid⟩ := Catalog.collectionUid_eq_some.mp hi
      exact h.uid j i s r hs hr (hsame.trans hruid.symm) (hsame ▸ rfl)
  rw [projectCollection_of_name hname, (Catalog.localCollectionId_eq_some h).mpr hi]
  dsimp only
  rw [Catalog.updateCollection_of_none hclash, onCatalog, andThen_ok]
  refine ⟨rfl, ?_, fun name' hname' i' j hi' hj hne => ?_, fun _ _ hnone => absurd hi (hnone i)⟩
  · refine distinctNames_projectCollectionMemberships ?_ uid now
    refine Catalog.DistinctNames.insert h.name (fun j s hs hsame => hfree j ?_) rfl
    exact Catalog.collectionName_eq_some.mpr ⟨s, hs, hsame⟩
  · -- the row of the name is the row of the uid
    rw [hname] at hname'
    obtain rfl := Option.some.inj hname'
    have hsame : i' = i := by
      have := (Catalog.localCollectionId_eq_some h).mpr hi'
      rw [(Catalog.localCollectionId_eq_some h).mpr hi] at this
      exact (Option.some.inj this).symm
    exact absurd (hsame.trans (hfree j hj).symm) hne

/-- A collection that is here under its uid, while another row has its name. -/
lemma error_of_knownTwice (h : d.catalog.UniqueCollections)
    (hname : d.mirror.shelfName uid = some name)
    (hi : collectionUid i d.catalog = some uid) (hj : d.catalog.collectionName j = some name)
    (hne : i ≠ j) :
    d.projectCollection uid now =
      (d, .error (.database "UNIQUE constraint failed: collections.name")) := by
  have hclash : d.catalog.collectionClash i ⟨some uid, name, shelfTime d.mirror uid⟩ =
      some "collections.name" := by
    obtain ⟨s, hs, hsame⟩ := Catalog.collectionName_eq_some.mp hj
    exact if_pos ⟨⟨j, s⟩, Table.lookup_eq_some_iff.mp hs, Ne.symm hne, hsame⟩
  rw [projectCollection_of_name hname, (Catalog.localCollectionId_eq_some h).mpr hi]
  dsimp only
  rw [Catalog.updateCollection_of_clash hclash]
  rfl

/-- The uid of a row that was just written. -/
lemma collectionUid_putCollection (c : Catalog) (j : ℤ) (kept name time : String) :
    collectionUid j (c.putCollection j ⟨some kept, name, time⟩) = some kept := by
  rw [Catalog.collectionUid_eq_some]
  exact ⟨_, AList.lookup_insert c.collections, rfl⟩

/-- A collection that is here under its name only. -/
lemma keepsNames_of_name (h : d.catalog.UniqueCollections)
    (hname : d.mirror.shelfName uid = some name)
    (hnone : ∀ i, collectionUid i d.catalog ≠ some uid)
    (hj : d.catalog.collectionName j = some name) :
    KeepsNames d uid (d.projectCollection uid now) := by
  obtain ⟨row, hrow, hrowName⟩ := Catalog.collectionName_eq_some.mp hj
  set localUid := (collectionUid j d.catalog).getD "" with hlocal
  set kept := keptUid localUid uid with hkept
  -- a row under the uid that is kept is the row of the name
  have hown : ∀ i s, d.catalog.collections.lookup i = some s → s.syncUid = some kept → i = j := by
    intro i s hs hsuid
    have hi := Catalog.collectionUid_eq_some.mpr ⟨s, hs, hsuid⟩
    have hor : kept = uid ∨ kept = localUid ∧ localUid ≠ "" := by
      rw [hkept, keptUid]
      split_ifs <;> simp_all
    rcases hor with heq | ⟨heq, hne⟩
    · exact absurd (heq ▸ hi) (hnone i)
    · cases hcol : collectionUid j d.catalog with
      | none => exact absurd (by rw [hlocal, hcol, Option.getD_none]) hne
      | some u =>
        rw [hcol, Option.getD_some] at hlocal
        obtain ⟨r, hr, hruid⟩ := Catalog.collectionUid_eq_some.mp hcol
        refine h.uid i j s r hs hr ?_ (hsuid ▸ rfl)
        rw [hsuid, hruid, heq, hlocal]
  have hnamed : ∀ i s, d.catalog.collections.lookup i = some s → s.name = name → i = j :=
    fun i s hs hsame => h.name i j s row hs hrow (hsame.trans hrowName.symm)
  have hclash : d.catalog.collectionClash j ⟨some kept, name, shelfTime d.mirror uid⟩ = none :=
    Catalog.collectionClash_eq_none.mpr ⟨hnamed, fun _ => hown⟩
  rw [projectCollection_of_name hname, Catalog.localCollectionId_eq_none.mpr hnone]
  dsimp only
  rw [(Catalog.collectionNamed_eq_some h).mpr hj]
  dsimp only
  rw [← hlocal, ← hkept, Catalog.updateCollection_of_none hclash, onCatalog, andThen_ok]
  set d' : Device := ⟨joinNamed d.mirror localUid uid,
    d.catalog.putCollection j ⟨some kept, name, shelfTime d.mirror uid⟩⟩ with hd'
  have hcollections : d'.catalog.collections =
      d.catalog.collections.insert j ⟨some kept, name, shelfTime d.mirror uid⟩ := rfl
  have hafter := collections_projectCollectionMemberships d' kept now
  have hself : collectionUid j d'.catalog = some kept := collectionUid_putCollection ..
  refine ⟨rfl, ?_, fun _ _ i _ hi => absurd hi (hnone i), fun name' hname' _ j' hj' => ?_⟩
  · refine distinctNames_projectCollectionMemberships ?_ kept now
    exact Catalog.DistinctNames.insert h.name hnamed hcollections
  · rw [hname] at hname'
    obtain rfl := Option.some.inj hname'
    obtain ⟨s, hs, hsame⟩ := Catalog.collectionName_eq_some.mp hj'
    obtain rfl := hnamed j' s hs hsame
    rw [← hlocal, ← hkept]
    refine ⟨?_, ?_, fun hcolon book hrecord => ?_⟩
    · rw [Catalog.collectionName_eq_some, hafter]
      exact ⟨_, AList.lookup_insert d.catalog.collections, rfl⟩
    · unfold collectionUid
      rw [hafter]
      exact hself
    · have hown' : ∀ i s, d'.catalog.collections.lookup i = some s → s.syncUid = some kept →
          i = j' := by
        intro i s hs hsuid
        rw [hcollections, Table.lookup_insert'] at hs
        split_ifs at hs with hi
        · exact hi
        · exact hown i s hs hsuid
      have hone : ∀ u, d'.catalog.localCollectionId u = some j' → u = kept := by
        intro u hu
        have hu' := Catalog.collectionUid_of_localCollectionId hu
        exact Option.some.inj (hu'.symm.trans hself)
      refine (mem_projectCollectionMemberships (d := d') now hcolon hrecord
        (Catalog.localCollectionId_of_own hself hown') hone).trans ?_
      change _ ↔ ((book, j') ∈ d.catalog.bookCollections ∨ d'.mirror.says kept book = some true) ∧
        d'.mirror.says kept book ≠ some false
      have hbooks : d'.catalog.bookCollections = d.catalog.bookCollections := rfl
      rw [hbooks]
      rcases d'.mirror.says kept book with _ | _ | _ <;> simp

/-- A collection that is not here. -/
lemma keepsNames_of_absent (h : d.catalog.UniqueCollections)
    (hname : d.mirror.shelfName uid = some name)
    (hnone : ∀ i, collectionUid i d.catalog ≠ some uid)
    (hfree : ∀ j, d.catalog.collectionName j ≠ some name) :
    KeepsNames d uid (d.projectCollection uid now) := by
  have hnames : ∀ i s, d.catalog.collections.lookup i = some s → s.name ≠ name := by
    intro i s hs hsame
    exact hfree i (Catalog.collectionName_eq_some.mpr ⟨s, hs, hsame⟩)
  have hclash : d.catalog.collectionClash (d.catalog.collectionSeq + 1)
      ⟨some uid, name, shelfTime d.mirror uid⟩ = none := by
    rw [Catalog.collectionClash_eq_none]
    refine ⟨fun i s hs hsame => absurd hsame (hnames i s hs), fun _ i s hs hsame => ?_⟩
    exact absurd (Catalog.collectionUid_eq_some.mpr ⟨s, hs, hsame⟩) (hnone i)
  rw [projectCollection_of_name hname, Catalog.localCollectionId_eq_none.mpr hnone]
  dsimp only
  rw [Catalog.collectionNamed_eq_none.mpr hfree]
  dsimp only
  rw [Catalog.insertCollection, Catalog.updateCollection_of_none hclash, andThen_ok, onCatalog,
    andThen_ok]
  refine ⟨rfl, ?_, fun _ _ i _ hi => absurd hi (hnone i), fun name' hname' _ j hj => ?_⟩
  · refine distinctNames_projectCollectionMemberships ?_ uid now
    refine Catalog.DistinctNames.insert h.name (fun i s hs hsame => ?_) rfl
    exact absurd hsame (hnames i s hs)
  · rw [hname] at hname'
    obtain rfl := Option.some.inj hname'
    exact absurd hj (hfree j)

/-- **Projecting a collection keeps local names unique exactly when the collection is not known
twice**, for every mirror and every catalog within the constraints of the schema. -/
theorem keepsNames_iff (h : d.catalog.UniqueCollections) (uid now : String) :
    KeepsNames d uid (d.projectCollection uid now) ↔ ¬d.KnownTwice uid := by
  constructor
  · rintro hkeeps ⟨name, hname, i, j, hi, hj, hne⟩
    have herror : d.projectCollection uid now =
        (d, .error (.database "UNIQUE constraint failed: collections.name")) :=
      error_of_knownTwice h hname hi hj hne
    have hok := hkeeps.succeeds
    rw [herror] at hok
    cases hok
  · intro honce
    cases hname : d.mirror.shelfName uid with
    | none => exact keepsNames_of_shelfName_none h.name hname
    | some name =>
      by_cases hhere : ∃ i, collectionUid i d.catalog = some uid
      · obtain ⟨i, hi⟩ := hhere
        refine keepsNames_of_uid h hname hi fun j hj => ?_
        by_contra hne
        exact honce ⟨name, hname, i, j, hi, hj, Ne.symm hne⟩
      · rw [not_exists] at hhere
        by_cases hnamed : ∃ j, d.catalog.collectionName j = some name
        · obtain ⟨j, hj⟩ := hnamed
          exact keepsNames_of_name h hname hhere hj
        · exact keepsNames_of_absent h hname hhere (not_exists.mp hnamed)

/-- A shelf that another machine has too, under the same name and with another book. -/
def sharedShelf : Device where
  mirror := Mirror.shelves
    [Mirror.collectionOp 1000 "00000000000000000000000000000001" "a" "Shelf",
      Mirror.membershipOp 2000 "00000000000000000000000000000002" "a:theirs"]
  catalog :=
    { records := [⟨"ours", { createdAt := "" }⟩, ⟨"theirs", { createdAt := "" }⟩].toAList
      collections := [⟨1, ⟨some "b", "Shelf", ""⟩⟩].toAList
      bookCollections := [⟨("ours", 1), ""⟩].toAList
      collectionSeq := 1 }

/-- The two shelves become one. -/
theorem keepsNames_sharedShelf :
    sharedShelf.catalog.UniqueCollections ∧
      (KeepsNames sharedShelf "a" (sharedShelf.projectCollection "a" "") ↔
        ¬sharedShelf.KnownTwice "a") :=
  ⟨by decide +kernel, keepsNames_iff (by decide +kernel) "a" ""⟩

/-- Two shelves, and the first of them gets the name of the second. -/
def renamingOps : List Op :=
  [Mirror.collectionOp 1000 "00000000000000000000000000000001" "a" "First",
    Mirror.collectionOp 2000 "00000000000000000000000000000002" "b" "Second",
    Mirror.collectionOp 3000 "00000000000000000000000000000003" "a" "Second"]

/-- A machine that has both shelves when the new name arrives. -/
def renamedShelf : Device where
  mirror := Mirror.shelves renamingOps
  catalog :=
    { collections := [⟨1, ⟨some "a", "First", ""⟩⟩, ⟨2, ⟨some "b", "Second", ""⟩⟩].toAList
      collectionSeq := 2 }

/-- The new name meets the other shelf, and the projection fails. -/
theorem not_keepsNames_renamedShelf :
    (∀ op ∈ renamingOps, validateOp op = .ok ()) ∧ renamedShelf.catalog.UniqueCollections ∧
      renamedShelf.projectCollection "a" "" =
        (renamedShelf, .error (.database "UNIQUE constraint failed: collections.name")) ∧
      ¬KeepsNames renamedShelf "a" (renamedShelf.projectCollection "a" "") := by
  have hunique : renamedShelf.catalog.UniqueCollections := by decide +kernel
  have herror : renamedShelf.projectCollection "a" "" =
      (renamedShelf, .error (.database "UNIQUE constraint failed: collections.name")) :=
    error_of_knownTwice hunique (by decide +kernel) (by decide +kernel : collectionUid 1 _ = _)
      (by decide +kernel : Catalog.collectionName _ 2 = some "Second") (by decide)
  refine ⟨by decide +kernel, hunique, herror, fun h => ?_⟩
  have hok := h.succeeds
  rw [herror] at hok
  cases hok

end Device

end TuxBooks
