import Mathlib.Data.List.Infix
import Mathlib.Data.Rat.Init
import TuxBooks.Lib.Arrangement

set_option relaxedAutoImplicit false
set_option autoImplicit false

/-!
# The collection groups of the sidebar

`frontend/src/lib/collectionPreferences.ts` remembers which collections a device has pinned and the
order of each of the two groups, and resolves them against the collections that exist. The stored
value may be anything.

Comparing names is left to the platform: a `Collation` has a consistent comparison of strings. The
text in the local storage is kept as the value that it parses to.

## Main definitions

* `TuxBooks.Sidebar.CollectionPreferences` — the remembered choice.
* `TuxBooks.Sidebar.resolveCollectionGroups` — the two rendered groups.
* `TuxBooks.Sidebar.Event`, `TuxBooks.Sidebar.step` — what can happen to them.
* `TuxBooks.Sidebar.Settled` — what holds of the groups in a state and after one more event.

## Main results

* `TuxBooks.Sidebar.rendered_eq` — a rendered group is an arrangement of its members.
* `TuxBooks.Sidebar.run_settled` — the groups stay a partition with stable order.
-/

namespace TuxBooks

namespace Sidebar

/-! ## Collections -/

structure CollectionRef where
  id : ℤ
  name : String
  deriving DecidableEq

/-- The collections that exist, with distinct ids. -/
structure Collections where
  refs : List CollectionRef
  distinct : (refs.map CollectionRef.id).Nodup

/-- The platform's lower casing and its comparison of strings, which is consistent. -/
structure Collation where
  toLocaleLowerCase : String → String
  localeCompare : String → String → Ordering
  consistent : Std.TransCmp localeCompare

namespace Collation

variable (c : Collation)

/-- Case-insensitive first, then the locale's own casing rule, then the id. -/
def compareRefs (a b : CollectionRef) : Ordering :=
  (c.localeCompare (c.toLocaleLowerCase a.name) (c.toLocaleLowerCase b.name)).then
    ((c.localeCompare a.name b.name).then (compare a.id b.id))

def le (a b : CollectionRef) : Bool := (c.compareRefs a b).isLE

/-- The plain order of strings is one. -/
example : Nonempty Collation := ⟨⟨String.toLower, compare, inferInstance⟩⟩

end Collation

def alphabetical (c : Collation) (collections : List CollectionRef) : List CollectionRef :=
  collections.mergeSort c.le

/-! ## The stored value -/

/-- A value that JSON text parses to. A number that is not finite is none. -/
inductive JsValue where
  | null
  | bool (b : Bool)
  | number (n : Option ℚ)
  | string (s : String)
  | array (entries : List JsValue)
  | object (entries : List (String × JsValue))

namespace JsValue

/-- A property, which is undefined for all but objects. -/
def get (key : String) : JsValue → Option JsValue
  | object entries => (entries.find? (·.1 = key)).map (·.2)
  | _ => none

/-- An integer number. -/
def integer? : JsValue → Option ℤ
  | number (some q) => if q.den = 1 then some q.num else none
  | _ => none

end JsValue

/-- What the storage holds: nothing, text that is no JSON, or a value. -/
inductive Stored where
  | missing
  | corrupt
  | json (value : JsValue)

/-- The first occurrences of the ids for which `p` holds, in their order. -/
def distinctIds (p : ℤ → Bool) (ids : List ℤ) : List ℤ :=
  ids.foldl (fun kept id => if !p id || id ∈ kept then kept else kept ++ [id]) []

def readIdList : Option JsValue → List ℤ
  | some (.array entries) => distinctIds (fun _ => true) (entries.filterMap JsValue.integer?)
  | _ => []

structure CollectionPreferences where
  /-- Collections shown in the pinned group: membership, not display order. -/
  pinned : List ℤ := []
  /-- Custom order of the pinned group; empty means alphabetical. -/
  pinnedOrder : List ℤ := []
  /-- Custom order of the unpinned group; empty means alphabetical. -/
  unpinnedOrder : List ℤ := []
  unpinnedCollapsed : Bool := false
  deriving DecidableEq

def lookup (collections : List CollectionRef) (id : ℤ) : Option CollectionRef :=
  collections.find? (·.id = id)

/-- A stored order brought back to a full order over `ids`; empty when no entry survives. -/
def sanitizeOrder (c : Collation) (ids : List ℤ) (stored : Option JsValue)
    (collections : List CollectionRef) : List ℤ :=
  let kept := distinctIds (· ∈ ids) (readIdList stored)
  if kept.length = 0 then []
  else
    let missing := alphabetical c <| ids.filterMap fun id =>
      (lookup collections id).filter fun _ => id ∉ kept
    kept ++ missing.map CollectionRef.id

/-- Raw stored state validated against the collections that exist. -/
def sanitizeCollectionPreferences (c : Collation) (raw : JsValue)
    (collections : List CollectionRef) : CollectionPreferences :=
  let pinned := (readIdList (raw.get "pinned")).filter fun id => (lookup collections id).isSome
  let unpinned := (collections.filter fun collection => collection.id ∉ pinned).map
    CollectionRef.id
  { pinned := pinned
    pinnedOrder := sanitizeOrder c pinned (raw.get "pinnedOrder") collections
    unpinnedOrder := sanitizeOrder c unpinned (raw.get "unpinnedOrder") collections
    unpinnedCollapsed := match raw.get "unpinnedCollapsed" with
      | some (.bool true) => true
      | _ => false }

def parseStoredCollectionPreferences (c : Collation) (stored : Stored)
    (collections : List CollectionRef) : CollectionPreferences :=
  match stored with
  | .json raw => sanitizeCollectionPreferences c raw collections
  | _ => {}

/-- A list of ids as a value. -/
def JsValue.ofIds (ids : List ℤ) : JsValue :=
  .array (ids.map fun (id : ℤ) => .number (some (id : ℚ)))

/-- The preferences as a value. -/
def CollectionPreferences.toValue (p : CollectionPreferences) : JsValue :=
  .object
    [("pinned", .ofIds p.pinned), ("pinnedOrder", .ofIds p.pinnedOrder),
      ("unpinnedOrder", .ofIds p.unpinnedOrder),
      ("unpinnedCollapsed", .bool p.unpinnedCollapsed)]

/-- What is written to the storage. -/
def writeCollectionPreferences (p : CollectionPreferences) : Stored := .json p.toValue

/-! ## The rendered groups -/

inductive CollectionGroupId where
  | pinned
  | unpinned
  deriving DecidableEq

def CollectionGroupId.other : CollectionGroupId → CollectionGroupId
  | pinned => unpinned
  | unpinned => pinned

structure CollectionGroups where
  pinned : List CollectionRef
  unpinned : List CollectionRef

def CollectionGroups.group (groups : CollectionGroups) : CollectionGroupId → List CollectionRef
  | .pinned => groups.pinned
  | .unpinned => groups.unpinned

def orderGroup (c : Collation) (collections : List CollectionRef) (order : List ℤ) :
    List CollectionRef :=
  if order.length = 0 then alphabetical c collections
  else
    let ordered := order.filterMap (lookup collections)
    ordered ++ alphabetical c
      (collections.filter fun collection => collection.id ∉ ordered.map CollectionRef.id)

/-- The two rendered groups. -/
def resolveCollectionGroups (c : Collation) (collections : List CollectionRef)
    (p : CollectionPreferences) : CollectionGroups where
  pinned := orderGroup c (collections.filter (·.id ∈ p.pinned)) p.pinnedOrder
  unpinned := orderGroup c (collections.filter (·.id ∉ p.pinned)) p.unpinnedOrder

/-! ## The operations -/

def pinCollection (p : CollectionPreferences) (id : ℤ) : CollectionPreferences :=
  if id ∈ p.pinned then p
  else
    { p with
      pinned := p.pinned ++ [id]
      pinnedOrder := if p.pinnedOrder.length > 0 then p.pinnedOrder ++ [id] else p.pinnedOrder
      unpinnedOrder := p.unpinnedOrder.filter (· ≠ id) }

def unpinCollection (p : CollectionPreferences) (id : ℤ) : CollectionPreferences :=
  if id ∉ p.pinned then p
  else
    { p with
      pinned := p.pinned.filter (· ≠ id)
      pinnedOrder := p.pinnedOrder.filter (· ≠ id)
      unpinnedOrder :=
        if p.unpinnedOrder.length > 0 then p.unpinnedOrder.filter (· ≠ id) ++ [id]
        else p.unpinnedOrder }

/-- A full explicit order for one group. -/
def setGroupOrder (p : CollectionPreferences) (group : CollectionGroupId) (order : List ℤ) :
    CollectionPreferences :=
  match group with
  | .pinned => { p with pinnedOrder := order }
  | .unpinned => { p with unpinnedOrder := order }

/-- The group that a collection is shown in. -/
def groupOf (p : CollectionPreferences) (id : ℤ) : CollectionGroupId :=
  if id ∈ p.pinned then .pinned else .unpinned

inductive Direction where
  | up
  | down
  deriving DecidableEq

def Direction.offset : Direction → ℤ
  | up => -1
  | down => 1

/-- Swap with the neighbour inside the current group, at the edges a no-op. -/
def moveCollection (c : Collation) (p : CollectionPreferences) (collections : List CollectionRef)
    (id : ℤ) (direction : Direction) : CollectionPreferences :=
  let group := (resolveCollectionGroups c collections p).group (groupOf p id)
  match group.findIdx? (·.id = id) with
  | none => p
  | some index =>
    let target := (index : ℤ) + direction.offset
    if target < 0 ∨ target ≥ group.length then p
    else
      match group[index]?, group[target.toNat]? with
      | some current, some neighbour =>
        let reordered := (group.set index neighbour).set target.toNat current
        setGroupOrder p (groupOf p id) (reordered.map CollectionRef.id)
      | _, _ => p

/-- Place one collection at an index of the target group, which becomes custom. -/
def placeCollection (c : Collation) (p : CollectionPreferences) (collections : List CollectionRef)
    (id : ℤ) (targetGroup : CollectionGroupId) (index : ℤ) : CollectionPreferences :=
  match lookup collections id with
  | none => p
  | some moving =>
    let groups := resolveCollectionGroups c collections p
    let targetItems := (groups.group targetGroup).filter (·.id ≠ id)
    let clamped := max 0 (min index targetItems.length)
    let order := (targetItems.insertIdx clamped.toNat moving).map CollectionRef.id
    match targetGroup with
    | .pinned =>
      { p with
        pinned := if id ∈ p.pinned then p.pinned else p.pinned ++ [id]
        pinnedOrder := order
        unpinnedOrder :=
          if groupOf p id = .unpinned then p.unpinnedOrder.filter (· ≠ id)
          else p.unpinnedOrder }
    | .unpinned =>
      { p with
        pinned := p.pinned.filter (· ≠ id)
        pinnedOrder := p.pinnedOrder.filter (· ≠ id)
        unpinnedOrder := order }

/-- Drop a deleted collection from membership and both orders. -/
def forgetCollection (p : CollectionPreferences) (id : ℤ) : CollectionPreferences :=
  let pinned := p.pinned.filter (· ≠ id)
  let pinnedOrder := p.pinnedOrder.filter (· ≠ id)
  let unpinnedOrder := p.unpinnedOrder.filter (· ≠ id)
  if pinned.length = p.pinned.length ∧ pinnedOrder.length = p.pinnedOrder.length ∧
      unpinnedOrder.length = p.unpinnedOrder.length then p
  else
    { p with
      pinned := pinned
      pinnedOrder := pinnedOrder
      unpinnedOrder := unpinnedOrder }

/-! ## Runs -/

/-- The preferences and the collections that exist. -/
structure State where
  preferences : CollectionPreferences
  collections : Collections

inductive Event where
  | pin (id : ℤ)
  | unpin (id : ℤ)
  | move (id : ℤ) (direction : Direction)
  | place (id : ℤ) (group : CollectionGroupId) (index : ℤ)
  | forget (id : ℤ)
  /-- Collections were created, deleted or renamed: these exist now. -/
  | change (collections : Collections)
  /-- The preferences are written and read back. -/
  | reread

def step (c : Collation) (s : State) : Event → State
  | .pin id => { s with preferences := pinCollection s.preferences id }
  | .unpin id => { s with preferences := unpinCollection s.preferences id }
  | .move id direction =>
    { s with preferences := moveCollection c s.preferences s.collections.refs id direction }
  | .place id group index =>
    { s with preferences := placeCollection c s.preferences s.collections.refs id group index }
  | .forget id => { s with preferences := forgetCollection s.preferences id }
  | .change collections => { s with collections := collections }
  | .reread =>
    { s with
      preferences := parseStoredCollectionPreferences c
        (writeCollectionPreferences s.preferences) s.collections.refs }

/-- The state that a stored value starts from. -/
def start (c : Collation) (stored : Stored) (collections : Collections) : State where
  preferences := parseStoredCollectionPreferences c stored collections.refs
  collections := collections

def run (c : Collation) (s : State) (events : List Event) : State := events.foldl (step c) s

/-- One of the groups as it is shown. -/
def rendered (c : Collation) (s : State) (group : CollectionGroupId) : List CollectionRef :=
  (resolveCollectionGroups c s.collections.refs s.preferences).group group

/-! ## A group as an arrangement of its members -/

open Arrangement List

/-- The collections of a group, in no particular order. -/
def members (p : CollectionPreferences) (refs : List CollectionRef) :
    CollectionGroupId → List CollectionRef
  | .pinned => refs.filter (·.id ∈ p.pinned)
  | .unpinned => refs.filter (·.id ∉ p.pinned)

def orderOf (p : CollectionPreferences) : CollectionGroupId → List ℤ
  | .pinned => p.pinnedOrder
  | .unpinned => p.unpinnedOrder

/-- Comparing images compares consistently. -/
lemma transCmp_comap {α β : Type} (f : α → β) {cmp : β → β → Ordering} (h : Std.TransCmp cmp) :
    Std.TransCmp fun a b => cmp (f a) (f b) where
  eq_swap := Std.OrientedCmp.eq_swap
  isLE_trans := Std.TransCmp.isLE_trans

/-- Names with the id as the last resort order the collections totally. -/
lemma Collation.keyOrder (c : Collation) : KeyOrder CollectionRef.id c.le := by
  have hlower := transCmp_comap (fun a : CollectionRef => c.toLocaleLowerCase a.name) c.consistent
  have hname := transCmp_comap CollectionRef.name c.consistent
  have htrans : Std.TransCmp c.compareRefs :=
    inferInstanceAs (Std.TransCmp (compareLex
      (fun a b => c.localeCompare (c.toLocaleLowerCase a.name) (c.toLocaleLowerCase b.name))
      (compareLex (fun a b => c.localeCompare a.name b.name) (compareOn CollectionRef.id))))
  have hswap : ∀ a b, c.compareRefs a b = (c.compareRefs b a).swap :=
    fun _ _ => Std.OrientedCmp.eq_swap
  refine ⟨fun a b d hab hbd => Std.TransCmp.isLE_trans hab hbd, fun a b => ?_,
    fun a b hab hba => ?_⟩
  · rw [le, le, hswap a b]
    cases c.compareRefs b a <;> rfl
  · have htie : c.compareRefs a b = .eq := by
      rw [le, hswap] at hba
      rw [le] at hab
      cases hcompared : c.compareRefs a b with
      | lt => rw [hcompared] at hba; cases hba
      | eq => rfl
      | gt => rw [hcompared] at hab; cases hab
    have hids : compare a.id b.id = .eq :=
      (Ordering.then_eq_eq.mp (Ordering.then_eq_eq.mp htie).2).2
    exact Std.LawfulEqCmp.eq_of_compare hids

/-- A group lists the members that its order names and then the others by name. -/
lemma orderGroup_eq (c : Collation) {items : List CollectionRef} (order : List ℤ) :
    orderGroup c items order = arrange CollectionRef.id c.le items order := by
  unfold orderGroup
  split_ifs with hempty
  · rw [List.length_eq_zero_iff.mp hempty]
    simp [arrange, ordered, alphabetical]
  · have hrest : (items.filter fun a => a.id ∉ (ordered CollectionRef.id items order).map
        CollectionRef.id) = items.filter fun a => a.id ∉ order := by
      apply filter_congr
      intro a ha
      have hmem : a.id ∈ items.map CollectionRef.id := mem_map_of_mem ha
      rw [map_key_ordered]
      simp only [mem_filter, hmem, decide_true, and_true]
    rw [arrange, ← hrest]
    rfl

/-- **A rendered group is an arrangement of its members.** -/
theorem rendered_eq (c : Collation) (s : State) (group : CollectionGroupId) :
    rendered c s group = arrange CollectionRef.id c.le
      (members s.preferences s.collections.refs group) (orderOf s.preferences group) := by
  cases group <;> exact orderGroup_eq c _

lemma members_sublist (p : CollectionPreferences) (refs : List CollectionRef)
    (group : CollectionGroupId) : members p refs group <+ refs := by
  cases group <;> exact filter_sublist

lemma nodup_members (p : CollectionPreferences) (collections : Collections)
    (group : CollectionGroupId) :
    ((members p collections.refs group).map CollectionRef.id).Nodup :=
  collections.distinct.sublist ((members_sublist p _ group).map _)

/-- The members of a group are the collections whose id belongs to it. -/
lemma members_eq_filter (p : CollectionPreferences) (refs : List CollectionRef)
    (group : CollectionGroupId) :
    members p refs group = refs.filter fun a => groupOf p a.id = group := by
  cases group <;>
    · apply filter_congr
      intro a _
      by_cases hpinned : a.id ∈ p.pinned <;> simp [groupOf, hpinned]

lemma mem_members {p : CollectionPreferences} {refs : List CollectionRef}
    {group : CollectionGroupId} {a : CollectionRef} :
    a ∈ members p refs group ↔ a ∈ refs ∧ groupOf p a.id = group := by
  rw [members_eq_filter, mem_filter, decide_eq_true_eq]

/-! ## Orders stay consistent -/

/-- The orders name no id twice, and the pinned order names pinned collections only. -/
structure Consistent (p : CollectionPreferences) : Prop where
  nodup : ∀ group, (orderOf p group).Nodup
  pinned : ∀ id ∈ p.pinnedOrder, id ∈ p.pinned

/-- **Every collection is shown once** in a consistent state: the groups together list them. -/
lemma rendered_perm (c : Collation) {s : State} (h : Consistent s.preferences)
    (group : CollectionGroupId) :
    rendered c s group ~ members s.preferences s.collections.refs group := by
  rw [rendered_eq]
  exact arrange_perm (nodup_members s.preferences s.collections group) (h.nodup group)

lemma mem_rendered (c : Collation) {s : State} (h : Consistent s.preferences)
    {group : CollectionGroupId} {a : CollectionRef} :
    a ∈ rendered c s group ↔ a ∈ s.collections.refs ∧ groupOf s.preferences a.id = group := by
  rw [(rendered_perm c h group).mem_iff, mem_members]

lemma nodup_rendered (c : Collation) {s : State} (h : Consistent s.preferences)
    (group : CollectionGroupId) : ((rendered c s group).map CollectionRef.id).Nodup :=
  ((rendered_perm c h group).map _).nodup_iff.mpr
    (nodup_members s.preferences s.collections group)

/-! ## Reading a stored value -/

lemma distinctIds_append (p : ℤ → Bool) (ids : List ℤ) (id : ℤ) :
    distinctIds p (ids ++ [id]) =
      if !p id || id ∈ distinctIds p ids then distinctIds p ids else distinctIds p ids ++ [id] := by
  rw [distinctIds, foldl_append]
  rfl

lemma mem_distinctIds {p : ℤ → Bool} {ids : List ℤ} {id : ℤ} :
    id ∈ distinctIds p ids ↔ id ∈ ids ∧ p id = true := by
  induction ids using reverseRecOn with
  | nil => simp [distinctIds]
  | append_singleton ids last ih =>
    rw [distinctIds_append]
    split_ifs with hskip
    · rw [ih, mem_append, mem_singleton]
      constructor
      · exact fun ⟨hmem, hp⟩ => ⟨.inl hmem, hp⟩
      · rintro ⟨hmem | rfl, hp⟩
        · exact ⟨hmem, hp⟩
        · simpa [hp, ih] using hskip
    · simp only [Bool.or_eq_true, Bool.not_eq_true', decide_eq_true_eq, not_or,
        Bool.not_eq_false] at hskip
      rw [mem_append, ih, mem_append, mem_singleton, or_and_right]
      refine or_congr_right ⟨?_, And.left⟩
      rintro rfl
      exact ⟨rfl, hskip.1⟩

lemma nodup_distinctIds (p : ℤ → Bool) (ids : List ℤ) : (distinctIds p ids).Nodup := by
  induction ids using reverseRecOn with
  | nil => exact nodup_nil
  | append_singleton ids last ih =>
    rw [distinctIds_append]
    split_ifs with hskip
    · exact ih
    · simp only [Bool.or_eq_true, decide_eq_true_eq, not_or] at hskip
      exact nodup_append.mpr ⟨ih, nodup_singleton _, fun a ha b hb heq => by
        rw [mem_singleton.mp hb] at heq
        exact hskip.2 (heq ▸ ha)⟩

/-- Ids without repetition are kept as they are. -/
lemma distinctIds_of_nodup (p : ℤ → Bool) {ids : List ℤ} (h : ids.Nodup) :
    distinctIds p ids = ids.filter p := by
  induction ids using reverseRecOn with
  | nil => rfl
  | append_singleton ids last ih =>
    obtain ⟨hnodup, _, hnew⟩ := nodup_append.mp h
    have hlast : last ∉ distinctIds p ids :=
      fun hmem => hnew last (mem_distinctIds.mp hmem).1 last (mem_singleton_self _) rfl
    rw [distinctIds_append, ih hnodup, filter_append]
    rw [ih hnodup] at hlast
    cases hp : p last <;> simp [hp, hlast]

lemma nodup_readIdList (stored : Option JsValue) : (readIdList stored).Nodup := by
  unfold readIdList
  split
  · exact nodup_distinctIds _ _
  · exact nodup_nil

lemma lookup_isSome_iff {refs : List CollectionRef} {id : ℤ} :
    (lookup refs id).isSome = true ↔ id ∈ refs.map CollectionRef.id := by
  rw [lookup, find?_isSome, mem_map]
  simp

/-- The collections missing from an order are sorted as the listing sorts them. -/
lemma missing_sorted (c : Collation) (collections : Collections) {ids : List ℤ} (hids : ids.Nodup)
    (kept : List ℤ) :
    alphabetical c (ids.filterMap fun id =>
        (lookup collections.refs id).filter fun _ => id ∉ kept) =
      ((collections.refs.filter (·.id ∈ ids)).filter (·.id ∉ kept)).mergeSort c.le := by
  have hnamed : (ids.filterMap fun id =>
      (lookup collections.refs id).filter fun _ => id ∉ kept) =
      ordered CollectionRef.id collections.refs (ids.filter (· ∉ kept)) := by
    rw [ordered, filterMap_filter]
    apply filterMap_congr
    intro id _
    rw [lookup]
    by_cases hkept : id ∈ kept
    · simp [hkept]
    · cases collections.refs.find? (·.id = id) <;> simp [hkept]
  have hdistinct : (((collections.refs.filter (·.id ∈ ids)).filter (·.id ∉ kept)).map
      CollectionRef.id).Nodup :=
    collections.distinct.sublist ((filter_sublist.trans filter_sublist).map _)
  rw [hnamed]
  refine sort_congr c.keyOrder hdistinct ?_
  rw [perm_ext_iff_of_nodup (nodup_ordered _ (hids.filter _)) (Nodup.of_map _ hdistinct)]
  intro a
  rw [mem_ordered collections.distinct]
  simp only [mem_filter, decide_eq_true_eq, and_assoc]

/-- A sanitized order is empty, where nothing of the stored one survives, or the ids of the whole
group as the stored order lists it. -/
lemma sanitizeOrder_eq (c : Collation) (collections : Collections) {ids : List ℤ}
    (hids : ids.Nodup) (hknown : ∀ id ∈ ids, id ∈ collections.refs.map CollectionRef.id)
    (stored : Option JsValue) :
    sanitizeOrder c ids stored collections.refs =
      if (readIdList stored).filter (· ∈ ids) = [] then []
      else (arrange CollectionRef.id c.le (collections.refs.filter (·.id ∈ ids))
        (readIdList stored)).map CollectionRef.id := by
  unfold sanitizeOrder
  dsimp only
  rw [distinctIds_of_nodup _ (nodup_readIdList stored)]
  simp only [length_eq_zero_iff]
  split_ifs with hempty
  · rfl
  · have hkeys : ∀ id, id ∈ (collections.refs.filter (·.id ∈ ids)).map CollectionRef.id ↔
        id ∈ ids := by
      intro id
      constructor
      · intro hmem
        obtain ⟨a, ha, rfl⟩ := mem_map.mp hmem
        simpa using (mem_filter.mp ha).2
      · intro hmem
        obtain ⟨a, ha, rfl⟩ := mem_map.mp (hknown id hmem)
        exact mem_map_of_mem (mem_filter.mpr ⟨ha, by simpa using hmem⟩)
    have hkept : ((readIdList stored).filter (· ∈ ids)) = (readIdList stored).filter
        (· ∈ (collections.refs.filter (·.id ∈ ids)).map CollectionRef.id) :=
      filter_congr fun id _ => by simp only [hkeys]
    rw [missing_sorted c collections hids, ← arrange_stale _ (readIdList stored), ← hkept, arrange,
      map_append, map_key_ordered]
    congr 1
    symm
    rw [filter_eq_self]
    intro id hid
    rw [decide_eq_true_eq, hkeys]
    simpa using (mem_filter.mp hid).2

/-- A group is shown alike by a stored order and by what sanitizing makes of it. -/
lemma arrange_sanitizeOrder (c : Collation) (collections : Collections) {ids : List ℤ}
    (hids : ids.Nodup) (hknown : ∀ id ∈ ids, id ∈ collections.refs.map CollectionRef.id)
    (stored : Option JsValue) :
    arrange CollectionRef.id c.le (collections.refs.filter (·.id ∈ ids))
        (sanitizeOrder c ids stored collections.refs) =
      arrange CollectionRef.id c.le (collections.refs.filter (·.id ∈ ids)) (readIdList stored) := by
  have hdistinct : ((collections.refs.filter (·.id ∈ ids)).map CollectionRef.id).Nodup :=
    collections.distinct.sublist (filter_sublist.map _)
  rw [sanitizeOrder_eq c collections hids hknown]
  split_ifs with hempty
  · have hnone : (readIdList stored).filter
        (· ∈ (collections.refs.filter (·.id ∈ ids)).map CollectionRef.id) = [] := by
      rw [filter_eq_nil_iff] at hempty ⊢
      intro id hid hmem
      obtain ⟨a, ha, rfl⟩ := mem_map.mp (of_decide_eq_true hmem)
      exact hempty a.id hid (mem_filter.mp ha).2
    rw [← arrange_stale _ (readIdList stored), hnone]
  · exact arrange_keys hdistinct (arrange_perm hdistinct (nodup_readIdList stored))

/-- A sanitized order names no id twice and only ids of the group. -/
lemma sanitizeOrder_spec (c : Collation) (collections : Collections) {ids : List ℤ}
    (hids : ids.Nodup) (hknown : ∀ id ∈ ids, id ∈ collections.refs.map CollectionRef.id)
    (stored : Option JsValue) :
    (sanitizeOrder c ids stored collections.refs).Nodup ∧
      ∀ id ∈ sanitizeOrder c ids stored collections.refs, id ∈ ids := by
  have hdistinct : ((collections.refs.filter (·.id ∈ ids)).map CollectionRef.id).Nodup :=
    collections.distinct.sublist (filter_sublist.map _)
  rw [sanitizeOrder_eq c collections hids hknown]
  split_ifs
  · exact ⟨nodup_nil, fun id hid => absurd hid not_mem_nil⟩
  · have hperm : arrange CollectionRef.id c.le _ (readIdList stored) ~ _ :=
      arrange_perm hdistinct (nodup_readIdList stored)
    refine ⟨(hperm.map _).nodup_iff.mpr hdistinct, fun id hid => ?_⟩
    obtain ⟨a, ha, rfl⟩ := mem_map.mp hid
    simpa using (mem_filter.mp (hperm.subset ha)).2

/-- The ids that are left unpinned pick their collections out again. -/
lemma filter_unpinned (collections : Collections) (pinned : List ℤ) :
    collections.refs.filter
        (·.id ∈ (collections.refs.filter (·.id ∉ pinned)).map CollectionRef.id) =
      collections.refs.filter (·.id ∉ pinned) := by
  apply filter_congr
  intro a ha
  rw [decide_eq_decide, mem_map]
  constructor
  · rintro ⟨b, hb, hid⟩
    simpa [hid] using (mem_filter.mp hb).2
  · intro hid
    exact ⟨a, mem_filter.mpr ⟨ha, by simpa using hid⟩, rfl⟩

section Sanitized

variable (c : Collation) (raw : JsValue) (collections : Collections)

lemma nodup_sanitized_pinned :
    (sanitizeCollectionPreferences c raw collections.refs).pinned.Nodup :=
  (nodup_readIdList _).filter _

lemma sanitized_pinned_known (id : ℤ)
    (h : id ∈ (sanitizeCollectionPreferences c raw collections.refs).pinned) :
    id ∈ collections.refs.map CollectionRef.id :=
  lookup_isSome_iff.mp (mem_filter.mp h).2

lemma nodup_unpinned (pinned : List ℤ) :
    ((collections.refs.filter (·.id ∉ pinned)).map CollectionRef.id).Nodup :=
  collections.distinct.sublist (filter_sublist.map _)

lemma unpinned_known (pinned : List ℤ) (id : ℤ)
    (h : id ∈ (collections.refs.filter (·.id ∉ pinned)).map CollectionRef.id) :
    id ∈ collections.refs.map CollectionRef.id :=
  (filter_sublist.map _).subset h

/-- Whatever is stored, sanitizing makes it consistent. -/
lemma consistent_sanitize :
    Consistent (sanitizeCollectionPreferences c raw collections.refs) where
  nodup group := by
    cases group with
    | pinned =>
      exact (sanitizeOrder_spec c collections (nodup_sanitized_pinned c raw collections)
        (sanitized_pinned_known c raw collections) _).1
    | unpinned =>
      exact (sanitizeOrder_spec c collections (nodup_unpinned collections _)
        (unpinned_known collections _) _).1
  pinned := (sanitizeOrder_spec c collections (nodup_sanitized_pinned c raw collections)
    (sanitized_pinned_known c raw collections) _).2

end Sanitized

lemma consistent_parse (c : Collation) (stored : Stored) (collections : Collections) :
    Consistent (parseStoredCollectionPreferences c stored collections.refs) := by
  have hdefault : Consistent {} :=
    ⟨fun group => by cases group <;> exact nodup_nil, fun id hid => absurd hid not_mem_nil⟩
  cases stored with
  | missing => exact hdefault
  | corrupt => exact hdefault
  | json raw => exact consistent_sanitize c raw collections

/-- A written list of ids is read back without its repetitions. -/
lemma readIdList_ofIds (ids : List ℤ) :
    readIdList (some (.ofIds ids)) = distinctIds (fun _ => true) ids := by
  have hintegers : (ids.map fun (id : ℤ) => JsValue.number (some (id : ℚ))).filterMap
      JsValue.integer? = ids := by
    rw [filterMap_map]
    conv_rhs => rw [← filterMap_some (l := ids)]
    apply filterMap_congr
    intro id _
    simp [JsValue.integer?]
  rw [JsValue.ofIds, readIdList, hintegers]

lemma readIdList_ofIds_of_nodup {ids : List ℤ} (h : ids.Nodup) :
    readIdList (some (.ofIds ids)) = ids := by
  rw [readIdList_ofIds, distinctIds_of_nodup _ h, filter_true]

/-- A collection that exists is read back as pinned as it was. -/
lemma pinned_reread (c : Collation) (p : CollectionPreferences) {refs : List CollectionRef}
    {a : CollectionRef} (ha : a ∈ refs) :
    a.id ∈ (sanitizeCollectionPreferences c p.toValue refs).pinned ↔ a.id ∈ p.pinned := by
  show a.id ∈ (readIdList (some (.ofIds p.pinned))).filter
    (fun id => (lookup refs id).isSome) ↔ _
  rw [readIdList_ofIds, mem_filter, mem_distinctIds, lookup_isSome_iff]
  simp only [and_true, and_iff_left_iff_imp]
  exact fun _ => mem_map_of_mem ha

/-- **Writing the state and reading it back renders the same groups.** -/
theorem rendered_reread (c : Collation) {s : State} (h : Consistent s.preferences)
    (group : CollectionGroupId) :
    rendered c (step c s .reread) group = rendered c s group := by
  let read := sanitizeCollectionPreferences c s.preferences.toValue s.collections.refs
  rw [rendered_eq, rendered_eq]
  cases group with
  | pinned =>
    have hmembers : s.collections.refs.filter (·.id ∈ read.pinned) =
        members s.preferences s.collections.refs .pinned :=
      filter_congr fun a ha => by rw [decide_eq_decide, pinned_reread c s.preferences ha]
    show arrange CollectionRef.id c.le (s.collections.refs.filter (·.id ∈ read.pinned))
      (sanitizeOrder c read.pinned (some (.ofIds s.preferences.pinnedOrder)) s.collections.refs) = _
    rw [arrange_sanitizeOrder c s.collections (nodup_sanitized_pinned c _ s.collections)
      (sanitized_pinned_known c _ s.collections), hmembers]
    exact congrArg _ (readIdList_ofIds_of_nodup (h.nodup .pinned))
  | unpinned =>
    have hmembers : s.collections.refs.filter (·.id ∉ read.pinned) =
        members s.preferences s.collections.refs .unpinned :=
      filter_congr fun a ha => by rw [decide_eq_decide, pinned_reread c s.preferences ha]
    show arrange CollectionRef.id c.le (s.collections.refs.filter (·.id ∉ read.pinned))
      (sanitizeOrder c ((s.collections.refs.filter (·.id ∉ read.pinned)).map CollectionRef.id)
        (some (.ofIds s.preferences.unpinnedOrder)) s.collections.refs) = _
    have hsanitized := arrange_sanitizeOrder c s.collections
      (nodup_unpinned s.collections read.pinned) (unpinned_known s.collections read.pinned)
      (some (.ofIds s.preferences.unpinnedOrder))
    rw [filter_unpinned] at hsanitized
    rw [hsanitized, hmembers]
    exact congrArg _ (readIdList_ofIds_of_nodup (h.nodup .unpinned))

/-! ## Moving a collection -/

/-- Of two neighbours, the one that moves past the other. -/
def Direction.moved : Direction → CollectionRef → CollectionRef → CollectionRef
  | up, _, below => below
  | down, above, _ => above

lemma findIdx?_id {front back : List CollectionRef} {a : CollectionRef}
    (h : ((front ++ a :: back).map CollectionRef.id).Nodup) :
    (front ++ a :: back).findIdx? (·.id = a.id) = some front.length := by
  have hfront : front.findIdx? (·.id = a.id) = none := by
    rw [findIdx?_eq_none_iff]
    intro b hb
    rw [map_append, map_cons, nodup_append] at h
    simpa using h.2.2 b.id (mem_map_of_mem hb) a.id mem_cons_self
  rw [findIdx?_append, hfront]
  simp [findIdx?_cons]

/-- Where a collection has a neighbour in the direction, the two change places. -/
lemma moveCollection_swap (c : Collation) (p : CollectionPreferences) (refs : List CollectionRef)
    {id : ℤ} {direction : Direction} {front back : List CollectionRef} {a b : CollectionRef}
    (hgroup : (resolveCollectionGroups c refs p).group (groupOf p id) = front ++ a :: b :: back)
    (hdistinct : ((front ++ a :: b :: back).map CollectionRef.id).Nodup)
    (hmoved : (direction.moved a b).id = id) :
    moveCollection c p refs id direction =
      setGroupOrder p (groupOf p id) ((front ++ b :: a :: back).map CollectionRef.id) := by
  unfold moveCollection
  rw [hgroup]
  subst hmoved
  cases direction with
  | down =>
    have hindex : (front ++ a :: b :: back).findIdx? (·.id = (Direction.down.moved a b).id) =
        some front.length := findIdx?_id hdistinct
    have htarget : (front.length : ℤ) + Direction.down.offset = ((front.length + 1 : ℕ) : ℤ) := by
      simp [Direction.offset]
    have hinside : ¬ (((front.length + 1 : ℕ) : ℤ) < 0 ∨
        ((front.length + 1 : ℕ) : ℤ) ≥ (front ++ a :: b :: back).length) := by
      simp only [length_append, length_cons]
      omega
    dsimp only
    rw [hindex]
    dsimp only
    rw [htarget, if_neg hinside, Int.toNat_natCast]
    simp
  | up =>
    have hindex : (front ++ a :: b :: back).findIdx? (·.id = (Direction.up.moved a b).id) =
        some (front.length + 1) := by
      have hsplit : front ++ a :: b :: back = (front ++ [a]) ++ b :: back := by simp
      rw [hsplit] at hdistinct ⊢
      rw [show (Direction.up.moved a b).id = b.id from rfl, findIdx?_id hdistinct]
      simp
    have htarget : ((front.length + 1 : ℕ) : ℤ) + Direction.up.offset = (front.length : ℤ) := by
      simp only [Direction.offset]
      omega
    have hinside : ¬ ((front.length : ℤ) < 0 ∨
        (front.length : ℤ) ≥ (front ++ a :: b :: back).length) := by
      simp only [length_append, length_cons]
      omega
    dsimp only
    rw [hindex]
    dsimp only
    rw [htarget, if_neg hinside, Int.toNat_natCast]
    simp

/-- The collection has a neighbour in the direction. -/
def HasNeighbour (direction : Direction) (id : ℤ) (group : List CollectionRef) : Prop :=
  ∃ front a b back, group = front ++ a :: b :: back ∧ (direction.moved a b).id = id

/-- Two consecutive entries of a list, taken out. -/
lemma eq_append_of_getElem? {group : List CollectionRef} {i : ℕ} {a b : CollectionRef}
    (ha : group[i]? = some a) (hb : group[i + 1]? = some b) :
    ∃ front back, group = front ++ a :: b :: back := by
  obtain ⟨hi, rfl⟩ := List.getElem?_eq_some_iff.mp ha
  obtain ⟨hi', rfl⟩ := List.getElem?_eq_some_iff.mp hb
  refine ⟨group.take i, group.drop (i + 2), ?_⟩
  rw [← drop_eq_getElem_cons hi', ← drop_eq_getElem_cons hi, take_append_drop]

/-- At the edge of the group nothing moves. -/
lemma moveCollection_stays (c : Collation) (p : CollectionPreferences) (refs : List CollectionRef)
    {id : ℤ} {direction : Direction}
    (h : ¬ HasNeighbour direction id
      ((resolveCollectionGroups c refs p).group (groupOf p id))) :
    moveCollection c p refs id direction = p := by
  unfold moveCollection
  generalize (resolveCollectionGroups c refs p).group (groupOf p id) = group at h
  dsimp only
  split
  · rfl
  · next index hindex =>
    split_ifs with hedge
    · rfl
    · exfalso
      obtain ⟨hlt, hid, _⟩ := findIdx?_eq_some_iff_getElem.mp hindex
      simp only [decide_eq_true_eq] at hid
      push Not at hedge
      cases direction with
      | down =>
        simp only [Direction.offset] at hedge
        have hnext : index + 1 < group.length := by omega
        obtain ⟨front, back, hsplit⟩ := eq_append_of_getElem? (getElem?_eq_getElem hlt)
          (getElem?_eq_getElem hnext)
        exact h ⟨front, _, _, back, hsplit, hid⟩
      | up =>
        simp only [Direction.offset] at hedge
        obtain ⟨before, rfl⟩ : ∃ before, index = before + 1 := ⟨index - 1, by omega⟩
        obtain ⟨front, back, hsplit⟩ := eq_append_of_getElem?
          (getElem?_eq_getElem (show before < group.length by omega)) (getElem?_eq_getElem hlt)
        exact h ⟨front, _, _, back, hsplit, hid⟩

lemma other_ne (group : CollectionGroupId) : group.other ≠ group := by
  cases group <;> simp [CollectionGroupId.other]

lemma eq_other_of_ne {group group' : CollectionGroupId} (h : group' ≠ group) :
    group' = group.other := by
  cases group <;> cases group' <;> simp_all [CollectionGroupId.other]

@[simp] lemma setGroupOrder_pinned (p : CollectionPreferences) (group : CollectionGroupId)
    (order : List ℤ) : (setGroupOrder p group order).pinned = p.pinned := by
  cases group <;> rfl

@[simp] lemma orderOf_setGroupOrder (p : CollectionPreferences) (group : CollectionGroupId)
    (order : List ℤ) : orderOf (setGroupOrder p group order) group = order := by
  cases group <;> rfl

@[simp] lemma orderOf_setGroupOrder_other (p : CollectionPreferences) (group : CollectionGroupId)
    (order : List ℤ) :
    orderOf (setGroupOrder p group order) group.other = orderOf p group.other := by
  cases group <;> rfl

lemma members_congr {p p' : CollectionPreferences} (h : p'.pinned = p.pinned)
    (refs : List CollectionRef) (group : CollectionGroupId) :
    members p' refs group = members p refs group := by
  cases group <;> simp only [members, h]

/-- A full order of a group shows the group as it says and leaves the other one. -/
lemma rendered_setGroupOrder (c : Collation) (s : State) {group : CollectionGroupId}
    {shown : List CollectionRef}
    (hshown : shown ~ members s.preferences s.collections.refs group) :
    let s' := { s with
      preferences := setGroupOrder s.preferences group (shown.map CollectionRef.id) }
    rendered c s' group = shown ∧ rendered c s' group.other = rendered c s group.other := by
  dsimp only
  rw [rendered_eq, rendered_eq, rendered_eq, orderOf_setGroupOrder, orderOf_setGroupOrder_other,
    members_congr (setGroupOrder_pinned ..), members_congr (setGroupOrder_pinned ..)]
  exact ⟨arrange_keys (nodup_members s.preferences s.collections group) hshown, rfl⟩

/-- A full order of a group keeps the preferences consistent. -/
lemma consistent_setGroupOrder {p : CollectionPreferences} (h : Consistent p)
    {collections : Collections} {group : CollectionGroupId} {shown : List CollectionRef}
    (hshown : shown ~ members p collections.refs group) :
    Consistent (setGroupOrder p group (shown.map CollectionRef.id)) where
  nodup group' := by
    by_cases hgroup : group' = group
    · subst hgroup
      rw [orderOf_setGroupOrder]
      exact (hshown.map _).nodup_iff.mpr (nodup_members p collections group')
    · rw [eq_other_of_ne hgroup, orderOf_setGroupOrder_other]
      exact h.nodup group.other
  pinned := by
    cases group with
    | pinned =>
      intro id hid
      obtain ⟨a, ha, rfl⟩ := mem_map.mp hid
      simpa using (mem_filter.mp (hshown.subset ha)).2
    | unpinned => exact h.pinned

/-- What a move does: the collection changes places with its neighbour and with nothing else. -/
structure MoveSpec (c : Collation) (s : State) (id : ℤ) (direction : Direction) : Prop where
  exchanges : ∀ group front a b back, rendered c s group = front ++ a :: b :: back →
    (direction.moved a b).id = id →
      rendered c (step c s (.move id direction)) group = front ++ b :: a :: back ∧
        rendered c (step c s (.move id direction)) group.other = rendered c s group.other
  edge : (∀ group, ¬ HasNeighbour direction id (rendered c s group)) →
    step c s (.move id direction) = s
  keeps : ∀ group, (rendered c (step c s (.move id direction)) group).filter (·.id ≠ id) =
    (rendered c s group).filter (·.id ≠ id)

/-- The neighbours of a shown collection, exchanged. -/
lemma swap_perm {front back : List CollectionRef} {a b : CollectionRef} :
    front ++ b :: a :: back ~ front ++ a :: b :: back :=
  (Perm.swap a b back).append_left front

/-- A move that has a neighbour writes the full order of the group. -/
lemma step_move_swap (c : Collation) {s : State} (h : Consistent s.preferences) {id : ℤ}
    {direction : Direction} {group : CollectionGroupId} {front back : List CollectionRef}
    {a b : CollectionRef} (hshown : rendered c s group = front ++ a :: b :: back)
    (hmoved : (direction.moved a b).id = id) :
    front ++ b :: a :: back ~ members s.preferences s.collections.refs group ∧
      step c s (.move id direction) = { s with
        preferences := setGroupOrder s.preferences group
          ((front ++ b :: a :: back).map CollectionRef.id) } := by
  have hmem : direction.moved a b ∈ rendered c s group := by
    rw [hshown]
    cases direction <;> simp [Direction.moved]
  have hgroup : groupOf s.preferences id = group := by
    rw [← hmoved]
    exact ((mem_rendered c h).mp hmem).2
  refine ⟨swap_perm.trans (hshown ▸ rendered_perm c h group), ?_⟩
  subst hgroup
  have hdistinct := hshown ▸ nodup_rendered c h (groupOf s.preferences id)
  show { s with preferences := moveCollection c s.preferences s.collections.refs id direction } = _
  rw [moveCollection_swap c s.preferences s.collections.refs hshown hdistinct hmoved]

lemma step_move_stays (c : Collation) {s : State} {id : ℤ} {direction : Direction}
    (h : ¬ HasNeighbour direction id (rendered c s (groupOf s.preferences id))) :
    step c s (.move id direction) = s := by
  show { s with preferences := moveCollection c s.preferences s.collections.refs id direction } = _
  rw [moveCollection_stays c s.preferences s.collections.refs h]

/-- **A move exchanges exactly two neighbours.** -/
theorem moveSpec (c : Collation) {s : State} (h : Consistent s.preferences) (id : ℤ)
    (direction : Direction) : MoveSpec c s id direction where
  exchanges group front a b back hshown hmoved := by
    obtain ⟨hperm, hstep⟩ := step_move_swap c h hshown hmoved
    rw [hstep]
    exact rendered_setGroupOrder c s hperm
  edge hnone := step_move_stays c (hnone _)
  keeps group := by
    by_cases hneighbour : HasNeighbour direction id (rendered c s (groupOf s.preferences id))
    · obtain ⟨front, a, b, back, hshown, hmoved⟩ := hneighbour
      obtain ⟨hperm, hstep⟩ := step_move_swap c h hshown hmoved
      obtain ⟨hgroup, hother⟩ := rendered_setGroupOrder c s hperm
      rw [hstep]
      by_cases hsame : group = groupOf s.preferences id
      · rw [hsame, hgroup, hshown]
        cases direction <;>
          · simp only [Direction.moved] at hmoved
            simp [filter_append, filter_cons, hmoved]
      · rw [eq_other_of_ne hsame, hother]
    · rw [step_move_stays c hneighbour]

lemma consistent_move (c : Collation) {s : State} (h : Consistent s.preferences) (id : ℤ)
    (direction : Direction) : Consistent (step c s (.move id direction)).preferences := by
  by_cases hneighbour : HasNeighbour direction id (rendered c s (groupOf s.preferences id))
  · obtain ⟨front, a, b, back, hshown, hmoved⟩ := hneighbour
    obtain ⟨hperm, hstep⟩ := step_move_swap c h hshown hmoved
    rw [hstep]
    exact consistent_setGroupOrder h hperm
  · rw [step_move_stays c hneighbour]
    exact h

/-! ## Placing a collection -/

/-- What placing does: the collection stands at the index in the target group, counted without it
and cut off at the ends, and all others stay in their order. -/
structure PlaceSpec (c : Collation) (s : State) (id : ℤ) (target : CollectionGroupId) (index : ℤ) :
    Prop where
  unknown : id ∉ s.collections.refs.map CollectionRef.id → step c s (.place id target index) = s
  placed : ∀ moving ∈ s.collections.refs, moving.id = id → ∃ front back,
    front ++ back = (rendered c s target).filter (·.id ≠ id) ∧
    rendered c (step c s (.place id target index)) target = front ++ moving :: back ∧
    (front.length : ℤ) = max 0 (min index (front ++ back).length)
  keeps : ∀ group, (rendered c (step c s (.place id target index)) group).filter (·.id ≠ id) =
    (rendered c s group).filter (·.id ≠ id)

/-- The target group without the collection. -/
def placeOthers (c : Collation) (s : State) (id : ℤ) (target : CollectionGroupId) :
    List CollectionRef :=
  (rendered c s target).filter (·.id ≠ id)

/-- The place that an index means. -/
def placeIndex (c : Collation) (s : State) (id : ℤ) (target : CollectionGroupId) (index : ℤ) : ℕ :=
  (max 0 (min index (placeOthers c s id target).length)).toNat

/-- The target group as it is shown afterwards. -/
def placeShown (c : Collation) (s : State) (moving : CollectionRef) (target : CollectionGroupId)
    (index : ℤ) : List CollectionRef :=
  (placeOthers c s moving.id target).insertIdx (placeIndex c s moving.id target index) moving

section Place

variable (c : Collation) {s : State} {moving : CollectionRef} (target : CollectionGroupId)
  (index : ℤ)

lemma insertIdx_eq (a : CollectionRef) : ∀ (n : ℕ) (list : List CollectionRef), n ≤ list.length →
    list.insertIdx n a = list.take n ++ a :: list.drop n
  | 0, list, _ => by simp
  | n + 1, [], h => absurd h (Nat.not_succ_le_zero n)
  | n + 1, b :: list, h => by
    rw [insertIdx_succ_cons, insertIdx_eq a n list (Nat.le_of_succ_le_succ h)]
    rfl

lemma placeIndex_le (id : ℤ) :
    placeIndex c s id target index ≤ (placeOthers c s id target).length := by
  unfold placeIndex
  omega

/-- What placing makes of the preferences: the collection belongs to the target group, whose order
is written out, and the order of the other group loses its id if it loses anything. -/
lemma step_place (hmoving : moving ∈ s.collections.refs) :
    let p' := (step c s (.place moving.id target index)).preferences
    (∀ id, groupOf p' id = if id = moving.id then target else groupOf s.preferences id) ∧
      orderOf p' target = (placeShown c s moving target index).map CollectionRef.id ∧
      (orderOf p' target.other = orderOf s.preferences target.other ∨
        orderOf p' target.other = (orderOf s.preferences target.other).filter (· ≠ moving.id)) := by
  have hlookup : lookup s.collections.refs moving.id = some moving :=
    find?_key s.collections.distinct hmoving
  dsimp only
  simp only [step, placeCollection, hlookup]
  cases target with
  | pinned =>
    refine ⟨fun id => ?_, rfl, ?_⟩
    · dsimp only [groupOf]
      by_cases hid : id = moving.id
      · by_cases hpinned : moving.id ∈ s.preferences.pinned <;> simp [hid, hpinned]
      · by_cases hpinned : moving.id ∈ s.preferences.pinned <;> simp [hid, hpinned]
    · by_cases hunpinned : groupOf s.preferences moving.id = .unpinned
      · exact .inr (if_pos hunpinned)
      · exact .inl (if_neg hunpinned)
  | unpinned =>
    refine ⟨fun id => ?_, rfl, .inr rfl⟩
    dsimp only [groupOf]
    by_cases hid : id = moving.id <;> simp [hid]

lemma placeShown_eq :
    placeShown c s moving target index =
      (placeOthers c s moving.id target).take (placeIndex c s moving.id target index) ++
        moving :: (placeOthers c s moving.id target).drop
          (placeIndex c s moving.id target index) :=
  insertIdx_eq moving _ _ (placeIndex_le c target index moving.id)

/-- The target group is shown with the collection among the others. -/
lemma placeShown_perm (h : Consistent s.preferences) (hmoving : moving ∈ s.collections.refs) :
    placeShown c s moving target index ~
      members (step c s (.place moving.id target index)).preferences s.collections.refs target := by
  obtain ⟨hgroup, _, _⟩ := step_place c target index hmoving
  have hothers : ∀ a, a ∈ placeOthers c s moving.id target ↔
      a ∈ s.collections.refs ∧ groupOf s.preferences a.id = target ∧ a.id ≠ moving.id := by
    intro a
    rw [placeOthers, mem_filter, mem_rendered c h, decide_eq_true_eq, and_assoc]
  have hnodup : (moving :: placeOthers c s moving.id target).Nodup :=
    nodup_cons.mpr ⟨fun hmem => ((hothers moving).mp hmem).2.2 rfl,
      ((nodup_rendered c h target).of_map _).filter _⟩
  refine (perm_insertIdx moving _ (placeIndex_le c target index moving.id)).trans ?_
  rw [perm_ext_iff_of_nodup hnodup ((nodup_members _ s.collections target).of_map _)]
  intro a
  rw [mem_cons, hothers, mem_members, hgroup]
  by_cases hid : a.id = moving.id
  · rw [if_pos hid]
    constructor
    · rintro (rfl | ⟨_, _, hne⟩)
      · exact ⟨hmoving, rfl⟩
      · exact absurd hid hne
    · intro ⟨ha, _⟩
      exact .inl (eq_of_key s.collections.distinct ha hmoving hid)
  · rw [if_neg hid]
    constructor
    · rintro (rfl | ⟨ha, hgroup, _⟩)
      · exact absurd rfl hid
      · exact ⟨ha, hgroup⟩
    · intro ⟨ha, hgroup⟩
      exact .inr ⟨ha, hgroup, hid⟩

/-- Afterwards the target group is shown as written. -/
lemma rendered_place_target (h : Consistent s.preferences) (hmoving : moving ∈ s.collections.refs) :
    rendered c (step c s (.place moving.id target index)) target =
      placeShown c s moving target index := by
  obtain ⟨_, horder, _⟩ := step_place c target index hmoving
  rw [rendered_eq, horder]
  exact arrange_keys (nodup_members _ s.collections target)
    (placeShown_perm c target index h hmoving)

/-- Afterwards the other group is shown as before without the collection. -/
lemma rendered_place_other (hmoving : moving ∈ s.collections.refs) :
    rendered c (step c s (.place moving.id target index)) target.other =
      (rendered c s target.other).filter (·.id ≠ moving.id) := by
  obtain ⟨hgroup, _, horder⟩ := step_place c target index hmoving
  have hmembers : members (step c s (.place moving.id target index)).preferences
      s.collections.refs target.other =
      (members s.preferences s.collections.refs target.other).filter (·.id ≠ moving.id) := by
    rw [members_eq_filter, members_eq_filter, filter_filter]
    apply filter_congr
    intro a _
    rw [hgroup]
    by_cases hid : a.id = moving.id
    · simp [hid, (other_ne target).symm]
    · simp [hid]
  have hdistinct := nodup_members s.preferences s.collections target.other
  have hleaves := arrange_filter_items c.keyOrder hdistinct (· ≠ moving.id)
    (orderOf s.preferences target.other)
  have hleaves' := arrange_filter c.keyOrder hdistinct (· ≠ moving.id)
    (orderOf s.preferences target.other)
  rw [rendered_eq, rendered_eq]
  rcases horder with hsame | hless
  · rw [hsame]
    exact (congrArg (arrange _ _ · _) hmembers).trans hleaves
  · rw [hless]
    exact (congrArg (arrange _ _ · _) hmembers).trans hleaves'

end Place

/-- **Placing puts the collection at the index** and leaves all others in their order. -/
theorem placeSpec (c : Collation) {s : State} (h : Consistent s.preferences) (id : ℤ)
    (target : CollectionGroupId) (index : ℤ) : PlaceSpec c s id target index := by
  have hunknown : id ∉ s.collections.refs.map CollectionRef.id →
      step c s (.place id target index) = s := by
    intro hid
    have hlookup : lookup s.collections.refs id = none := by
      rw [← Option.not_isSome_iff_eq_none, lookup_isSome_iff]
      exact hid
    simp only [step, placeCollection, hlookup]
  refine ⟨hunknown, ?_, ?_⟩
  · rintro moving hmoving rfl
    have hle := placeIndex_le c target index moving.id (s := s)
    refine ⟨(placeOthers c s moving.id target).take (placeIndex c s moving.id target index),
      (placeOthers c s moving.id target).drop (placeIndex c s moving.id target index),
      take_append_drop .., ?_, ?_⟩
    · rw [rendered_place_target c target index h hmoving, placeShown_eq]
    · rw [take_append_drop, length_take, min_eq_left hle, placeIndex]
      omega
  · intro group
    by_cases hid : id ∈ s.collections.refs.map CollectionRef.id
    · obtain ⟨moving, hmoving, rfl⟩ := mem_map.mp hid
      by_cases hgroup : group = target
      · subst hgroup
        rw [rendered_place_target c group index h hmoving, placeShown_eq, filter_append,
          filter_cons_of_neg (by simp), ← filter_append, take_append_drop, placeOthers,
          filter_filter]
        simp only [Bool.and_self]
      · rw [eq_other_of_ne hgroup, rendered_place_other c target index hmoving, filter_filter]
        simp only [Bool.and_self]
    · rw [hunknown hid]

/-! ## Runs keep the orders consistent -/

/-- Ids leave the order of the pinned group when they leave the group. -/
lemma pinned_filter {p : CollectionPreferences} (h : Consistent p) (id : ℤ) :
    ∀ other ∈ p.pinnedOrder.filter (· ≠ id), other ∈ p.pinned.filter (· ≠ id) := by
  intro other hother
  obtain ⟨hmem, hne⟩ := mem_filter.mp hother
  exact mem_filter.mpr ⟨h.pinned other hmem, hne⟩

lemma consistent_place (c : Collation) {s : State} (h : Consistent s.preferences) (id : ℤ)
    (target : CollectionGroupId) (index : ℤ) :
    Consistent (step c s (.place id target index)).preferences := by
  by_cases hid : id ∈ s.collections.refs.map CollectionRef.id
  · obtain ⟨moving, hmoving, rfl⟩ := mem_map.mp hid
    obtain ⟨hgroup, horder, hother⟩ := step_place c target index hmoving
    have hperm := placeShown_perm c target index h hmoving
    refine ⟨fun group => ?_, fun id hpinned => ?_⟩
    · by_cases hsame : group = target
      · rw [hsame, horder]
        exact (hperm.map _).nodup_iff.mpr (nodup_members _ s.collections target)
      · rw [eq_other_of_ne hsame]
        rcases hother with hkept | hless
        · rw [hkept]
          exact h.nodup target.other
        · rw [hless]
          exact (h.nodup target.other).filter _
    · cases target with
      | pinned =>
        rw [show (step c s (.place moving.id .pinned index)).preferences.pinnedOrder =
          (placeShown c s moving .pinned index).map CollectionRef.id from horder] at hpinned
        obtain ⟨a, ha, rfl⟩ := mem_map.mp hpinned
        simpa using (mem_filter.mp (hperm.subset ha)).2
      | unpinned =>
        have hlookup : lookup s.collections.refs moving.id = some moving :=
          find?_key s.collections.distinct hmoving
        simp only [step, placeCollection, hlookup] at hpinned ⊢
        exact pinned_filter h moving.id id hpinned
  · rw [(placeSpec c h id target index).unknown hid]
    exact h

lemma consistent_pin {p : CollectionPreferences} (h : Consistent p) (id : ℤ) :
    Consistent (pinCollection p id) := by
  unfold pinCollection
  split_ifs with hpinned hcustom
  · exact h
  · refine ⟨fun group => ?_, fun other hother => ?_⟩
    · cases group with
      | pinned =>
        exact nodup_append.mpr ⟨h.nodup .pinned, nodup_singleton id, fun a ha b hb heq => by
          rw [mem_singleton.mp hb] at heq
          exact hpinned (heq ▸ h.pinned a ha)⟩
      | unpinned => exact (h.nodup .unpinned).filter _
    · rw [mem_append] at hother ⊢
      exact hother.imp_left (h.pinned other)
  · refine ⟨fun group => ?_, fun other hother => mem_append_left _ (h.pinned other hother)⟩
    cases group with
    | pinned => exact h.nodup .pinned
    | unpinned => exact (h.nodup .unpinned).filter _

lemma consistent_unpin {p : CollectionPreferences} (h : Consistent p) (id : ℤ) :
    Consistent (unpinCollection p id) := by
  unfold unpinCollection
  split_ifs with hpinned hcustom
  · refine ⟨fun group => ?_, pinned_filter h id⟩
    cases group with
    | pinned => exact (h.nodup .pinned).filter _
    | unpinned =>
      exact nodup_append.mpr ⟨(h.nodup .unpinned).filter _, nodup_singleton id,
        fun a ha b hb heq => by
          have hne := of_decide_eq_true (mem_filter.mp ha).2
          exact hne (heq.trans (mem_singleton.mp hb))⟩
  · refine ⟨fun group => ?_, pinned_filter h id⟩
    cases group with
    | pinned => exact (h.nodup .pinned).filter _
    | unpinned => exact h.nodup .unpinned
  · exact h

lemma consistent_forget {p : CollectionPreferences} (h : Consistent p) (id : ℤ) :
    Consistent (forgetCollection p id) := by
  unfold forgetCollection
  dsimp only
  split_ifs
  · exact h
  · refine ⟨fun group => ?_, pinned_filter h id⟩
    cases group with
    | pinned => exact (h.nodup .pinned).filter _
    | unpinned => exact (h.nodup .unpinned).filter _

/-- Every event keeps the orders consistent. -/
lemma consistent_step (c : Collation) {s : State} (h : Consistent s.preferences) (event : Event) :
    Consistent (step c s event).preferences := by
  cases event with
  | pin id => exact consistent_pin h id
  | unpin id => exact consistent_unpin h id
  | move id direction => exact consistent_move c h id direction
  | place id group index => exact consistent_place c h id group index
  | forget id => exact consistent_forget h id
  | change collections => exact h
  | reread =>
    exact consistent_parse c (writeCollectionPreferences s.preferences) s.collections

lemma consistent_run (c : Collation) {s : State} (h : Consistent s.preferences)
    (events : List Event) : Consistent (run c s events).preferences := by
  induction events generalizing s with
  | nil => exact h
  | cons event events ih => exact ih (consistent_step c h event)

/-! ## The groups over a run -/

/-- What holds of the groups in a state and after one more event. -/
structure Settled (c : Collation) (s : State) : Prop where
  /-- Every collection that exists is shown exactly once. -/
  once : rendered c s .pinned ++ rendered c s .unpinned ~ s.collections.refs
  moves : ∀ id direction, MoveSpec c s id direction
  places : ∀ id target index, PlaceSpec c s id target index
  rereads : ∀ group, rendered c (step c s .reread) group = rendered c s group

/-- **The groups stay a partition with stable order**, whatever value was stored and whatever
happens to the preferences and to the collections. -/
theorem run_settled (c : Collation) (stored : Stored) (collections : Collections)
    (events : List Event) : Settled c (run c (start c stored collections) events) := by
  have h : Consistent (run c (start c stored collections) events).preferences :=
    consistent_run c (consistent_parse c stored collections) events
  generalize run c (start c stored collections) events = s at h
  refine ⟨?_, fun id direction => moveSpec c h id direction,
    fun id target index => placeSpec c h id target index, rendered_reread c h⟩
  refine ((rendered_perm c h .pinned).append (rendered_perm c h .unpinned)).trans ?_
  simpa [members] using filter_append_perm (fun a => a.id ∈ s.preferences.pinned)
    s.collections.refs

end Sidebar

end TuxBooks
