import Mathlib.Data.List.Nodup
import Mathlib.Data.List.Perm.Basic

set_option relaxedAutoImplicit false
set_option autoImplicit false

/-!
# Items in an explicit order, the rest sorted

A listing of items with distinct keys: those that an explicit order of keys names come first, in
that order, and the others follow sorted. An order may name keys that no item has, and an empty
order leaves all items to the sorting.

## Main definitions

* `Arrangement.KeyOrder` — a comparison that is a total order of the items by their keys.
* `Arrangement.arrange` — the listing.

## Main results

* `Arrangement.arrange_perm` — every item is listed once.
* `Arrangement.arrange_keys` — a full order of the items lists them as it says.
* `Arrangement.arrange_filter` — leaving items out leaves the others where they are.
-/

namespace Arrangement

open List

variable {α κ : Type*}

/-- A comparison that is transitive and total, and ties only items of one key. -/
structure KeyOrder (key : α → κ) (le : α → α → Bool) : Prop where
  trans : ∀ a b c, le a b → le b c → le a c
  total : ∀ a b, le a b || le b a
  antisymm : ∀ a b, le a b → le b a → key a = key b

/-! ## Sorting by keys -/

section Sorting

variable {key : α → κ} {le : α → α → Bool} {items : List α}

lemma eq_of_key (h : (items.map key).Nodup) {a b : α} (ha : a ∈ items) (hb : b ∈ items)
    (hkey : key a = key b) : a = b :=
  inj_on_of_nodup_map h ha hb hkey

/-- Sorted lists of the same items are the same list. -/
lemma eq_of_sorted (hle : KeyOrder key le) (h : (items.map key).Nodup) {left right : List α}
    (hleft : left ~ items) (hright : right ~ items) (hsorted : left.Pairwise fun a b => le a b)
    (hsorted' : right.Pairwise fun a b => le a b) : left = right := by
  refine Perm.eq_of_pairwise (fun a b ha hb hab hba => ?_) hsorted hsorted'
    (hleft.trans hright.symm)
  exact eq_of_key h (hleft.subset ha) (hright.subset hb) (hle.antisymm a b hab hba)

lemma pairwise_sort (hle : KeyOrder key le) (items : List α) :
    (items.mergeSort le).Pairwise fun a b => le a b :=
  pairwise_mergeSort hle.trans hle.total items

/-- Sorting does not depend on the order it starts from. -/
lemma sort_congr (hle : KeyOrder key le) (h : (items.map key).Nodup) {items' : List α}
    (hperm : items' ~ items) : items'.mergeSort le = items.mergeSort le :=
  eq_of_sorted hle h ((mergeSort_perm items' le).trans hperm) (mergeSort_perm items le)
    (pairwise_sort hle items') (pairwise_sort hle items)

/-- Leaving items out of a sorted list leaves it sorted. -/
lemma sort_filter (hle : KeyOrder key le) (h : (items.map key).Nodup) (p : α → Bool) :
    (items.filter p).mergeSort le = (items.mergeSort le).filter p :=
  eq_of_sorted hle (h.sublist (filter_sublist.map key)) (mergeSort_perm _ le)
    ((mergeSort_perm items le).filter p) (pairwise_sort hle _) ((pairwise_sort hle items).filter p)

end Sorting

variable [DecidableEq κ]

/-! ## The listing of an order -/

/-- The items that an order names, in that order. -/
def ordered (key : α → κ) (items : List α) (order : List κ) : List α :=
  order.filterMap fun k => items.find? fun a => key a = k

/-- The items that an order names, then the others sorted. -/
def arrange (key : α → κ) (le : α → α → Bool) (items : List α) (order : List κ) : List α :=
  ordered key items order ++ (items.filter fun a => key a ∉ order).mergeSort le

variable {key : α → κ} {le : α → α → Bool} {items : List α}

/-! ## The items that an order names -/

lemma find?_key (h : (items.map key).Nodup) {a : α} (ha : a ∈ items) :
    (items.find? fun b => key b = key a) = some a := by
  obtain ⟨b, hfound⟩ : ∃ b, (items.find? fun b => key b = key a) = some b := by
    rw [← Option.isSome_iff_exists, find?_isSome]
    exact ⟨a, ha, by simp⟩
  have hkey : key b = key a := by simpa using find?_some hfound
  rw [hfound, eq_of_key h (mem_of_find?_eq_some hfound) ha hkey]

lemma mem_ordered (h : (items.map key).Nodup) {order : List κ} {a : α} :
    a ∈ ordered key items order ↔ a ∈ items ∧ key a ∈ order := by
  rw [ordered, mem_filterMap]
  constructor
  · rintro ⟨k, hk, hfound⟩
    have hkey : key a = k := by simpa using find?_some hfound
    exact ⟨mem_of_find?_eq_some hfound, hkey ▸ hk⟩
  · rintro ⟨ha, hk⟩
    exact ⟨key a, hk, find?_key h ha⟩

/-- The keys of the named items are the keys of the order that items have. -/
lemma map_key_ordered (items : List α) (order : List κ) :
    (ordered key items order).map key = order.filter (· ∈ items.map key) := by
  induction order with
  | nil => rfl
  | cons k order ih =>
    rw [ordered, filterMap_cons, filter_cons]
    cases hfound : items.find? fun a => key a = k with
    | none =>
      have hnot : k ∉ items.map key := by
        rw [find?_eq_none] at hfound
        rintro hmem
        obtain ⟨a, ha, hkey⟩ := mem_map.mp hmem
        exact hfound a ha (by simpa using hkey)
      rw [if_neg (by simpa using hnot)]
      exact ih
    | some a =>
      have hkey : key a = k := by simpa using find?_some hfound
      have hmem : k ∈ items.map key := mem_map.mpr ⟨a, mem_of_find?_eq_some hfound, hkey⟩
      rw [if_pos (by simpa using hmem), map_cons, hkey]
      exact congrArg _ ih

lemma nodup_ordered (items : List α) {order : List κ} (horder : order.Nodup) :
    (ordered key items order).Nodup := by
  apply Nodup.of_map key
  rw [map_key_ordered]
  exact horder.filter _

/-- An order may name the items alone or other keys besides. -/
lemma ordered_filter (q : κ → Bool) (items : List α) (order : List κ) :
    ordered key (items.filter fun a => q (key a)) (order.filter q) =
      (ordered key items order).filter fun a => q (key a) := by
  induction order with
  | nil => rfl
  | cons k order ih =>
    cases hq : q k with
    | true =>
      have hfind : ((items.filter fun a => q (key a)).find? fun a => key a = k) =
          items.find? fun a => key a = k := by
        rw [find?_filter]
        refine congrArg (items.find? ·) (funext fun a => ?_)
        by_cases hkey : key a = k
        · simp [hkey, hq]
        · simp [hkey]
      rw [filter_cons_of_pos hq, ordered, filterMap_cons, hfind, ordered, filterMap_cons]
      cases hfound : items.find? fun a => key a = k with
      | none => exact ih
      | some a =>
        have hkey : key a = k := by simpa using find?_some hfound
        rw [filter_cons_of_pos (by rw [hkey, hq])]
        exact congrArg _ ih
    | false =>
      rw [filter_cons_of_neg (by rw [hq]; exact Bool.false_ne_true), ih]
      show _ = (filterMap _ (k :: order)).filter _
      rw [filterMap_cons]
      cases hfound : items.find? fun a => key a = k with
      | none => rfl
      | some a =>
        have hkey : key a = k := by simpa using find?_some hfound
        rw [filter_cons_of_neg (by rw [hkey, hq]; exact Bool.false_ne_true)]
        rfl

/-! ## The listing -/

/-- **Every item is listed exactly once.** -/
theorem arrange_perm (h : (items.map key).Nodup) {order : List κ} (horder : order.Nodup) :
    arrange key le items order ~ items := by
  have hnodup : (arrange key le items order).Nodup := by
    rw [arrange, nodup_append]
    refine ⟨nodup_ordered items horder, (mergeSort_perm _ le).nodup_iff.mpr
      ((Nodup.of_map key h).filter _), ?_⟩
    rintro a ha b hb rfl
    have hrest : key a ∉ order := by simpa using (mem_filter.mp (mem_mergeSort.mp hb)).2
    exact hrest ((mem_ordered h).mp ha).2
  rw [perm_ext_iff_of_nodup hnodup (Nodup.of_map key h)]
  intro a
  rw [arrange, mem_append, mem_ordered h, mem_mergeSort, mem_filter]
  by_cases hk : key a ∈ order <;> simp [hk]

/-- A full order of the items lists them as it says. -/
theorem arrange_keys (h : (items.map key).Nodup) {shown : List α} (hshown : shown ~ items) :
    arrange key le items (shown.map key) = shown := by
  have hrest : (items.filter fun a => key a ∉ shown.map key) = [] := by
    rw [filter_eq_nil_iff]
    intro a ha
    simpa using ⟨a, hshown.symm.subset ha, rfl⟩
  have hnamed : ordered key items (shown.map key) = shown := by
    rw [ordered, filterMap_map]
    conv_rhs => rw [← filterMap_some (l := shown)]
    apply filterMap_congr
    intro a ha
    exact find?_key h (hshown.subset ha)
  rw [arrange, hnamed, hrest, mergeSort_nil, append_nil]

/-- Leaving items out leaves the others where they are. -/
theorem arrange_filter (hle : KeyOrder key le) (h : (items.map key).Nodup) (q : κ → Bool)
    (order : List κ) :
    arrange key le (items.filter fun a => q (key a)) (order.filter q) =
      (arrange key le items order).filter fun a => q (key a) := by
  have hrest : ((items.filter fun a => q (key a)).filter fun a => key a ∉ order.filter q) =
      (items.filter fun a => key a ∉ order).filter fun a => q (key a) := by
    rw [filter_filter, filter_filter]
    apply filter_congr
    intro a _
    cases hq : q (key a) <;> simp [hq]
  rw [arrange, arrange, filter_append, ordered_filter, hrest,
    sort_filter hle (h.sublist (filter_sublist.map key))]

/-- Keys that no item has make no difference. -/
lemma arrange_stale (items : List α) (order : List κ) :
    arrange key le items (order.filter (· ∈ items.map key)) = arrange key le items order := by
  have hordered : ordered key items (order.filter (· ∈ items.map key)) =
      ordered key items order := by
    rw [ordered, filterMap_filter, ordered]
    apply filterMap_congr
    intro k _
    split_ifs with hk
    · rfl
    · symm
      rw [find?_eq_none]
      rintro a ha
      have hne : key a ≠ k := by
        rintro rfl
        exact hk (by simpa using ⟨a, ha, rfl⟩)
      simpa using hne
  have hrest : (items.filter fun a => key a ∉ order.filter (· ∈ items.map key)) =
      items.filter fun a => key a ∉ order := by
    apply filter_congr
    intro a ha
    have hmem : key a ∈ items.map key := mem_map_of_mem ha
    simp only [mem_filter, hmem, decide_true, and_true]
  rw [arrange, hordered, hrest, arrange]

/-- Leaving items out leaves the others where they are, also when the order keeps their keys. -/
theorem arrange_filter_items (hle : KeyOrder key le) (h : (items.map key).Nodup) (q : κ → Bool)
    (order : List κ) :
    arrange key le (items.filter fun a => q (key a)) order =
      (arrange key le items order).filter fun a => q (key a) := by
  have hstale : order.filter (· ∈ (items.filter fun a => q (key a)).map key) =
      (order.filter q).filter (· ∈ (items.filter fun a => q (key a)).map key) := by
    rw [filter_filter]
    apply filter_congr
    intro k _
    by_cases hmem : k ∈ (items.filter fun a => q (key a)).map key
    · obtain ⟨a, ha, rfl⟩ := mem_map.mp hmem
      simp [(mem_filter.mp ha).2]
    · simp only [hmem, decide_false, Bool.false_and]
  rw [← arrange_filter hle h, ← arrange_stale _ order, hstale, arrange_stale]

end Arrangement
