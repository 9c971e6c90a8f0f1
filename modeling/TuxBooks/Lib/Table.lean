import Mathlib.Data.List.AList
import Mathlib.Data.List.Sort

set_option relaxedAutoImplicit false
set_option autoImplicit false

/-!
# Tables with a primary key

A relational table whose rows are found by a primary key, on top of Mathlib's `AList`: the
invariant that no key occurs twice is part of the type, so a table that violates its primary
key cannot be built. `AList` has lookup, insertion and deletion of one key; this file adds the
set-oriented statements of SQL (`UPDATE ... WHERE`, `DELETE ... WHERE`) and a table built from
a list of names.

## Main definitions

* `Table κ ρ` — a table with keys `κ` and rows `ρ`.
* `Table.mapRows` — update every row in place.
* `Table.filterRows` — keep the rows that satisfy a condition.
* `Table.ofKeys` — the table with one row for each name of a list.
* `Table.findKey` — the key of the first row that satisfies a condition.

## Main results

* `Table.lookup_mapRows`, `Table.lookup_filterRows`, `Table.lookup_ofKeys` — what a lookup
  reads after each of them.
* `Table.findKey_eq_some` — a search by a condition that at most one row satisfies.
* `Table.foldl_update_lookup` — a loop that updates one entry for each row of a table.
* `Table.lookup_foldl_insert_of_mem`, `Table.lookup_foldl_insert_of_not_mem` — a loop that inserts
  rows under different keys.
-/

/-- A table with primary key `κ` and rows `ρ`. -/
abbrev Table (κ ρ : Type*) := AList fun _ : κ => ρ

namespace Table

variable {κ ρ τ : Type*}

/-- Tables are compared entry by entry. Unlike the instance for dependent lists this one can be
evaluated in a proof. -/
instance [DecidableEq κ] [DecidableEq ρ] : DecidableEq (Table κ ρ) := fun t t' =>
  decidable_of_iff
      (t.entries.map (fun e => (e.1, e.2)) = t'.entries.map (fun e => (e.1, e.2))) <| by
    have hinj : Function.Injective fun e : Sigma fun _ : κ => ρ => (e.1, e.2) := by
      rintro ⟨k, r⟩ ⟨k', r'⟩ heq
      cases heq
      rfl
    rw [hinj.list_map.eq_iff]
    exact AList.ext_iff.symm

/-- Replace every row by a function of its key and its old value. -/
def mapRows (f : κ → ρ → τ) (t : Table κ ρ) : Table κ τ where
  entries := t.entries.map fun s => ⟨s.1, f s.1 s.2⟩
  nodupKeys := by
    have h : (t.entries.map fun s => (⟨s.1, f s.1 s.2⟩ : Sigma fun _ : κ => τ)).keys =
        t.entries.keys := by
      simp [List.keys, Function.comp_def]
    rw [List.NodupKeys, h]
    exact t.nodupKeys

lemma keys_mapRows (f : κ → ρ → τ) (t : Table κ ρ) : (t.mapRows f).keys = t.keys := by
  simp [AList.keys, mapRows, List.keys, Function.comp_def]

/-- Keep the rows for which `p` holds. -/
def filterRows (p : κ → ρ → Bool) (t : Table κ ρ) : Table κ ρ where
  entries := t.entries.filter fun s => p s.1 s.2
  nodupKeys := List.NodupKeys.sublist List.filter_sublist t.nodupKeys

section Lookup

variable [DecidableEq κ]

/-- A row is found exactly when it is one of the entries. -/
lemma lookup_eq_some_iff {t : Table κ ρ} {k : κ} {r : ρ} :
    t.lookup k = some r ↔ (⟨k, r⟩ : Sigma fun _ : κ => ρ) ∈ t.entries :=
  AList.mem_lookup_iff

@[simp] lemma lookup_mapRows (f : κ → ρ → τ) (t : Table κ ρ) (k : κ) :
    (t.mapRows f).lookup k = (t.lookup k).map (f k) := by
  refine Option.ext fun r => ?_
  simp only [lookup_eq_some_iff, mapRows, List.mem_map, Option.map_eq_some_iff]
  constructor
  · rintro ⟨⟨k', r'⟩, hmem, heq⟩
    cases heq
    exact ⟨r', hmem, rfl⟩
  · rintro ⟨r', hmem, rfl⟩
    exact ⟨⟨k, r'⟩, hmem, rfl⟩

@[simp] lemma lookup_filterRows (p : κ → ρ → Bool) (t : Table κ ρ) (k : κ) :
    (t.filterRows p).lookup k = (t.lookup k).filter (p k) := by
  refine Option.ext fun r => ?_
  simp only [lookup_eq_some_iff, filterRows, List.mem_filter, Option.filter_eq_some_iff]

/-- Insertion, read at any key. -/
lemma lookup_insert' (t : Table κ ρ) (k k' : κ) (r : ρ) :
    (t.insert k r).lookup k' = if k' = k then some r else t.lookup k' := by
  by_cases h : k' = k
  · subst h
    rw [AList.lookup_insert, if_pos rfl]
  · rw [AList.lookup_insert_ne h, if_neg h]

/-- Deletion, read at any key. -/
lemma lookup_erase' (t : Table κ ρ) (k k' : κ) :
    (t.erase k).lookup k' = if k' = k then none else t.lookup k' := by
  by_cases h : k' = k
  · subst h
    rw [AList.lookup_erase, if_pos rfl]
  · rw [AList.lookup_erase_ne h, if_neg h]

/-- The key of the first row that satisfies `p`. -/
def findKey (p : ρ → Bool) (t : Table κ ρ) : Option κ :=
  (t.entries.find? fun e => p e.2).map (·.1)

/-- The row that a search finds satisfies the condition. -/
lemma exists_of_findKey {p : ρ → Bool} {t : Table κ ρ} {i : κ} (h : t.findKey p = some i) :
    ∃ r, t.lookup i = some r ∧ p r = true := by
  obtain ⟨⟨i, r⟩, hfind, rfl⟩ := Option.map_eq_some_iff.mp h
  exact ⟨r, lookup_eq_some_iff.mpr (List.mem_of_find?_eq_some hfind),
    List.find?_some (p := fun e : Sigma fun _ : κ => ρ => p e.2) hfind⟩

/-- A search by a condition that at most one row satisfies. -/
lemma findKey_eq_some {p : ρ → Bool} {t : Table κ ρ} {i : κ}
    (hunique : ∀ j s, t.lookup j = some s → p s = true → j = i) :
    t.findKey p = some i ↔ ∃ r, t.lookup i = some r ∧ p r = true := by
  refine ⟨exists_of_findKey, ?_⟩
  rintro ⟨r, hr, hp⟩
  cases hfound : t.findKey p with
  | none =>
    have hnone := List.find?_eq_none.mp (Option.map_eq_none_iff.mp hfound) ⟨i, r⟩
      (lookup_eq_some_iff.mp hr)
    exact absurd hp hnone
  | some j =>
    obtain ⟨s, hs, hps⟩ := exists_of_findKey hfound
    exact congrArg some (hunique j s hs hps)

lemma findKey_eq_none {p : ρ → Bool} {t : Table κ ρ} :
    t.findKey p = none ↔ ∀ i r, t.lookup i = some r → p r = false := by
  rw [findKey, Option.map_eq_none_iff, List.find?_eq_none]
  constructor
  · intro h i r hr
    exact Bool.eq_false_of_not_eq_true (h ⟨i, r⟩ (lookup_eq_some_iff.mp hr))
  · rintro h ⟨i, r⟩ he hp
    rw [h i r (lookup_eq_some_iff.mpr he)] at hp
    cases hp

/-- The table that holds `f k` for every name `k` of a list. -/
def ofKeys (ks : List κ) (f : κ → ρ) : Table κ ρ :=
  (ks.map fun k => (⟨k, f k⟩ : Sigma fun _ : κ => ρ)).toAList

lemma lookup_ofKeys (ks : List κ) (f : κ → ρ) (k : κ) :
    (ofKeys ks f).lookup k = if k ∈ ks then some (f k) else none := by
  rw [ofKeys, AList.lookup_to_alist]
  induction ks with
  | nil => simp
  | cons a ks ih =>
    by_cases h : a = k
    · subst h
      simp
    · rw [List.map_cons, List.dlookup_cons_ne _ _ (Ne.symm h), ih]
      simp [List.mem_cons, Ne.symm h]

/-- A loop over the rows of `t` that updates, for each row, the entry of that key in a second
table: afterwards an entry has been updated once if `t` has its key, and is as before otherwise. -/
lemma foldl_update_lookup {σ : Type*} (t : Table κ ρ) (get : σ → κ → Option τ)
    (upd : σ → κ → ρ → σ) (g : κ → ρ → Option τ → Option τ)
    (hself : ∀ s k r, get (upd s k r) k = g k r (get s k))
    (hother : ∀ s k r k', k' ≠ k → get (upd s k r) k' = get s k') (s : σ) (k : κ) :
    get (t.entries.foldl (fun s e => upd s e.1 e.2) s) k =
      match t.lookup k with
      | some r => g k r (get s k)
      | none => get s k := by
  obtain ⟨entries, hnodup⟩ := t
  change _ = match List.dlookup k entries with
    | some r => g k r (get s k)
    | none => get s k
  induction entries generalizing s with
  | nil => simp
  | cons e entries ih =>
    obtain ⟨k', r⟩ := e
    rw [List.nodupKeys_cons] at hnodup
    rw [List.foldl_cons, ih _ hnodup.2]
    by_cases h : k = k'
    · subst h
      have hnone : List.dlookup k entries = none := List.dlookup_eq_none.mpr hnodup.1
      rw [hnone, List.dlookup_cons_eq]
      exact hself s k r
    · rw [List.dlookup_cons_ne _ _ h, hother s k' r k h]

/-! ### Rows under new keys -/

section Insertions

variable {α : Type*} (key : α → κ) (row : α → ρ)

/-- Insertions under other keys leave a key as it is. -/
lemma lookup_foldl_insert_of_not_mem {l : List α} {t : Table κ ρ} {k : κ}
    (h : ∀ a ∈ l, key a ≠ k) :
    (l.foldl (fun t a => t.insert (key a) (row a)) t).lookup k = t.lookup k := by
  induction l generalizing t with
  | nil => rfl
  | cons a l ih =>
    rw [List.foldl_cons, ih fun b hb => h b (List.mem_cons_of_mem _ hb),
      AList.lookup_insert_ne (h a List.mem_cons_self).symm]

/-- Insertions under different keys are all found. -/
lemma lookup_foldl_insert_of_mem {l : List α} {t : Table κ ρ} (hnodup : (l.map key).Nodup) {a : α}
    (ha : a ∈ l) :
    (l.foldl (fun t a => t.insert (key a) (row a)) t).lookup (key a) = some (row a) := by
  induction l generalizing t with
  | nil => cases ha
  | cons b l ih =>
    obtain ⟨hb, hnodup⟩ := List.nodup_cons.mp hnodup
    rw [List.foldl_cons]
    rcases List.mem_cons.mp ha with rfl | ha
    · have hlater : ∀ c ∈ l, key c ≠ key a := fun c hc heq =>
        hb (heq ▸ List.mem_map_of_mem hc)
      rw [lookup_foldl_insert_of_not_mem key row hlater, AList.lookup_insert]
    · exact ih hnodup ha

end Insertions

end Lookup

/-! ### Rows in the order of a key -/

/-- A row whose key is above all others comes last. -/
lemma orderedInsert_above {α : Type*} {le : α → α → Prop} [DecidableRel le] {a : α} :
    ∀ {l : List α}, (∀ b ∈ l, ¬le a b) → l.orderedInsert le a = l ++ [a]
  | [], _ => rfl
  | b :: l, h => by
    rw [List.orderedInsert, if_neg (h b List.mem_cons_self),
      orderedInsert_above fun c hc => h c (List.mem_cons_of_mem _ hc)]
    rfl

end Table
