import TuxBooks.Lib.Table

set_option relaxedAutoImplicit false
set_option autoImplicit false

/-!
# Caches that keep what was used last

A table of at most some number of entries, the one used last first. An insertion-ordered map that
deletes an entry before it sets it again has the same entries in the opposite order.

## Main definitions

* `LruCache.put` — a new entry, in the place of the oldest ones past the bound.
* `LruCache.All` — a property of every entry.

## Main results

* `LruCache.All.insert`, `LruCache.All.put` — what holds of the new entry and of the old ones holds
  of the cache.
* `LruCache.length_put_le`, `LruCache.length_insert_of_lookup` — the bound.
-/

/-- A table whose entries are ordered by their last use. -/
abbrev LruCache (κ ν : Type*) := Table κ ν

namespace LruCache

variable {κ ν : Type*} [DecidableEq κ]

/-- The newest `n` entries. -/
def newest (n : ℕ) (cache : LruCache κ ν) : LruCache κ ν where
  entries := cache.entries.take n
  nodupKeys := cache.nodupKeys.sublist (List.take_sublist n _)

/-- A new entry, after which the oldest ones past the bound are dropped. -/
def put (n : ℕ) (key : κ) (value : ν) (cache : LruCache κ ν) : LruCache κ ν :=
  newest n (cache.insert key value)

/-- A property of every entry. -/
def All (P : κ → ν → Prop) (cache : LruCache κ ν) : Prop :=
  ∀ key value, cache.lookup key = some value → P key value

variable {P : κ → ν → Prop} {cache : LruCache κ ν} {n : ℕ} {key : κ} {value : ν}

lemma All.empty : All P (∅ : LruCache κ ν) := by
  intro key value h
  simp at h

/-- What holds of the new entry and of the old ones holds of the cache. -/
theorem All.insert (h : All P cache) (hvalue : P key value) : All P (cache.insert key value) := by
  intro k v hlookup
  by_cases hk : k = key
  · subst hk
    rw [AList.lookup_insert, Option.some.injEq] at hlookup
    exact hlookup ▸ hvalue
  · rw [AList.lookup_insert_ne hk] at hlookup
    exact h k v hlookup

lemma All.newest (h : All P cache) : All P (newest n cache) := by
  intro k v hlookup
  apply h
  rw [← Option.mem_def, AList.mem_lookup_iff] at hlookup ⊢
  exact List.mem_of_mem_take hlookup

theorem All.put (h : All P cache) (hvalue : P key value) : All P (put n key value cache) :=
  (h.insert hvalue).newest

/-- The cache is within its bound after every new entry. -/
theorem length_put_le : (put n key value cache).entries.length ≤ n :=
  List.length_take_le _ _

/-- To use an entry again changes no number. -/
theorem length_insert_of_lookup (h : cache.lookup key = some value) :
    (cache.insert key value).entries.length = cache.entries.length := by
  have hmem : key ∈ cache.entries.keys := AList.lookup_isSome.mp (by rw [h]; rfl)
  obtain ⟨value', before, after, -, hentries, hrest⟩ := List.exists_of_kerase hmem
  rw [AList.entries_insert, hrest, hentries]
  simp
  omega

end LruCache
