import Mathlib.Order.Basic
import Mathlib.Tactic.Common

set_option relaxedAutoImplicit false
set_option autoImplicit false

/-!
# The last index with a property, by bisection

A loop that halves a range of indices and keeps the last index at which it has seen the property.
It finds the last one when the property holds of all indices up to some one and of none after it.

## Main definitions

* `Bisect.search` — the loop, over the indices from `low` and before `bound`.

## Main results

* `Bisect.search_eq` — it finds the last index with the property.
-/

namespace Bisect

variable (p : ℕ → Bool)

def search (low bound candidate : ℕ) : ℕ :=
  if low < bound then
    let mid := (low + (bound - 1)) / 2
    if p mid = true then search (mid + 1) bound mid else search low mid candidate
  else candidate
termination_by bound - low

variable {p}

/-- The last index is never left behind, and it is the candidate when the range is empty. -/
lemma search_range {k n : ℕ} (hbelow : ∀ i ≤ k, p i = true)
    (habove : ∀ i, k < i → i < n → p i = false) (low bound candidate : ℕ) (hlow : low ≤ k + 1)
    (hbound : k < bound) (hn : bound ≤ n) (hcandidate : low = k + 1 → candidate = k) :
    search p low bound candidate = k := by
  induction low, bound, candidate using search.induct p with
  | case1 low bound candidate hlt mid hmid ih =>
    have hle : mid ≤ k := by
      by_contra hgt
      have hfalse := habove mid (by omega) (by omega)
      rw [hmid] at hfalse
      cases hfalse
    rw [search, if_pos hlt]
    simp only [mid] at hmid ih hle
    simp only [hmid, if_true]
    exact ih (by omega) hbound hn (by omega)
  | case2 low bound candidate hlt mid hmid ih =>
    have hgt : k < mid := by
      by_contra hle
      exact hmid (hbelow mid (by omega))
    rw [search, if_pos hlt]
    simp only [mid] at hmid ih hgt
    simp only [hmid]
    exact ih hlow hgt (by omega) hcandidate
  | case3 low bound candidate hlt =>
    rw [search, if_neg hlt]
    exact hcandidate (by omega)

/-- **The last index with the property is found.** -/
theorem search_eq {k n : ℕ} (hbelow : ∀ i ≤ k, p i = true)
    (habove : ∀ i, k < i → i < n → p i = false) (hk : k < n) : search p 0 n 0 = k :=
  search_range hbelow habove 0 n 0 (by omega) hk (Nat.le_refl n) (by omega)

end Bisect
