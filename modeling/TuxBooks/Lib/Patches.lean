import Mathlib.Data.List.Basic
import Mathlib.Logic.Function.Basic

set_option relaxedAutoImplicit false
set_option autoImplicit false

/-!
# Changes to keyed views

A view gives the value at every key, and a patch sets one key. Views that are patched in the same
order agree at every key that a patch sets, so patches that a view already has do no harm as long
as all later ones follow.

## Main definitions

* `Patch`, `Patch.apply`, `Patch.applyAll` — a change, and several in order.

## Main results

* `Patch.applyAll_of_untouched`, `Patch.applyAll_of_touched` — the value at one key.
* `Patch.applyAll_again` — patches that are applied once more with all that follow them.
-/

/-- One key is set to a value, or to none. -/
structure Patch (κ ν : Type*) where
  key : κ
  value : Option ν

namespace Patch

variable {κ ν : Type*} [DecidableEq κ]

def apply (view : κ → Option ν) (p : Patch κ ν) : κ → Option ν :=
  Function.update view p.key p.value

def applyAll (view : κ → Option ν) (ps : List (Patch κ ν)) : κ → Option ν := ps.foldl apply view

@[simp] lemma applyAll_nil (view : κ → Option ν) : applyAll view [] = view := rfl

lemma applyAll_append (view : κ → Option ν) (ps qs : List (Patch κ ν)) :
    applyAll view (ps ++ qs) = applyAll (applyAll view ps) qs :=
  List.foldl_append

lemma applyAll_concat (view : κ → Option ν) (ps : List (Patch κ ν)) (p : Patch κ ν) :
    applyAll view (ps ++ [p]) = apply (applyAll view ps) p :=
  applyAll_append view ps [p]

/-- A key that no patch sets keeps its value. -/
lemma applyAll_of_untouched {view : κ → Option ν} {ps : List (Patch κ ν)} {k : κ}
    (h : ∀ p ∈ ps, p.key ≠ k) : applyAll view ps k = view k := by
  induction ps generalizing view with
  | nil => rfl
  | cons p ps ih =>
    have hp := h p List.mem_cons_self
    rw [applyAll, List.foldl_cons, ← applyAll, ih fun q hq => h q (List.mem_cons_of_mem p hq),
      apply, Function.update_of_ne hp.symm]

/-- A key that a patch sets has the same value over every view. -/
lemma applyAll_of_touched {ps : List (Patch κ ν)} {k : κ} (h : ∃ p ∈ ps, p.key = k)
    (view view' : κ → Option ν) : applyAll view ps k = applyAll view' ps k := by
  induction ps generalizing view view' with
  | nil => simp at h
  | cons p ps ih =>
    by_cases hlater : ∃ q ∈ ps, q.key = k
    · exact ih hlater _ _
    · have huntouched : ∀ q ∈ ps, q.key ≠ k := fun q hq heq => hlater ⟨q, hq, heq⟩
      obtain ⟨q, hq, hk⟩ := h
      obtain rfl | hq := List.mem_cons.mp hq
      · have hset (f : κ → Option ν) : applyAll f (q :: ps) k = q.value := by
          rw [applyAll, List.foldl_cons, ← applyAll, applyAll_of_untouched huntouched, apply, ← hk,
            Function.update_self]
        rw [hset, hset]
      · exact absurd hk (huntouched q hq)

/-- **Patches that a view already has** do no harm when all later ones follow them. -/
theorem applyAll_again (view : κ → Option ν) (ps qs : List (Patch κ ν)) :
    applyAll (applyAll view ps) (ps ++ qs) = applyAll view (ps ++ qs) := by
  funext k
  by_cases htouched : ∃ p ∈ ps ++ qs, p.key = k
  · exact applyAll_of_touched htouched _ _
  · have huntouched : ∀ p ∈ ps ++ qs, p.key ≠ k := fun p hp heq => htouched ⟨p, hp, heq⟩
    rw [applyAll_of_untouched huntouched, applyAll_of_untouched huntouched,
      applyAll_of_untouched fun p hp => huntouched p (List.mem_append_left qs hp)]

end Patch
