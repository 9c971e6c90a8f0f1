import Mathlib.Data.List.Basic

set_option relaxedAutoImplicit false
set_option autoImplicit false

/-!
# Runs whose steps meet a condition

A state machine with a total step function and a condition on the state before a step. An
invariant that every step under the condition keeps holds in every state of a run that meets it.

## Main definitions

* `Guarded.Meets` — every step of a run meets the condition.

## Main results

* `Guarded.Meets.invariant` — the induction over a run, once for every machine.
* `Guarded.meets_iff_always` — runs under an exact condition.
-/

namespace Guarded

variable {σ ε : Type*} {step : σ → ε → σ} {ok : σ → ε → Prop} {s : σ} {events : List ε}

/-- Every step of the run from `s` meets `ok` in the state before it. -/
def Meets (step : σ → ε → σ) (ok : σ → ε → Prop) : σ → List ε → Prop
  | _, [] => True
  | s, event :: events => ok s event ∧ Meets step ok (step s event) events

instance decidableMeets (step : σ → ε → σ) (ok : σ → ε → Prop)
    [∀ s event, Decidable (ok s event)] : ∀ s events, Decidable (Meets step ok s events)
  | _, [] => isTrue trivial
  | s, event :: events =>
    have := decidableMeets step ok (step s event) events
    inferInstanceAs (Decidable (_ ∧ _))

/-- A run that meets two conditions. -/
lemma Meets.and {ok' : σ → ε → Prop} (h : Meets step ok s events) (h' : Meets step ok' s events) :
    Meets step (fun s event => ok s event ∧ ok' s event) s events := by
  induction events generalizing s with
  | nil => trivial
  | cons event events ih => exact ⟨⟨h.1, h'.1⟩, ih h.2 h'.2⟩

/-- A run that meets the condition can be cut in two. -/
lemma Meets.of_append {events' : List ε} (h : Meets step ok s (events ++ events')) :
    Meets step ok s events := by
  induction events generalizing s with
  | nil => trivial
  | cons event events ih => exact ⟨h.1, ih h.2⟩

/-- **The invariant rule.** What every step under the condition keeps holds after the run. -/
theorem Meets.invariant {inv : σ → Prop}
    (hstep : ∀ s event, inv s → ok s event → inv (step s event)) (hs : inv s)
    (h : Meets step ok s events) : inv (events.foldl step s) := by
  induction events generalizing s with
  | nil => exact hs
  | cons event events ih => exact ih (hstep s event hs h.1) h.2

/-- **The exact condition.** If a step under the condition keeps an invariant that gives `P`, and a
step against it breaks `P`, then the runs under the condition are those on which `P` always
holds. -/
theorem meets_iff_always {inv P : σ → Prop}
    (hstep : ∀ s event, inv s → ok s event → inv (step s event)) (hP : ∀ s, inv s → P s)
    (hbreak : ∀ s event, inv s → ¬ok s event → ¬P (step s event)) (hs : inv s) :
    Meets step ok s events ↔ ∀ before, before <+: events → P (before.foldl step s) := by
  constructor
  · rintro h before ⟨after, rfl⟩
    exact hP _ (h.of_append.invariant hstep hs)
  · intro h
    induction events generalizing s with
    | nil => trivial
    | cons event events ih =>
      have hok : ok s event := by
        by_contra hnot
        exact hbreak s event hs hnot (h [event] ⟨events, rfl⟩)
      refine ⟨hok, ih (hstep s event hs hok) fun before hbefore => ?_⟩
      exact h (event :: before) (List.prefix_cons_inj event |>.mpr hbefore)

end Guarded
