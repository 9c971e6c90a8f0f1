import Mathlib.Data.List.Basic
import TuxBooks.Lib.Guarded

set_option relaxedAutoImplicit false
set_option autoImplicit false

/-!
# The relocates of the EPUB engine

`ReadiumEpubHandle` (`frontend/src/lib/epub/readiumEngine.ts`) reports where the reader is to its
relocate handlers. While a commanded jump is in flight the reports are held, and the last one is
dispatched when the stream goes quiet. Timers can fire in any order with everything else.

## Main definitions

* `TuxBooks.Readium.Relocates` — the fields of the handle that relocates go through.
* `TuxBooks.Readium.RelocateEvent`, `TuxBooks.Readium.Relocates.step` — what can happen to them.
* `TuxBooks.Readium.Relocates.Landed` — with no jump in flight the handlers know the place.
* `TuxBooks.Readium.Relocates.EventMeets` — the condition on an event.

## Main results

* `TuxBooks.Readium.landed_iff` — the runs that lose no landing.
* `TuxBooks.Readium.superseded_landing_lost` — a jump to the place that is already shown.
-/

namespace TuxBooks

namespace Readium

/-! ## The fields and their functions -/

/-- What the handlers get: the serialized locator, and what the shell shows of its place (the
fraction, the section, the total progression and the label). -/
structure EpubRelocateDetail (ℓ π : Type) where
  locator : ℓ
  place : π
  deriving DecidableEq

/-- A hold of relocates, with the timer that ends it. -/
structure JumpHold (ℓ π : Type) where
  events : List (EpubRelocateDetail ℓ π) := []
  timer : ℕ

/-- The part of the handle that relocates go through. -/
structure Relocates (ℓ π : Type) where
  currentLocator : Option ℓ := none
  relocateCount : ℕ := 0
  relocateHandlers : List ℕ := []
  jumpHold : Option (JumpHold ℓ π) := none
  /-- The window's timers that are set, and the next one. -/
  timers : List ℕ := []
  nextTimer : ℕ := 0
  /-- The relocates that went to the handlers, the last one first. -/
  dispatched : List (EpubRelocateDetail ℓ π) := []

namespace Relocates

variable {ℓ π : Type}

/-- `window.clearTimeout`. -/
def clearTimeout (h : Relocates ℓ π) (timer : ℕ) : Relocates ℓ π :=
  { h with timers := h.timers.filter (· ≠ timer) }

/-- `window.setTimeout`: the new timer is `nextTimer`. -/
def setTimeout (h : Relocates ℓ π) : Relocates ℓ π :=
  { h with timers := h.nextTimer :: h.timers, nextTimer := h.nextTimer + 1 }

def dispatchRelocate (h : Relocates ℓ π) (detail : EpubRelocateDetail ℓ π) : Relocates ℓ π :=
  if h.relocateHandlers = [] then h else { h with dispatched := detail :: h.dispatched }

variable (describe : ℓ → π)

/-- The navigator reports a place. A jump in flight holds the report and waits for the next one. -/
def handlePositionChanged (h : Relocates ℓ π) (locator : ℓ) : Relocates ℓ π :=
  let h := { h with currentLocator := some locator, relocateCount := h.relocateCount + 1 }
  let detail : EpubRelocateDetail ℓ π := { locator, place := describe locator }
  match h.jumpHold with
  | some hold =>
    { (h.clearTimeout hold.timer).setTimeout with
      jumpHold := some { events := hold.events ++ [detail], timer := h.nextTimer } }
  | none => h.dispatchRelocate detail

/-- A newer jump supersedes an unsettled hold, whose events are dropped. -/
def armJumpHold (h : Relocates ℓ π) : Relocates ℓ π :=
  let h := match h.jumpHold with
    | some hold => h.clearTimeout hold.timer
    | none => h
  { h.setTimeout with jumpHold := some { timer := h.nextTimer } }

def flushJumpHold (h : Relocates ℓ π) : Relocates ℓ π :=
  match h.jumpHold with
  | none => h
  | some hold =>
    let h := { h with jumpHold := none }.clearTimeout hold.timer
    match hold.events.getLast? with
    | some last => h.dispatchRelocate last
    | none => h

/-- A timer fires: the quiet one of a hold or the one that bounds it. -/
def fire (h : Relocates ℓ π) (timer : ℕ) : Relocates ℓ π :=
  if timer ∈ h.timers then (h.clearTimeout timer).flushJumpHold else h

/-- What `close` does to the relocates. -/
def closeRelocates (h : Relocates ℓ π) : Relocates ℓ π :=
  let h := match h.jumpHold with
    | some hold => { h.clearTimeout hold.timer with jumpHold := none }
    | none => h
  { h with relocateHandlers := [] }

def onRelocate (h : Relocates ℓ π) (handler : ℕ) : Relocates ℓ π :=
  if handler ∈ h.relocateHandlers then h
  else { h with relocateHandlers := h.relocateHandlers ++ [handler] }

/-- The function that `onRelocate` returned. -/
def offRelocate (h : Relocates ℓ π) (handler : ℕ) : Relocates ℓ π :=
  { h with relocateHandlers := h.relocateHandlers.filter (· ≠ handler) }

end Relocates

/-- What can happen: a handler comes or goes, a command of the goTo family reaches the navigator,
the navigator reports a place, a timer fires, the reader closes. -/
inductive RelocateEvent (ℓ : Type) where
  | onRelocate (handler : ℕ)
  | offRelocate (handler : ℕ)
  | jump
  | positionChanged (locator : ℓ)
  | fire (timer : ℕ)
  | close

namespace Relocates

variable {ℓ π : Type} (describe : ℓ → π)

def step (h : Relocates ℓ π) : RelocateEvent ℓ → Relocates ℓ π
  | .onRelocate handler => h.onRelocate handler
  | .offRelocate handler => h.offRelocate handler
  | .jump => h.armJumpHold
  | .positionChanged locator => h.handlePositionChanged describe locator
  | .fire timer => h.fire timer
  | .close => h.closeRelocates

/-! ## What the handlers know -/

/-- The place that the handlers were told last. -/
def shown (h : Relocates ℓ π) : Option ℓ := h.dispatched.head?.map (·.locator)

/-- **No landing is lost**: with no hold armed the handlers were told the last place that the
navigator reported. -/
def Landed (h : Relocates ℓ π) : Prop := h.jumpHold = none → h.shown = h.currentLocator

/-- The hold has a landing for handlers that listen. -/
def HasLanding (h : Relocates ℓ π) : Prop :=
  (∃ hold, h.jumpHold = some hold ∧ hold.events ≠ []) ∧ h.relocateHandlers ≠ []

/-- The condition on an event. A report outside of a jump finds a handler, unless it tells nothing
new. A hold ends with a landing in it, and not with `close`, unless the handlers know the place. -/
def EventMeets (h : Relocates ℓ π) : RelocateEvent ℓ → Prop
  | .positionChanged locator =>
    h.jumpHold ≠ none ∨ h.relocateHandlers ≠ [] ∨ h.shown = some locator
  | .fire timer => timer ∈ h.timers → h.HasLanding ∨ h.shown = h.currentLocator
  | .close => h.jumpHold = none ∨ h.shown = h.currentLocator
  | _ => True

/-- The invariant of the runs that meet the condition. The only timer is that of the hold, and the
last report of a hold is the place on screen. -/
structure Sound (h : Relocates ℓ π) : Prop where
  timers : h.timers = (h.jumpHold.map (·.timer)).toList
  held : ∀ hold, h.jumpHold = some hold → ∀ last, hold.events.getLast? = some last →
    h.currentLocator = some last.locator
  landed : h.Landed

variable {h : Relocates ℓ π}

/-- A dispatch leaves the hold, its timer and the place as they are. -/
lemma dispatchRelocate_fields (detail : EpubRelocateDetail ℓ π) :
    (h.dispatchRelocate detail).jumpHold = h.jumpHold ∧
    (h.dispatchRelocate detail).timers = h.timers ∧
    (h.dispatchRelocate detail).currentLocator = h.currentLocator := by
  unfold dispatchRelocate
  split_ifs <;> exact ⟨rfl, rfl, rfl⟩

/-- The handlers hear of a dispatch if there are any. -/
lemma shown_dispatchRelocate (detail : EpubRelocateDetail ℓ π) :
    (h.dispatchRelocate detail).shown =
      if h.relocateHandlers = [] then h.shown else some detail.locator := by
  unfold dispatchRelocate
  split_ifs <;> rfl

/-- A dispatch of the place with no hold armed. -/
lemma Sound.dispatch {detail : EpubRelocateDetail ℓ π} (htimers : h.timers = [])
    (hhold : h.jumpHold = none) (hplace : h.currentLocator = some detail.locator)
    (hlisten : h.relocateHandlers ≠ [] ∨ h.shown = some detail.locator) :
    (h.dispatchRelocate detail).Sound := by
  obtain ⟨hhold', htimers', hplace'⟩ := h.dispatchRelocate_fields detail
  refine ⟨?_, ?_, fun _ => ?_⟩
  · rw [htimers', hhold', htimers, hhold]
    rfl
  · rw [hhold', hhold]
    exact fun _ hnone => absurd hnone (by simp)
  · rw [shown_dispatchRelocate, hplace', hplace]
    split_ifs with hdeaf
    · exact hlisten.resolve_left (fun h => h hdeaf)
    · rfl

namespace Sound

/-- Handlers come and go. -/
lemma setHandlers (hs : h.Sound) (handlers : List ℕ) :
    Sound { h with relocateHandlers := handlers } :=
  ⟨hs.timers, hs.held, hs.landed⟩

/-- Without a hold no timer is set. -/
lemma timers_none (hs : h.Sound) (hhold : h.jumpHold = none) : h.timers = [] := by
  rw [hs.timers, hhold]
  rfl

/-- The timer of the hold is the only one. -/
lemma timers_some (hs : h.Sound) {hold : JumpHold ℓ π} (hhold : h.jumpHold = some hold) :
    h.timers = [hold.timer] := by
  rw [hs.timers, hhold]
  rfl

lemma armJumpHold (hs : h.Sound) : h.armJumpHold.Sound := by
  have htimers : h.armJumpHold.timers = [h.nextTimer] := by
    cases hhold : h.jumpHold with
    | none => simp [Relocates.armJumpHold, hhold, setTimeout, hs.timers_none hhold]
    | some hold =>
      simp [Relocates.armJumpHold, hhold, setTimeout, clearTimeout, hs.timers_some hhold]
  have hhold : h.armJumpHold.jumpHold = some { timer := h.nextTimer } := by
    unfold Relocates.armJumpHold
    cases h.jumpHold <;> rfl
  refine ⟨?_, fun hold hsome last hlast => ?_, fun hnone => ?_⟩
  · rw [htimers, hhold]
    rfl
  · rw [hhold, Option.some.injEq] at hsome
    rw [← hsome] at hlast
    exact absurd hlast (by simp)
  · exact absurd (hhold.symm.trans hnone) (by simp)

lemma handlePositionChanged (hs : h.Sound) (describe : ℓ → π) (locator : ℓ)
    (hok : h.EventMeets (.positionChanged locator)) :
    (h.handlePositionChanged describe locator).Sound := by
  unfold Relocates.handlePositionChanged
  dsimp only
  cases hhold : h.jumpHold with
  | none =>
    exact Sound.dispatch (hs.timers_none hhold) rfl rfl (hok.resolve_left fun hne => hne hhold)
  | some hold =>
    dsimp only
    refine ⟨?_, ?_, fun hnone => absurd hnone (by simp)⟩
    · simp [setTimeout, clearTimeout, hs.timers_some hhold]
    · rintro _ ⟨⟩ last hlast
      rw [List.getLast?_concat, Option.some.injEq] at hlast
      rw [← hlast]
      rfl

lemma fire (hs : h.Sound) (timer : ℕ) (hok : h.EventMeets (.fire timer)) :
    (h.fire timer).Sound := by
  unfold Relocates.fire
  split_ifs with htimer
  swap
  · exact hs
  specialize hok htimer
  cases hhold : h.jumpHold with
  | none =>
    rw [hs.timers, hhold] at htimer
    exact absurd htimer List.not_mem_nil
  | some hold =>
    unfold flushJumpHold
    simp only [clearTimeout, hhold]
    have hnone : (h.timers.filter (· ≠ timer)).filter (· ≠ hold.timer) = [] := by
      simp [hs.timers_some hhold]
    cases hlast : hold.events.getLast? with
    | some last =>
      refine Sound.dispatch hnone rfl (hs.held hold hhold last hlast) ?_
      rcases hok with hlanding | hshown
      · exact .inl hlanding.2
      · exact .inr (hshown.trans (hs.held hold hhold last hlast))
    | none =>
      refine ⟨hnone, fun _ h => absurd h (by simp), fun _ => ?_⟩
      rcases hok with ⟨⟨hold', hhold', hne⟩, -⟩ | hshown
      · rw [hhold, Option.some.injEq] at hhold'
        rw [hhold'] at hlast
        exact absurd (List.getLast?_eq_none_iff.mp hlast) hne
      · exact hshown

lemma closeRelocates (hs : h.Sound) (hok : h.EventMeets .close) : h.closeRelocates.Sound := by
  unfold Relocates.closeRelocates
  cases hhold : h.jumpHold with
  | none => exact hs.setHandlers []
  | some hold =>
    have hnone : (h.clearTimeout hold.timer).timers = [] := by
      simp [clearTimeout, hs.timers_some hhold]
    exact ⟨hnone, fun _ h => absurd h (by simp),
      fun _ => hok.resolve_left (by simp [hhold])⟩

/-- **An event under the condition keeps the invariant.** -/
theorem step (hs : h.Sound) (describe : ℓ → π) (event : RelocateEvent ℓ)
    (hok : h.EventMeets event) : (h.step describe event).Sound := by
  cases event with
  | onRelocate handler =>
    change (h.onRelocate handler).Sound
    unfold Relocates.onRelocate
    split_ifs
    · exact hs
    · exact hs.setHandlers _
  | offRelocate handler => exact hs.setHandlers _
  | jump => exact hs.armJumpHold
  | positionChanged locator => exact hs.handlePositionChanged describe locator hok
  | fire timer => exact hs.fire timer hok
  | close => exact hs.closeRelocates hok

end Sound

/-- **An event against the condition loses a landing.** -/
theorem not_landed_step (hs : h.Sound) (describe : ℓ → π) (event : RelocateEvent ℓ)
    (hok : ¬h.EventMeets event) : ¬(h.step describe event).Landed := by
  cases event with
  | positionChanged locator =>
    obtain ⟨hhold, hrest⟩ := not_or.mp hok
    obtain ⟨hdeaf, hnew⟩ := not_or.mp hrest
    rw [Classical.not_not] at hhold hdeaf
    have hkept : h.step describe (.positionChanged locator) =
        { h with currentLocator := some locator, relocateCount := h.relocateCount + 1 } := by
      simp [step, handlePositionChanged, hhold, dispatchRelocate, hdeaf]
    rw [hkept]
    exact fun hlanded => hnew (hlanded hhold)
  | fire timer =>
    obtain ⟨htimer, hrest⟩ := Classical.not_imp.mp hok
    obtain ⟨hempty, hnew⟩ := not_or.mp hrest
    have hfire : h.step describe (.fire timer) = (h.clearTimeout timer).flushJumpHold :=
      if_pos htimer
    rw [hfire]
    cases hhold : h.jumpHold with
    | none =>
      rw [hs.timers_none hhold] at htimer
      exact absurd htimer List.not_mem_nil
    | some hold =>
      unfold flushJumpHold
      simp only [clearTimeout, hhold]
      cases hlast : hold.events.getLast? with
      | none => exact fun hlanded => hnew (hlanded rfl)
      | some last =>
        have hdeaf : h.relocateHandlers = [] := by
          by_contra hlisten
          refine hempty ⟨⟨hold, hhold, fun hnil => ?_⟩, hlisten⟩
          simp [hnil] at hlast
        simp only [dispatchRelocate, hdeaf, if_true]
        exact fun hlanded => hnew (hlanded rfl)
  | close =>
    obtain ⟨hhold, hnew⟩ := not_or.mp hok
    intro hlanded
    change h.closeRelocates.Landed at hlanded
    unfold closeRelocates at hlanded
    cases hsome : h.jumpHold with
    | none => exact hhold hsome
    | some hold =>
      rw [hsome] at hlanded
      exact hnew (hlanded rfl)
  | _ => exact absurd trivial hok

end Relocates

/-- A handle that nothing has happened to. -/
def opened (ℓ π : Type) : Relocates ℓ π := {}

/-- **Exactly these runs lose no landing**: those in which every report outside of a jump finds a
handler, and in which a hold ends only when it has a landing or the handlers know the place. -/
theorem landed_iff {ℓ π : Type} (describe : ℓ → π) (events : List (RelocateEvent ℓ)) :
    (∀ before, before <+: events → (before.foldl (Relocates.step describe) (opened ℓ π)).Landed) ↔
      Guarded.Meets (Relocates.step describe) Relocates.EventMeets (opened ℓ π) events :=
  (Guarded.meets_iff_always (fun _ event hs hok => hs.step describe event hok)
    (fun _ hs => hs.landed) (fun _ event hs hok => Relocates.not_landed_step hs describe event hok)
    ⟨rfl, fun _ hsome => absurd hsome (by simp [opened]), fun _ => rfl⟩).symm

/-- A jump to another section reports its anchor, 40, and its landing, 42. The next jump goes to
the place that is shown, and the navigator has nothing to report. -/
def jumpedTwice : List (RelocateEvent ℕ) :=
  [.onRelocate 0, .positionChanged 7, .jump, .positionChanged 40, .positionChanged 42, .jump,
    .fire 3]

/-- **The landing of a superseded jump is lost.** The place on screen is 42, and the handlers were
told 7. -/
theorem superseded_landing_lost :
    (jumpedTwice.foldl (Relocates.step id) (opened ℕ ℕ)).currentLocator = some 42 ∧
    (jumpedTwice.foldl (Relocates.step id) (opened ℕ ℕ)).shown = some 7 ∧
    ¬(jumpedTwice.foldl (Relocates.step id) (opened ℕ ℕ)).Landed :=
  ⟨by decide, by decide, fun hlanded => absurd (hlanded (by decide)) (by decide)⟩

end Readium
end TuxBooks
