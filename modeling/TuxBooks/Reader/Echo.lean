import Mathlib.Algebra.Order.Field.Rat
import Mathlib.Algebra.Order.Group.Unbundled.Abs
import Mathlib.Tactic.Linarith
import TuxBooks.Lib.Guarded
import TuxBooks.Reader.Position

set_option relaxedAutoImplicit false
set_option autoImplicit false

/-!
# The position echo of the EPUB reader

The shell and the EPUB reader share a position in percent (`frontend/src/state/ReaderProvider.tsx`).
A relocate of the engine sets it, and so do the slider, Home, End and bookmarks. The position effect
of `frontend/src/components/reader/EpubReader.tsx` sends the engine to a committed position, unless
it is the echo of the last relocate.

An update of the position waits for React to commit it, and the effect of a commit runs later, at
the latest before the next commit. Positions are rational numbers in place of floats.

## Main definitions

* `TuxBooks.EpubReader.View` — the shared position and the refs of the reader.
* `TuxBooks.EpubReader.Event`, `TuxBooks.EpubReader.step` — what can happen to them.
* `TuxBooks.EpubReader.Exact` — the engine is sent exactly where an outside change says.
* `TuxBooks.EpubReader.EventMeets` — the condition on an event.

## Main results

* `TuxBooks.EpubReader.exact_iff` — the runs on which the guard is exact.
* `TuxBooks.EpubReader.late_effect_jumps_back` — two relocates around one commit.
-/

namespace TuxBooks

namespace EpubReader

/-! ## The view -/

/-- Where a position comes from. An outside change is a command when it differs from the place that
is shown. -/
inductive Source where
  | relocate
  | command
  | other
  deriving DecidableEq

structure Position where
  value : ℚ
  source : Source
  deriving DecidableEq

structure View where
  /-- The committed `interactive`, and the update that `setRestored(true)` makes. -/
  interactive : Bool := false
  restored : Bool := false
  /-- The committed position, and the update that waits for a commit. -/
  position : Position := { value := 0, source := .other }
  queued : Option Position := none
  /-- The position effect of the last commit has not run. -/
  effect : Bool := false
  reportedFractionRef : Option ℚ := none
  previousPositionRef : ℚ := 0
  /-- The outside changes that differed from the place shown, and the calls of
  `goToTotalProgression`, the oldest first. -/
  commands : List ℚ := []
  calls : List Position := []

namespace View

/-- The position that the next update is compared with. -/
def latest (v : View) : Position := v.queued.getD v.position

/-- `setPosition`: React drops an update that changes nothing. -/
def setPosition (v : View) (percentage : ℚ) (source : Source) : View :=
  if clampPercent percentage = v.latest.value then v
  else { v with queued := some { value := clampPercent percentage, source } }

/-- `handleRelocate`. The engine has clamped the progression that it reports. -/
def handleRelocate (v : View) (fraction : ℚ) : View :=
  { v with reportedFractionRef := some (clamp01 fraction) }.setPosition
    (clamp01 fraction * 100) .relocate

/-- A position that is not the place that the engine reported last. -/
def Differs (v : View) (value : ℚ) : Prop :=
  ∀ reported ∈ v.reportedFractionRef, value ≠ reported * 100

instance (v : View) (value : ℚ) : Decidable (v.Differs value) :=
  inferInstanceAs (Decidable (∀ reported ∈ v.reportedFractionRef, value ≠ reported * 100))

/-- The slider, Home, End or a bookmark sets the position. -/
def outside (v : View) (percentage : ℚ) : View :=
  let value := clampPercent percentage
  if value = v.latest.value then v
  else if v.Differs value then
    { v.setPosition percentage .command with commands := v.commands ++ [value] }
  else v.setPosition percentage .other

/-- The guard of the effect. -/
def IsEcho (v : View) (value : ℚ) : Prop :=
  ∃ reported ∈ v.reportedFractionRef, |value - reported * 100| < 1 / 1000000

instance (v : View) (value : ℚ) : Decidable (v.IsEcho value) :=
  inferInstanceAs (Decidable (∃ reported ∈ v.reportedFractionRef, _ < _))

/-- The body of the position effect. -/
def positionEffect (v : View) : View :=
  if v.interactive = false then v
  else if v.previousPositionRef = v.position.value then v
  else
    let v := { v with previousPositionRef := v.position.value }
    if v.IsEcho v.position.value then v else { v with calls := v.calls ++ [v.position] }

/-- The effect of the last commit runs if it has not. -/
def flushEffects (v : View) : View :=
  if v.effect then { v.positionEffect with effect := false } else v

/-- The updates are committed, and the position effect is to run again if one of its dependencies
has changed. -/
def commitUpdates (v : View) : View :=
  { v with
    position := v.latest
    queued := none
    interactive := v.interactive || v.restored
    effect := v.latest.value ≠ v.position.value || (v.restored && !v.interactive) }

/-- React renders and commits. The effects of the commit before run first. -/
def commit (v : View) : View := v.flushEffects.commitUpdates

end View

inductive Event where
  | relocate (fraction : ℚ)
  | outside (percentage : ℚ)
  | restore
  | commit
  | effects

def step (v : View) : Event → View
  | .relocate fraction => v.handleRelocate fraction
  | .outside percentage => v.outside percentage
  | .restore => { v with restored := true }
  | .commit => v.commit
  | .effects => v.flushEffects

/-! ## The guard is exact -/

namespace View

/-- The committed position is a command that no effect of an interactive reader has seen. -/
def Unseen (v : View) : Prop :=
  v.position.source = .command ∧ (v.effect = true ∨ v.interactive = false)

instance (v : View) : Decidable v.Unseen := inferInstanceAs (Decidable (_ ∧ _))

/-- The commands that wait for a commit. -/
def queuedCommands (v : View) : List ℚ :=
  (v.queued.toList.filter (·.source = .command)).map (·.value)

/-- The commands that wait for their effect or for a commit. -/
def waiting (v : View) : List ℚ :=
  (if v.Unseen then [v.position.value] else []) ++ v.queuedCommands

/-- The calls that answer a command. -/
def answered (v : View) : List ℚ := (v.calls.filter (·.source = .command)).map (·.value)

end View

/-- **The guard is exact**: no call comes from a relocate, and every outside change that differed
from the place shown made its call, or still waits for its effect. -/
structure Exact (v : View) : Prop where
  echoes : ∀ call ∈ v.calls, call.source ≠ .relocate
  commands : v.commands = v.answered ++ v.waiting

/-- No command waits for a commit that a new value would replace. -/
def SetMeets (v : View) (percentage : ℚ) : Prop :=
  clampPercent percentage = v.latest.value ∨ ∀ queued ∈ v.queued, queued.source ≠ .command

/-- When the effect runs in an interactive reader, a position of a relocate is still the one that
was reported last, and a command is neither that nor the position that the effect saw last. -/
def EffectMeets (v : View) : Prop :=
  v.effect = true → v.interactive = true →
    match v.position.source with
    | .relocate => v.previousPositionRef = v.position.value ∨ v.IsEcho v.position.value
    | .command => v.previousPositionRef ≠ v.position.value ∧ ¬v.IsEcho v.position.value
    | .other => True

/-- A commit neither replaces a command that no effect has seen nor repeats the committed position
for a command. -/
def CommitMeets (v : View) : Prop :=
  ∀ queued ∈ v.queued, (v.interactive = true ∨ v.position.source ≠ .command) ∧
    (queued.source = .command → queued.value ≠ v.position.value ∨ v.interactive = false)

/-- The condition on an event. -/
def EventMeets (v : View) : Event → Prop
  | .relocate fraction => SetMeets v (clamp01 fraction * 100)
  | .outside percentage => SetMeets v percentage
  | .restore => True
  | .commit => EffectMeets v ∧ CommitMeets v.flushEffects
  | .effects => EffectMeets v

/-- What a relocate sets is the echo of its report. -/
lemma isEcho_relocate (v : View) (fraction : ℚ) :
    (v.handleRelocate fraction).IsEcho (clampPercent (clamp01 fraction * 100)) := by
  have hlow : 0 ≤ clamp01 fraction := le_min (le_max_right _ _) zero_le_one
  have hhigh : clamp01 fraction ≤ 1 := min_le_right _ _
  have hkept : clampPercent (clamp01 fraction * 100) = clamp01 fraction * 100 :=
    clampPercent_eq_self (by linarith) (by linarith)
  refine ⟨clamp01 fraction, ?_, ?_⟩
  · unfold View.handleRelocate View.setPosition
    split_ifs <;> rfl
  · rw [hkept, sub_self, abs_zero]
    norm_num

variable {v : View}

/-- A position of a relocate was called, or a command is neither called nor waiting. -/
def Broken (v : View) : Prop :=
  (∃ call ∈ v.calls, call.source = .relocate) ∨
    v.answered.length + v.waiting.length < v.commands.length

lemma Broken.not_exact (h : Broken v) : ¬Exact v := by
  intro hexact
  rcases h with ⟨call, hcall, hsource⟩ | hless
  · exact hexact.echoes call hcall hsource
  · rw [hexact.commands, List.length_append] at hless
    omega

/-! ### A new value -/

lemma queuedCommands_setPosition {percentage : ℚ} (source : Source)
    (hnew : clampPercent percentage ≠ v.latest.value) :
    (v.setPosition percentage source).queuedCommands =
      if source = .command then [clampPercent percentage] else [] := by
  unfold View.setPosition View.queuedCommands
  rw [if_neg hnew]
  split_ifs with hsource <;> simp [hsource]

/-- A new value changes nothing but the update that waits. -/
lemma setPosition_fields (v : View) (percentage : ℚ) (source : Source) :
    (v.setPosition percentage source).calls = v.calls ∧
    (v.setPosition percentage source).commands = v.commands ∧
    ((v.setPosition percentage source).Unseen ↔ v.Unseen) ∧
    (v.setPosition percentage source).position = v.position := by
  unfold View.setPosition
  split_ifs <;> exact ⟨rfl, rfl, Iff.rfl, rfl⟩

/-- No command waits for a commit. -/
lemma queuedCommands_eq_nil (h : ∀ queued ∈ v.queued, queued.source ≠ .command) :
    v.queuedCommands = [] := by
  unfold View.queuedCommands
  cases hqueued : v.queued with
  | none => rfl
  | some queued => simp [h queued hqueued]

lemma waiting_setPosition {percentage : ℚ} (source : Source)
    (hnew : clampPercent percentage ≠ v.latest.value) :
    (v.setPosition percentage source).waiting =
      (if v.Unseen then [v.position.value] else []) ++
        if source = .command then [clampPercent percentage] else [] := by
  obtain ⟨-, -, hunseen, hposition⟩ := setPosition_fields v percentage source
  unfold View.waiting
  rw [queuedCommands_setPosition source hnew, hposition]
  simp only [hunseen]

/-- A value that is no command. -/
lemma Exact.setPosition (h : Exact v) {percentage : ℚ} {source : Source}
    (hsource : source ≠ .command) (hok : SetMeets v percentage) :
    Exact (v.setPosition percentage source) := by
  by_cases hsame : clampPercent percentage = v.latest.value
  · rw [View.setPosition, if_pos hsame]
    exact h
  · obtain ⟨hcalls, hcommands, -, -⟩ := setPosition_fields v percentage source
    have hnone := queuedCommands_eq_nil (hok.resolve_left hsame)
    refine ⟨by rw [hcalls]; exact h.echoes, ?_⟩
    rw [waiting_setPosition source hsame, if_neg hsource, hcommands, h.commands, View.answered,
      View.answered, hcalls, View.waiting, hnone]

/-- A value replaces a command that waits. -/
lemma waiting_replaced {percentage : ℚ} (source : Source) (hok : ¬SetMeets v percentage) :
    (v.setPosition percentage source).waiting.length + 1 =
      v.waiting.length + if source = .command then 1 else 0 := by
  obtain ⟨hnew, hqueued⟩ := not_or.mp hok
  have hone : v.queuedCommands.length = 1 := by
    push Not at hqueued
    obtain ⟨queued, hsome, hcommand⟩ := hqueued
    rw [Option.mem_def] at hsome
    simp [View.queuedCommands, hsome, hcommand]
  rw [waiting_setPosition source hnew, View.waiting, List.length_append, List.length_append, hone]
  split_ifs <;> rfl

lemma broken_setPosition (h : Exact v) {percentage : ℚ} {source : Source}
    (hsource : source ≠ .command) (hok : ¬SetMeets v percentage) :
    Broken (v.setPosition percentage source) := by
  obtain ⟨hcalls, hcommands, -, -⟩ := setPosition_fields v percentage source
  have hlost := waiting_replaced source hok
  rw [if_neg hsource] at hlost
  refine .inr ?_
  rw [hcommands, h.commands, List.length_append, View.answered, hcalls, View.answered]
  omega

/-- A command joins those that wait. -/
lemma Exact.setCommand (h : Exact v) {percentage : ℚ}
    (hnew : clampPercent percentage ≠ v.latest.value) (hok : SetMeets v percentage) :
    Exact { v.setPosition percentage .command with
      commands := v.commands ++ [clampPercent percentage] } := by
  obtain ⟨hcalls, -, -, -⟩ := setPosition_fields v percentage .command
  have hnone := queuedCommands_eq_nil (hok.resolve_left hnew)
  refine ⟨by simpa only [hcalls] using h.echoes, ?_⟩
  change v.commands ++ [clampPercent percentage] =
    (v.setPosition percentage .command).answered ++ (v.setPosition percentage .command).waiting
  rw [waiting_setPosition .command hnew, if_pos rfl, h.commands, View.answered, View.answered,
    hcalls, View.waiting, hnone]
  simp only [List.append_assoc, List.append_nil]

lemma Exact.handleRelocate (h : Exact v) {fraction : ℚ}
    (hok : SetMeets v (clamp01 fraction * 100)) : Exact (v.handleRelocate fraction) := by
  have hreported : Exact { v with reportedFractionRef := some (clamp01 fraction) } :=
    ⟨h.echoes, h.commands⟩
  exact hreported.setPosition (by decide) hok

lemma Exact.outside (h : Exact v) {percentage : ℚ} (hok : SetMeets v percentage) :
    Exact (v.outside percentage) := by
  unfold View.outside
  dsimp only
  split_ifs with hsame hdiffers
  · exact h
  · exact h.setCommand hsame hok
  · exact h.setPosition (by decide) hok

lemma broken_outside (h : Exact v) {percentage : ℚ} (hok : ¬SetMeets v percentage) :
    Broken (v.outside percentage) := by
  obtain ⟨hnew, -⟩ := not_or.mp hok
  unfold View.outside
  dsimp only
  rw [if_neg hnew]
  split_ifs
  · obtain ⟨hcalls, -, -, -⟩ := setPosition_fields v percentage .command
    have hlost := waiting_replaced .command hok
    rw [if_pos rfl] at hlost
    refine .inr ?_
    change (v.setPosition percentage .command).answered.length +
      (v.setPosition percentage .command).waiting.length <
        (v.commands ++ [clampPercent percentage]).length
    rw [h.commands, View.answered, hcalls, List.length_append, List.length_append, View.answered,
      List.length_singleton]
    omega
  · exact broken_setPosition h (by decide) hok

/-! ### Effects and commits -/

/-- The effect that is to run, or none. -/
lemma flushEffects_cases (v : View) :
    (v.effect = false ∧ v.flushEffects = v) ∨
    (v.effect = true ∧ v.interactive = false ∧ v.flushEffects = { v with effect := false }) ∨
    (v.effect = true ∧ v.interactive = true ∧
      (v.previousPositionRef = v.position.value ∨ v.IsEcho v.position.value) ∧
      v.flushEffects =
        { v with previousPositionRef := v.position.value, effect := false }) ∨
    (v.effect = true ∧ v.interactive = true ∧ v.previousPositionRef ≠ v.position.value ∧
      ¬v.IsEcho v.position.value ∧
      v.flushEffects = { v with
        previousPositionRef := v.position.value
        effect := false
        calls := v.calls ++ [v.position] }) := by
  rcases Bool.eq_false_or_eq_true v.effect with heffect | heffect
  swap
  · exact .inl ⟨heffect, by simp [View.flushEffects, heffect]⟩
  rcases Bool.eq_false_or_eq_true v.interactive with hinteractive | hinteractive
  swap
  · exact .inr (.inl ⟨heffect, hinteractive, by
      simp [View.flushEffects, View.positionEffect, heffect, hinteractive]⟩)
  refine .inr (.inr ?_)
  by_cases hseen : v.previousPositionRef = v.position.value
  · refine .inl ⟨heffect, hinteractive, .inl hseen, ?_⟩
    rw [← hseen]
    simp [View.flushEffects, View.positionEffect, heffect, hinteractive, hseen]
  have hrun : v.flushEffects = { (if v.IsEcho v.position.value then
          { v with previousPositionRef := v.position.value }
        else { v with
          previousPositionRef := v.position.value
          calls := v.calls ++ [v.position] }) with effect := false } := by
    unfold View.flushEffects View.positionEffect
    rw [if_pos heffect, if_neg (by simp [hinteractive]), if_neg hseen]
    rfl
  by_cases hecho : v.IsEcho v.position.value
  · exact .inl ⟨heffect, hinteractive, .inr hecho, by rw [hrun, if_pos hecho]⟩
  · exact .inr ⟨heffect, hinteractive, hseen, hecho, by rw [hrun, if_neg hecho]⟩

lemma effect_flushEffects (v : View) : v.flushEffects.effect = false := by
  unfold View.flushEffects
  split_ifs with heffect
  · rfl
  · simpa using heffect

/-- The effect under the condition. -/
lemma Exact.flushEffects (h : Exact v) (hok : EffectMeets v) : Exact v.flushEffects := by
  rcases flushEffects_cases v with ⟨-, hrun⟩ | ⟨heffect, hinteractive, hrun⟩ |
    ⟨heffect, hinteractive, hquiet, hrun⟩ | ⟨heffect, hinteractive, hnew, hother, hrun⟩
  · rw [hrun]
    exact h
  · rw [hrun]
    refine ⟨h.echoes, h.commands.trans ?_⟩
    simp [View.answered, View.waiting, View.Unseen, View.queuedCommands, hinteractive]
  · have hsource : v.position.source ≠ .command := by
      intro hcommand
      have hmeets := hok heffect hinteractive
      rw [hcommand] at hmeets
      exact hquiet.elim hmeets.1 hmeets.2
    rw [hrun]
    refine ⟨h.echoes, h.commands.trans ?_⟩
    simp [View.answered, View.waiting, View.Unseen, View.queuedCommands, hsource]
  · have hmeets := hok heffect hinteractive
    rw [hrun]
    cases hsource : v.position.source with
    | relocate =>
      rw [hsource] at hmeets
      exact absurd (hmeets.resolve_left hnew) hother
    | command =>
      refine ⟨fun call hcall => ?_, h.commands.trans ?_⟩
      · rcases List.mem_append.mp hcall with hcall | hcall
        · exact h.echoes call hcall
        · rw [List.mem_singleton.mp hcall, hsource]
          decide
      · simp [View.answered, View.waiting, View.Unseen, View.queuedCommands, hsource, heffect,
          hinteractive]
    | other =>
      refine ⟨fun call hcall => ?_, h.commands.trans ?_⟩
      · rcases List.mem_append.mp hcall with hcall | hcall
        · exact h.echoes call hcall
        · rw [List.mem_singleton.mp hcall, hsource]
          decide
      · simp [View.answered, View.waiting, View.Unseen, View.queuedCommands, hsource]

/-- The effect against the condition. -/
lemma broken_flushEffects (h : Exact v) (hok : ¬EffectMeets v) : Broken v.flushEffects := by
  obtain ⟨heffect, hrest⟩ := Classical.not_imp.mp hok
  obtain ⟨hinteractive, hmeets⟩ := Classical.not_imp.mp hrest
  cases hsource : v.position.source with
  | relocate =>
    rw [hsource] at hmeets
    obtain ⟨hnew, hother⟩ := not_or.mp hmeets
    refine .inl ⟨v.position, ?_, hsource⟩
    rcases flushEffects_cases v with ⟨hnone, -⟩ | ⟨-, hoff, -⟩ | ⟨-, -, hquiet, -⟩ |
      ⟨-, -, -, -, hrun⟩
    · exact absurd (heffect.symm.trans hnone) (by decide)
    · exact absurd (hinteractive.symm.trans hoff) (by decide)
    · exact absurd hquiet (not_or.mpr ⟨hnew, hother⟩)
    · rw [hrun]
      exact List.mem_append_right _ List.mem_cons_self
  | command =>
    rw [hsource] at hmeets
    have hquiet : v.previousPositionRef = v.position.value ∨ v.IsEcho v.position.value := by
      by_contra hnot
      exact hmeets (not_or.mp hnot)
    rcases flushEffects_cases v with ⟨hnone, -⟩ | ⟨-, hoff, -⟩ | ⟨-, -, -, hrun⟩ |
      ⟨-, -, hnew, hother, -⟩
    · exact absurd (heffect.symm.trans hnone) (by decide)
    · exact absurd (hinteractive.symm.trans hoff) (by decide)
    · refine .inr ?_
      rw [hrun, h.commands]
      simp [View.answered, View.waiting, View.Unseen, View.queuedCommands, hsource, heffect,
        hinteractive]
    · exact absurd hquiet (not_or.mpr ⟨hnew, hother⟩)
  | other =>
    rw [hsource] at hmeets
    exact absurd trivial hmeets

/-- What a commit leaves waiting: the committed position, if its effect is to run or waits for the
reader. -/
lemma waiting_commitUpdates (heffect : v.effect = false) : v.commitUpdates.waiting =
    match v.queued with
    | none => if v.Unseen then [v.position.value] else []
    | some queued =>
      if queued.source = .command ∧ (queued.value ≠ v.position.value ∨ v.interactive = false) then
        [queued.value] else [] := by
  cases hqueued : v.queued with
  | none =>
    have hunseen : v.commitUpdates.Unseen ↔ v.Unseen := by
      simp only [View.Unseen, View.commitUpdates, View.latest, hqueued, heffect, Option.getD_none]
      cases v.interactive <;> simp
    simp only [View.waiting, hunseen]
    simp [View.queuedCommands, View.commitUpdates, View.latest, hqueued]
  | some queued =>
    have hunseen : v.commitUpdates.Unseen ↔
        queued.source = .command ∧ (queued.value ≠ v.position.value ∨ v.interactive = false) := by
      simp only [View.Unseen, View.commitUpdates, View.latest, hqueued, Option.getD_some]
      cases v.interactive <;> cases v.restored <;> simp
    simp only [View.waiting, hunseen]
    simp [View.queuedCommands, View.commitUpdates, View.latest, hqueued]

/-- What waits before a commit. -/
lemma waiting_some {queued : Position} (hqueued : v.queued = some queued) :
    v.waiting = (if v.Unseen then [v.position.value] else []) ++
      if queued.source = .command then [queued.value] else [] := by
  unfold View.waiting View.queuedCommands
  rw [hqueued]
  split_ifs <;> simp [*]

lemma unseen_iff (heffect : v.effect = false) :
    v.Unseen ↔ v.position.source = .command ∧ v.interactive = false := by
  simp [View.Unseen, heffect]

/-- The updates are committed under the condition. -/
lemma Exact.commitUpdates (h : Exact v) (heffect : v.effect = false) (hok : CommitMeets v) :
    Exact v.commitUpdates := by
  refine ⟨h.echoes, h.commands.trans ?_⟩
  change v.answered ++ v.waiting = v.answered ++ v.commitUpdates.waiting
  congr 1
  rw [waiting_commitUpdates heffect]
  cases hqueued : v.queued with
  | none => simp [View.waiting, View.queuedCommands, hqueued]
  | some queued =>
    obtain ⟨hseen, hnew⟩ := hok queued hqueued
    have hunseen : ¬v.Unseen := by
      rw [unseen_iff heffect]
      rintro ⟨hcommand, hoff⟩
      rcases hseen with hon | hother
      · exact absurd (hoff.symm.trans hon) (by decide)
      · exact hother hcommand
    rw [waiting_some hqueued, if_neg hunseen]
    by_cases hcommand : queued.source = .command
    · simp [hcommand, hnew hcommand]
    · simp [hcommand]

/-- One element under a weaker condition. -/
lemma length_ite_le {p q : Prop} [Decidable p] [Decidable q] (x : ℚ) (h : p → q) :
    (if p then [x] else []).length ≤ (if q then [x] else []).length := by
  split_ifs with hp hq
  · exact le_rfl
  · exact absurd (h hp) hq
  · exact Nat.zero_le _
  · exact le_rfl

/-- A commit repairs nothing. -/
lemma Broken.commitUpdates (h : Broken v) (heffect : v.effect = false) :
    Broken v.commitUpdates := by
  refine h.imp id fun hless => ?_
  refine lt_of_le_of_lt (Nat.add_le_add_left ?_ v.answered.length) hless
  rw [waiting_commitUpdates heffect]
  cases hqueued : v.queued with
  | none =>
    unfold View.waiting
    rw [List.length_append]
    exact Nat.le_add_right _ _
  | some queued =>
    rw [waiting_some hqueued, List.length_append]
    exact le_trans (length_ite_le queued.value And.left) (Nat.le_add_left _ _)

/-- The updates are committed against the condition. -/
lemma broken_commitUpdates (h : Exact v) (heffect : v.effect = false) (hok : ¬CommitMeets v) :
    Broken v.commitUpdates := by
  unfold CommitMeets at hok
  push Not at hok
  obtain ⟨queued, hqueued, hlost⟩ := hok
  rw [Option.mem_def] at hqueued
  refine .inr ?_
  change v.answered.length + v.commitUpdates.waiting.length < v.commands.length
  rw [h.commands, List.length_append, waiting_commitUpdates heffect, hqueued,
    waiting_some hqueued, List.length_append]
  by_cases hunseen : v.Unseen
  · -- the committed position goes, and the queued one takes its place
    have hwaits := length_ite_le (p := queued.source = .command ∧
      (queued.value ≠ v.position.value ∨ v.interactive = false)) queued.value And.left
    rw [if_pos hunseen, List.length_singleton]
    dsimp only at hwaits ⊢
    omega
  · have hseen : v.interactive = true ∨ v.position.source ≠ .command := by
      rw [unseen_iff heffect, not_and_or] at hunseen
      exact hunseen.symm.imp (by simp) id
    obtain ⟨hcommand, hsame, hon⟩ := hlost hseen
    simp [hcommand, hsame, hon, hunseen]

/-! ## Runs -/

/-- **An event under the condition.** -/
theorem Exact.step (h : Exact v) (event : Event) (hok : EventMeets v event) :
    Exact (EpubReader.step v event) := by
  cases event with
  | relocate fraction => exact h.handleRelocate hok
  | outside percentage => exact h.outside hok
  | restore => exact ⟨h.echoes, h.commands⟩
  | commit => exact (h.flushEffects hok.1).commitUpdates (effect_flushEffects v) hok.2
  | effects => exact h.flushEffects hok

/-- **An event against the condition.** -/
theorem not_exact_step (h : Exact v) (event : Event) (hok : ¬EventMeets v event) :
    ¬Exact (step v event) := by
  refine Broken.not_exact ?_
  cases event with
  | relocate fraction =>
    have hreported : Exact { v with reportedFractionRef := some (clamp01 fraction) } :=
      ⟨h.echoes, h.commands⟩
    exact broken_setPosition hreported (by decide) hok
  | outside percentage => exact broken_outside h hok
  | restore => exact absurd trivial hok
  | commit =>
    by_cases heffects : EffectMeets v
    · exact broken_commitUpdates (h.flushEffects heffects) (effect_flushEffects v)
        fun hcommit => hok ⟨heffects, hcommit⟩
    · exact (broken_flushEffects h heffects).commitUpdates (effect_flushEffects v)
  | effects => exact broken_flushEffects h hok

/-- A reader as React mounts it. -/
def mounted : View := {}

/-- **Exactly these runs keep the guard exact.** -/
theorem exact_iff (events : List Event) :
    (∀ before, before <+: events → Exact (before.foldl step mounted)) ↔
      Guarded.Meets step EventMeets mounted events := by
  have hmounted : Exact mounted := ⟨fun _ hcall => absurd hcall List.not_mem_nil, rfl⟩
  have hstep (v : View) (event : Event) (h : Exact v) (hok : EventMeets v event) :
      Exact (step v event) := h.step event hok
  exact (Guarded.meets_iff_always hstep (fun _ h => h)
    (fun _ event h hok => not_exact_step h event hok) hmounted).symm

/-- The reader is restored at a quarter of the book. Its page is turned, and turned again before
the effect of the first commit has run. -/
def turnedTwice : List Event :=
  [.restore, .commit, .relocate (1 / 4), .commit, .effects, .relocate (1 / 2), .commit,
    .relocate (3 / 4), .effects]

/-- **The late effect sends the reader back.** The place shown is at three quarters, and the call
for one half comes from a relocate. -/
theorem late_effect_jumps_back :
    (turnedTwice.foldl step mounted).reportedFractionRef = some (3 / 4) ∧
    (turnedTwice.foldl step mounted).calls = [{ value := 50, source := .relocate }] ∧
    ¬Exact (turnedTwice.foldl step mounted) := by
  have hcalls : (turnedTwice.foldl step mounted).calls =
      [{ value := 50, source := .relocate }] := by
    decide +kernel
  refine ⟨by decide +kernel, hcalls, fun hexact => ?_⟩
  exact hexact.echoes _ (hcalls ▸ List.mem_cons_self) rfl

end EpubReader
end TuxBooks
