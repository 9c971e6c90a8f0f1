import TuxBooks.Lib.Guarded
import TuxBooks.Reader.Saves

set_option relaxedAutoImplicit false
set_option autoImplicit false

/-!
# The reading position of an open book

The hook `useReaderProgress` of `frontend/src/components/reader/useReaderProgress.ts` as a state
machine. A commit runs the cleanups of the effects whose dependencies changed and then these
effects, in the order of the source. `Saved` is the format's payload; two payloads are equal when
`Object.is` takes them for the same.

## Main definitions

* `TuxBooks.ReaderProps`, `TuxBooks.ReaderProgress` — the arguments of the hook, its state and refs.
* `TuxBooks.ReaderProgress.step` — one commit, the end of the load, the timer, the unmount.
* `TuxBooks.ReaderProgress.Still`, `TuxBooks.ReaderProgress.Quiet` — conditions on a step.

## Main results

* `TuxBooks.ReaderProgress.reading_still_saves_nothing` — when a run without a move saves nothing.
-/

namespace TuxBooks

/-! ## The hook -/

/-- The arguments of the hook that its effects depend on. -/
structure ReaderProps (Saved : Type) where
  bookId : ℤ
  enabled : Bool
  /-- The position that the reader reports. -/
  current : Option Saved
  position : ℚ
  deriving DecidableEq

/-- The dependencies of the save effect at a commit. -/
structure ReaderCommit (Saved : Type) where
  props : ReaderProps Saved
  restored : Bool
  deriving DecidableEq

/-- What the hook asks of the rest of the program. -/
inductive ReaderCall (Saved : Type) where
  | getReadingProgress (bookId : ℤ)
  | onRestored (restored : Option Saved)
  | saveReadingProgress (bookId : ℤ) (progress : ProgressUpdate)
  deriving DecidableEq

def ReaderCall.isSave {Saved : Type} : ReaderCall Saved → Bool
  | .saveReadingProgress _ _ => true
  | _ => false

structure ReaderProgress (Saved : Type) where
  /-- The last commit. -/
  committed : Option (ReaderCommit Saved) := none
  /-- The state `restored`, as the next render reads it. -/
  restored : Bool := false
  latestRef : Option Saved × ℚ := (none, 0)
  restoreStartedRef : Bool := false
  /-- The load is under way and not cancelled. -/
  loading : Bool := false
  restoredRef : Bool := false
  skipFirstSaveRef : Bool := true
  /-- The timer of the save effect, with the book of its closure. -/
  timer : Option ℤ := none
  bookIdRef : ℤ := 0
  unmounted : Bool := false
  calls : List (ReaderCall Saved) := []
  deriving DecidableEq

inductive ReaderEvent (Saved : Type) where
  | commit (props : ReaderProps Saved)
  /-- The load succeeds or fails. -/
  | settle (outcome : Except Unit (Option ProgressRow))
  /-- The debounce timer fires. -/
  | fire
  | unmount

namespace ReaderProgress

variable {Saved : Type}

section

variable (parseRestored : Option ProgressRow → Option Saved)
  (savePayload : Saved → ℚ → ProgressUpdate)

/-- Save the latest position, if there is one. -/
def save (s : ReaderProgress Saved) (bookId : ℤ) : ReaderProgress Saved :=
  match s.latestRef.1 with
  | none => s
  | some current =>
    { s with calls := s.calls ++ [.saveReadingProgress bookId (savePayload current s.latestRef.2)] }

/-- Restore exactly once, after the reader is ready. -/
def restoreEffect (s : ReaderProgress Saved) (props : ReaderProps Saved) : ReaderProgress Saved :=
  if !props.enabled || s.restoreStartedRef then s
  else
    { s with
      restoreStartedRef := true
      loading := true
      calls := s.calls ++ [.getReadingProgress props.bookId] }

/-- The first armed run is skipped; any other one arms the timer. -/
def saveEffect (s : ReaderProgress Saved) (now : ReaderCommit Saved) : ReaderProgress Saved :=
  if !now.props.enabled || !now.restored then s
  else if s.skipFirstSaveRef then { s with skipFirstSaveRef := false }
  else { s with timer := some now.props.bookId }

/-- `[enabled, bookId]` are not those of the last commit. -/
def restoreDeps (s : ReaderProgress Saved) (props : ReaderProps Saved) : Bool :=
  s.committed.map (fun c => (c.props.enabled, c.props.bookId)) != some (props.enabled, props.bookId)

section

variable [DecidableEq Saved]

/-- `[enabled, restored, bookId, current, position]` are not those of the last commit. -/
def saveDeps (s : ReaderProgress Saved) (now : ReaderCommit Saved) : Bool :=
  decide (s.committed ≠ some now)

/-- One commit of the component: the cleanups, then the effects. -/
def commit (s : ReaderProgress Saved) (props : ReaderProps Saved) : ReaderProgress Saved :=
  let now : ReaderCommit Saved := ⟨props, s.restored⟩
  let restoreAgain := s.restoreDeps props
  let saveAgain := s.saveDeps now
  let s := if restoreAgain then { s with loading := false } else s
  let s := if saveAgain then { s with timer := none } else s
  let s := { s with latestRef := (props.current, props.position) }
  let s := if restoreAgain then s.restoreEffect props else s
  let s := if saveAgain then s.saveEffect now else s
  { s with bookIdRef := props.bookId, committed := some now }

def step (s : ReaderProgress Saved) : ReaderEvent Saved → ReaderProgress Saved
  | .commit props => if s.unmounted then s else s.commit props
  | .settle outcome =>
    if s.loading then
      let restored := match outcome with
        | .ok saved => parseRestored saved
        | .error _ => none
      { s with
        loading := false
        restoredRef := true
        restored := true
        calls := s.calls ++ [.onRestored restored] }
    else s
  | .fire =>
    match s.timer with
    | some bookId => save savePayload { s with timer := none } bookId
    | none => s
  | .unmount =>
    if s.unmounted || s.committed.isNone then s
    else
      let s := { s with loading := false, timer := none, unmounted := true }
      if s.restoredRef then s.save savePayload s.bookIdRef else s

end

end

/-! ## Reading without moving -/

/-- No save has been issued. -/
def Unsaved (s : ReaderProgress Saved) : Prop := ∀ call ∈ s.calls, call.isSave = false

instance (s : ReaderProgress Saved) : Decidable s.Unsaved :=
  inferInstanceAs (Decidable (∀ _ ∈ _, _))

/-- The reported position does not change any more once a commit has seen the restoration. -/
def Still (s : ReaderProgress Saved) : ReaderEvent Saved → Prop
  | .commit props => ∀ c ∈ s.committed, c.restored = true →
      props.current = c.props.current ∧ props.position = c.props.position
  | _ => True

/-- The reader is not enabled again, or handed another book, after the first armed run, and not
closed after the restoration, while it reports a position. -/
def Quiet (s : ReaderProgress Saved) : ReaderEvent Saved → Prop
  | .commit props => s.skipFirstSaveRef = false → props.enabled = true → props.current.isSome →
      ∀ c ∈ s.committed, c.props.enabled = true ∧ c.props.bookId = props.bookId
  | .unmount => s.restoredRef = true → s.latestRef.1 = none
  | _ => True

instance [DecidableEq Saved] (s : ReaderProgress Saved) (event : ReaderEvent Saved) :
    Decidable (s.Still event) := by
  cases event <;> unfold Still <;> infer_instance

instance (s : ReaderProgress Saved) (event : ReaderEvent Saved) : Decidable (s.Quiet event) := by
  cases event <;> unfold Quiet <;> infer_instance

/-- What a run without a move keeps: a timer finds nothing to save. -/
structure Idle (s : ReaderProgress Saved) : Prop where
  unsaved : s.Unsaved
  latest : ∀ c ∈ s.committed, s.latestRef.1 = c.props.current
  seen : ∀ c ∈ s.committed, c.restored = true → s.restored = true
  armed : s.skipFirstSaveRef = false → ∃ c ∈ s.committed, c.restored = true
  timer : s.timer.isSome → s.latestRef.1 = none

variable {s : ReaderProgress Saved}

lemma idle_initial : Idle ({} : ReaderProgress Saved) := by
  constructor <;> simp [Unsaved]

/-- A skipped first run was a commit that saw the restoration. -/
lemma Idle.restored (h : s.Idle) (hskip : s.skipFirstSaveRef = false) : s.restored = true := by
  obtain ⟨c, hc, hrestored⟩ := h.armed hskip
  exact h.seen c hc hrestored

/-- A save without a position does nothing. -/
lemma Idle.save {savePayload : Saved → ℚ → ProgressUpdate} (h : s.Idle) (bookId : ℤ)
    (hnone : s.latestRef.1 = none) : (s.save savePayload bookId).Idle := by
  unfold ReaderProgress.save
  rw [hnone]
  exact h

/-- One more call that is not a save. -/
lemma Unsaved.append {s' : ReaderProgress Saved} (h : s.Unsaved) {other : ReaderCall Saved}
    (hcalls : s'.calls = s.calls ++ [other]) (hother : other.isSave = false) : s'.Unsaved := by
  intro call hmem
  rw [hcalls] at hmem
  obtain hmem | hmem := List.mem_append.mp hmem
  · exact h call hmem
  · obtain rfl := List.mem_singleton.mp hmem
    exact hother

/-- The restore effect leaves alone what the save effect reads and writes. -/
lemma restoreEffect_frame (s : ReaderProgress Saved) (props : ReaderProps Saved) :
    (s.restoreEffect props).restored = s.restored ∧
      (s.restoreEffect props).skipFirstSaveRef = s.skipFirstSaveRef ∧
      (s.restoreEffect props).timer = s.timer ∧
      (s.restoreEffect props).latestRef = s.latestRef := by
  unfold restoreEffect
  split_ifs <;> exact ⟨rfl, rfl, rfl, rfl⟩

lemma restoreEffect_unsaved (h : s.Unsaved) (props : ReaderProps Saved) :
    (s.restoreEffect props).Unsaved := by
  unfold restoreEffect
  split_ifs
  · exact h
  · exact h.append rfl rfl

lemma saveEffect_frame (s : ReaderProgress Saved) (now : ReaderCommit Saved) :
    (s.saveEffect now).restored = s.restored ∧ (s.saveEffect now).latestRef = s.latestRef ∧
      (s.saveEffect now).calls = s.calls := by
  unfold saveEffect
  split_ifs <;> exact ⟨rfl, rfl, rfl⟩

/-- A run of the save effect skips the first armed run, and arms the timer in a later one. -/
lemma saveEffect_cases (s : ReaderProgress Saved) (now : ReaderCommit Saved) :
    (s.saveEffect now).skipFirstSaveRef = s.skipFirstSaveRef ∧ (s.saveEffect now).timer = s.timer ∨
      now.restored = true ∧ (s.saveEffect now).timer = s.timer ∨
      now.props.enabled = true ∧ now.restored = true ∧ s.skipFirstSaveRef = false := by
  unfold saveEffect
  split_ifs with hoff hskip
  · exact Or.inl ⟨rfl, rfl⟩
  · simp only [Bool.or_eq_true, Bool.not_eq_true', not_or, Bool.not_eq_false] at hoff
    exact Or.inr (Or.inl ⟨hoff.2, rfl⟩)
  · simp only [Bool.or_eq_true, Bool.not_eq_true', not_or, Bool.not_eq_false] at hoff
    exact Or.inr (Or.inr ⟨hoff.1, hoff.2, Bool.eq_false_of_not_eq_true hskip⟩)

section Commit

variable [DecidableEq Saved]

/-- The state in which the save effect of a commit runs, or does not. -/
def beforeSaveEffect (s : ReaderProgress Saved) (props : ReaderProps Saved) :
    ReaderProgress Saved :=
  let restoreAgain := s.restoreDeps props
  let saveAgain := s.saveDeps ⟨props, s.restored⟩
  let s := if restoreAgain then { s with loading := false } else s
  let s := if saveAgain then { s with timer := none } else s
  let s := { s with latestRef := (props.current, props.position) }
  if restoreAgain then s.restoreEffect props else s

lemma commit_eq (s : ReaderProgress Saved) (props : ReaderProps Saved) :
    s.commit props =
      { if s.saveDeps ⟨props, s.restored⟩ then
          (s.beforeSaveEffect props).saveEffect ⟨props, s.restored⟩
        else s.beforeSaveEffect props with
        bookIdRef := props.bookId
        committed := some ⟨props, s.restored⟩ } := rfl

lemma beforeSaveEffect_frame (s : ReaderProgress Saved) (props : ReaderProps Saved) :
    (s.beforeSaveEffect props).restored = s.restored ∧
      (s.beforeSaveEffect props).skipFirstSaveRef = s.skipFirstSaveRef ∧
      (s.beforeSaveEffect props).timer =
        (if s.saveDeps ⟨props, s.restored⟩ then none else s.timer) ∧
      (s.beforeSaveEffect props).latestRef = (props.current, props.position) := by
  unfold beforeSaveEffect
  dsimp only
  split_ifs <;> first | exact restoreEffect_frame _ props | exact ⟨rfl, rfl, rfl, rfl⟩

lemma beforeSaveEffect_unsaved (h : s.Unsaved) (props : ReaderProps Saved) :
    (s.beforeSaveEffect props).Unsaved := by
  unfold beforeSaveEffect
  dsimp only
  split_ifs <;> first | exact restoreEffect_unsaved (by exact h) props | exact h

/-- Without a move the save effect runs again after the first armed run only when there is nothing
to save. -/
lemma Idle.nothing_to_save (h : s.Idle) {props : ReaderProps Saved}
    (hstill : s.Still (.commit props)) (hquiet : s.Quiet (.commit props))
    (hskip : s.skipFirstSaveRef = false) (henabled : props.enabled = true)
    (hdeps : s.saveDeps ⟨props, s.restored⟩ = true) : props.current = none := by
  by_contra hcurrent
  obtain ⟨c, hc, hrestored⟩ := h.armed hskip
  obtain ⟨hsame, hposition⟩ := hstill c hc hrestored
  obtain ⟨hon, hbook⟩ := hquiet hskip henabled (Option.isSome_iff_ne_none.mpr hcurrent) c hc
  refine of_decide_eq_true hdeps ?_
  rw [Option.mem_def.mp hc, h.restored hskip]
  obtain ⟨⟨bookId, enabled, current, position⟩, restored⟩ := c
  obtain ⟨bookId', enabled', current', position'⟩ := props
  simp_all

lemma Idle.commit (h : s.Idle) (props : ReaderProps Saved) (hstill : s.Still (.commit props))
    (hquiet : s.Quiet (.commit props)) : (s.commit props).Idle := by
  obtain ⟨hrestored, hskip, htimer, hlatest⟩ := s.beforeSaveEffect_frame props
  obtain ⟨hrestored', hlatest', hcalls'⟩ :=
    (s.beforeSaveEffect props).saveEffect_frame ⟨props, s.restored⟩
  have hunsaved := beforeSaveEffect_unsaved h.unsaved props
  have hcommitted : ∀ c ∈ some (⟨props, s.restored⟩ : ReaderCommit Saved),
      c = ⟨props, s.restored⟩ := fun c hc => (Option.some.inj hc).symm
  rw [commit_eq]
  by_cases hdeps : s.saveDeps ⟨props, s.restored⟩ = true
  · rw [if_pos hdeps]
    rw [if_pos hdeps] at htimer
    have hruns := (s.beforeSaveEffect props).saveEffect_cases ⟨props, s.restored⟩
    rw [htimer, hskip] at hruns
    refine ⟨fun call hcall => hunsaved call (hcalls' ▸ hcall), fun c hc => ?_, fun c hc hseen => ?_,
      fun hfirst => ⟨_, rfl, ?_⟩, fun harmed => ?_⟩
    · rw [hcommitted c hc]
      exact congrArg Prod.fst (hlatest'.trans hlatest)
    · rw [hcommitted c hc] at hseen
      exact (hrestored'.trans hrestored).trans hseen
    · obtain ⟨hsame, -⟩ | ⟨hnow, -⟩ | ⟨-, hnow, -⟩ := hruns
      · exact h.restored (hsame.symm.trans hfirst)
      · exact hnow
      · exact hnow
    · change ((s.beforeSaveEffect props).saveEffect ⟨props, s.restored⟩).timer.isSome
          = true at harmed
      change ((s.beforeSaveEffect props).saveEffect ⟨props, s.restored⟩).latestRef.1 = none
      rw [hlatest', hlatest]
      obtain ⟨-, hnone⟩ | ⟨-, hnone⟩ | ⟨hon, -, hfirst⟩ := hruns
      · rw [hnone] at harmed
        cases harmed
      · rw [hnone] at harmed
        cases harmed
      · exact h.nothing_to_save hstill hquiet hfirst hon hdeps
  · rw [if_neg hdeps]
    rw [if_neg hdeps] at htimer
    have hsame : s.committed = some ⟨props, s.restored⟩ := by
      by_contra hne
      exact hdeps (decide_eq_true hne)
    refine ⟨hunsaved, fun c hc => ?_, fun c hc hseen => ?_, fun hfirst => ⟨_, rfl, ?_⟩,
      fun harmed => ?_⟩
    · rw [hcommitted c hc]
      exact congrArg Prod.fst hlatest
    · rw [hcommitted c hc] at hseen
      exact hrestored.trans hseen
    · exact h.restored (hskip.symm.trans hfirst)
    · change (s.beforeSaveEffect props).timer.isSome = true at harmed
      change (s.beforeSaveEffect props).latestRef.1 = none
      rw [htimer] at harmed
      rw [hlatest]
      exact (h.latest _ hsame).symm.trans (h.timer harmed)

end Commit

/-! ## Every run -/

section Run

variable [DecidableEq Saved] {parseRestored : Option ProgressRow → Option Saved}
  {savePayload : Saved → ℚ → ProgressUpdate}

lemma Idle.step (h : s.Idle) (event : ReaderEvent Saved) (hstill : s.Still event)
    (hquiet : s.Quiet event) : (s.step parseRestored savePayload event).Idle := by
  cases event with
  | commit props =>
    unfold ReaderProgress.step
    dsimp only
    split_ifs
    · exact h
    · exact h.commit props hstill hquiet
  | settle outcome =>
    unfold ReaderProgress.step
    dsimp only
    split_ifs
    · exact ⟨h.unsaved.append rfl rfl, h.latest, fun _ _ _ => rfl, h.armed, h.timer⟩
    · exact h
  | fire =>
    unfold ReaderProgress.step
    dsimp only
    cases htimer : s.timer with
    | none => exact h
    | some bookId =>
      have hnone : s.latestRef.1 = none := h.timer (by rw [htimer]; rfl)
      refine Idle.save ?_ bookId hnone
      exact ⟨h.unsaved, h.latest, h.seen, h.armed, fun _ => hnone⟩
  | unmount =>
    unfold ReaderProgress.step
    dsimp only
    split_ifs with _ hrestored
    · exact h
    · have hnone := hquiet hrestored
      refine Idle.save ?_ _ hnone
      exact ⟨h.unsaved, h.latest, h.seen, h.armed, fun _ => hnone⟩
    · exact ⟨h.unsaved, h.latest, h.seen, h.armed, fun harmed => by cases harmed⟩

/-- **Reading without moving saves nothing** in every run in which the reader is not enabled again
after its first armed run, and not closed after the restoration, while it reports a position. -/
theorem reading_still_saves_nothing {events : List (ReaderEvent Saved)}
    (hstill : Guarded.Meets (step parseRestored savePayload) Still {} events)
    (hquiet : Guarded.Meets (step parseRestored savePayload) Quiet {} events) :
    (events.foldl (step parseRestored savePayload) {}).Unsaved := by
  have hboth := hstill.and hquiet
  exact (hboth.invariant (fun _ event h hok => h.step event hok.1 hok.2) idle_initial).unsaved

end Run

/-! ## A PDF reader -/

/-- The page of a stored row, and the payload of a page. -/
def pageStep : ReaderProgress ℤ → ReaderEvent ℤ → ReaderProgress ℤ :=
  step (fun record => record.bind (·.pageNumber)) fun page position =>
    { pageNumber := some page, progressPercent := some position }

/-- A book opened at page 80, read without a move, with the reader disabled at the end. -/
theorem reading_still_saves_nothing_sample :
    ([.commit ⟨1, true, some 1, 0⟩, .settle (.ok (some { pageNumber := some 80, updatedAt := "" })),
      .commit ⟨1, true, some 80, 40⟩, .commit ⟨1, true, some 80, 40⟩,
      .commit ⟨1, false, some 80, 40⟩].foldl pageStep {}).Unsaved :=
  reading_still_saves_nothing (by decide +kernel) (by decide +kernel)

/-- The load fails, the reader shows page 1 and is closed: page 1 is stored. -/
theorem failed_load_overwrites :
    ¬∀ events, Guarded.Meets pageStep Still {} events → (events.foldl pageStep {}).Unsaved := by
  intro h
  have hclosed := h [.commit ⟨1, true, some 1, 0⟩, .settle (.error ()),
    .commit ⟨1, true, some 1, 0⟩, .unmount] (by decide)
  revert hclosed
  decide

/-- A reader that is enabled again saves after the delay, without a move. -/
example : ¬([.commit ⟨1, true, some 1, 0⟩, .settle (.ok none), .commit ⟨1, true, some 1, 0⟩,
    .commit ⟨1, false, some 1, 0⟩, .commit ⟨1, true, some 1, 0⟩,
    .fire].foldl pageStep {}).Unsaved := by
  decide

end ReaderProgress

end TuxBooks
