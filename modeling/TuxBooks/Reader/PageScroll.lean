import Mathlib.Data.List.Basic
import TuxBooks.Lib.Guarded
import TuxBooks.Reader.Position

set_option relaxedAutoImplicit false
set_option autoImplicit false

/-!
# Scrolling and navigation of the PDF reader

In the scroll view of `frontend/src/components/reader/pdf/PdfReader.tsx` the page is committed by
React some time after the scroll tracker or a navigation has set the position. The page effect then
scrolls to the page, unless the page is one that the tracker reported lately. The steps of the shell
(`frontend/src/components/reader/shell/useReaderPaging.ts`) set the position themselves.

The view stays in scroll mode and at one scale, and every page has its slot.

## Main definitions

* `TuxBooks.PdfReader.View` — the position, the memory of the tracker's reports, and the refs.
* `TuxBooks.PdfReader.Event`, `TuxBooks.PdfReader.View.step` — what can happen to them.
* `TuxBooks.PdfReader.Lands` — navigations move the view, and scrolling does not.
* `TuxBooks.PdfReader.EventMeets` — the condition on an event.

## Main results

* `TuxBooks.PdfReader.lands_of_meets` — the page changes of a run under the condition.
* `TuxBooks.PdfReader.step_to_reported_page_stays` — a step back to a page reported lately.
-/

namespace TuxBooks

namespace PdfReader

/-! ## The view -/

/-- `PDF_PLACEHOLDER_PAGE_COUNT` and `SCROLL_REPORT_MEMORY`. -/
def placeholderPageCount : ℕ := 24

def scrollReportMemory : ℕ := 64

/-- The pages of the document, or of the placeholder while they are not known. -/
def effectivePageCount (pageCount : ℕ) : ℤ :=
  if 0 < pageCount then pageCount else placeholderPageCount

/-- What set a position. -/
inductive Source where
  | tracker
  | navigation
  deriving DecidableEq

structure Position where
  value : ℚ
  source : Source

/-- A run of the page effect: the page, whether it has changed and what set it, and the page that
the view was scrolled to. -/
structure Run where
  page : ℤ
  changed : Bool
  source : Source
  scrolledTo : Option ℤ
  deriving DecidableEq

structure View where
  /-- The committed position, and the update that waits for a commit. -/
  position : Position
  queued : Option Position := none
  /-- The page effect of the last commit has not run. -/
  effect : Bool := true
  mounted : Bool := false
  previousPageRef : ℤ
  /-- `scrollReportedPagesRef`: the pages of the set, and the queue with the oldest page first. -/
  reported : List ℤ := []
  queue : List ℤ := []
  runs : List Run := []

namespace View

variable (pageCount : ℕ)

def pageOf (position : Position) : ℤ :=
  positionToPage position.value (effectivePageCount pageCount)

/-- `currentPage` of the last commit. -/
def currentPage (v : View) : ℤ := pageOf pageCount v.position

def setPosition (v : View) (percentage : ℚ) (source : Source) : View :=
  { v with queued := some { value := clampPercent percentage, source } }

/-- The memory part of `handleScrollPageChange`. -/
def remember (v : View) (page : ℤ) : View :=
  if page ∈ v.reported then v
  else
    let v := { v with reported := page :: v.reported, queue := v.queue ++ [page] }
    if scrollReportMemory < v.queue.length then
      match v.queue with
      | [] => v
      | oldest :: rest => { v with reported := v.reported.filter (· ≠ oldest), queue := rest }
    else v

def handleScrollPageChange (v : View) (page : ℤ) : View :=
  (v.remember page).setPosition (pageToPosition page (effectivePageCount pageCount)) .tracker

/-- A navigation drops its target from the set, and leaves the queue. -/
def goToPage (v : View) (page : ℤ) : View :=
  let clamped := clampPage page (effectivePageCount pageCount)
  { v with reported := v.reported.filter (· ≠ clamped) }.setPosition
    (pageToPosition clamped (effectivePageCount pageCount)) .navigation

/-- The position that an arrow or space sets: that of the page beside the committed one, and
without a page count a part of the placeholder. -/
def stepTarget (v : View) (forward : Bool) : ℚ :=
  let delta : ℤ := if forward then 1 else -1
  if 0 < pageCount then
    let page := positionToPage v.position.value pageCount
    pageToPosition (max 1 (min (pageCount : ℤ) (page + delta))) pageCount
  else v.position.value + delta * (100 / placeholderPageCount)

/-- The body of the page effect. -/
def pageEffect (v : View) : View :=
  let page := v.currentPage pageCount
  let changed : Bool := v.previousPageRef ≠ page
  let ran (scrolledTo : Option ℤ) : View := { v with
    previousPageRef := page
    mounted := true
    runs := v.runs ++ [{ page, changed, source := v.position.source, scrolledTo }] }
  if v.mounted = false then ran none
  else if changed ∧ page ∈ v.reported then ran none
  else ran (some page)

/-- The effect of the last commit runs if it has not. -/
def flushEffects (v : View) : View :=
  if v.effect then { v.pageEffect pageCount with effect := false } else v

/-- React commits the update, and the page effect is to run again if the page has changed. The
effects of the commit before run first. -/
def commit (v : View) : View :=
  let v := v.flushEffects pageCount
  match v.queued with
  | none => v
  | some queued => { v with
      position := queued
      queued := none
      effect := pageOf pageCount queued ≠ v.currentPage pageCount }

end View

/-- What can happen. The tracker reports pages of the document. -/
inductive Event (pageCount : ℕ) where
  | report (page : { page : ℤ // 1 ≤ page ∧ page ≤ effectivePageCount pageCount })
  | goToPage (page : ℤ)
  | arrow (forward : Bool)
  | home
  | toEnd
  | commit
  | effects

variable {pageCount : ℕ}

def View.step (v : View) : Event pageCount → View
  | .report page => v.handleScrollPageChange pageCount page
  | .goToPage page => v.goToPage pageCount page
  | .arrow forward => v.setPosition (v.stepTarget pageCount forward) .navigation
  | .home => v.setPosition 0 .navigation
  | .toEnd => v.setPosition 100 .navigation
  | .commit => v.commit pageCount
  | .effects => v.flushEffects pageCount

/-! ## What moves the view -/

/-- **Navigation lands and scrolling does not scroll back**: a page change of a navigation has moved
the view to that page, and one of the tracker has not moved it. -/
def Lands (v : View) : Prop :=
  ∀ run ∈ v.runs, run.changed = true →
    run.scrolledTo = match run.source with
      | .navigation => some run.page
      | .tracker => none

/-- The page that a report drops from the memory. -/
def View.evicted (v : View) (page : ℤ) : Option ℤ :=
  if page ∈ v.reported ∨ v.queue.length < scrollReportMemory then none else v.queue.head?

/-- A step of the shell goes to a page that is not in the memory, or stays on its page. -/
def StepMeets (pageCount : ℕ) (v : View) (percentage : ℚ) : Prop :=
  positionToPage percentage (effectivePageCount pageCount) = v.currentPage pageCount ∨
    positionToPage percentage (effectivePageCount pageCount) ∉ v.reported

/-- The condition on an event. A report keeps its own page in the memory. While the effect of a
commit is to run, the memory does not lose the page of the tracker and does not get the page of
a navigation. The steps of the shell go to pages outside of the memory. -/
def EventMeets (v : View) : Event pageCount → Prop
  | .report page =>
    (page.1 = v.currentPage pageCount ∨ v.evicted page.1 ≠ some page.1) ∧
    (v.effect = true → v.position.source = .tracker →
      v.evicted page.1 ≠ some (v.currentPage pageCount)) ∧
    (v.effect = true → v.position.source = .navigation → page.1 ≠ v.currentPage pageCount)
  | .goToPage page =>
    v.effect = true → v.position.source = .tracker →
      clampPage page (effectivePageCount pageCount) ≠ v.currentPage pageCount
  | .arrow forward => StepMeets pageCount v (v.stepTarget pageCount forward)
  | .home => StepMeets pageCount v 0
  | .toEnd => StepMeets pageCount v 100
  | .commit => True
  | .effects => True

instance (v : View) : DecidablePred (EventMeets v : Event pageCount → Prop)
  | .report _ => inferInstanceAs (Decidable (_ ∧ _ ∧ _))
  | .goToPage _ => inferInstanceAs (Decidable (_ → _ → _))
  | .arrow _ => inferInstanceAs (Decidable (_ ∨ _))
  | .home => inferInstanceAs (Decidable (_ ∨ _))
  | .toEnd => inferInstanceAs (Decidable (_ ∨ _))
  | .commit => isTrue trivial
  | .effects => isTrue trivial

/-! ## The invariant -/

/-- The memory tells what set a position. -/
def Told (pageCount : ℕ) (reported : List ℤ) (position : Position) : Prop :=
  View.pageOf pageCount position ∈ reported ↔ position.source = .tracker

/-- The invariant of the runs that meet the condition. -/
structure Sound (pageCount : ℕ) (v : View) : Prop where
  first : v.mounted = false → v.effect = true ∧ v.previousPageRef = v.currentPage pageCount
  quiet : v.effect = false → v.previousPageRef = v.currentPage pageCount
  due : v.effect = true → v.mounted = true →
    v.previousPageRef ≠ v.currentPage pageCount ∧ Told pageCount v.reported v.position
  queued : ∀ queued ∈ v.queued, View.pageOf pageCount queued ≠ v.currentPage pageCount →
    Told pageCount v.reported queued
  lands : Lands v

lemma one_le_effectivePageCount (pageCount : ℕ) : 1 ≤ effectivePageCount pageCount := by
  unfold effectivePageCount placeholderPageCount
  split_ifs <;> omega

variable {v : View}

/-- What the memory holds after a report. -/
lemma mem_reported_remember (v : View) (page p : ℤ) :
    p ∈ (v.remember page).reported ↔
      (p = page ∨ p ∈ v.reported) ∧ v.evicted page ≠ some p := by
  unfold View.remember View.evicted
  by_cases hmem : page ∈ v.reported
  · simp only [hmem, if_true, true_or]
    constructor
    · exact fun hp => ⟨.inr hp, by simp⟩
    · rintro ⟨rfl | hp, -⟩
      · exact hmem
      · exact hp
  · simp only [hmem, if_false, false_or]
    cases hqueue : v.queue with
    | nil => simp [scrollReportMemory]
    | cons oldest rest =>
      simp only [List.cons_append, List.length_cons, List.length_append, List.length_nil]
      by_cases hroom : rest.length + 1 < scrollReportMemory
      · rw [if_neg (by omega), if_pos hroom]
        simp
      · rw [if_pos (by omega), if_neg hroom]
        simp [eq_comm (a := oldest) (b := p)]

/-- A report changes only the memory. -/
lemma remember_eq (v : View) (page : ℤ) : ∃ reported queue,
    v.remember page = { v with reported := reported, queue := queue } := by
  unfold View.remember
  dsimp only
  split_ifs
  · exact ⟨v.reported, v.queue, rfl⟩
  · cases v.queue <;> exact ⟨_, _, rfl⟩
  · exact ⟨_, _, rfl⟩

namespace Sound

/-- A new update and a new memory, which tells what set the update and, while an effect is due,
what set the committed position. -/
lemma update (h : Sound pageCount v) {position : Position} {reported queue : List ℤ}
    (hnew : View.pageOf pageCount position ≠ v.currentPage pageCount →
      Told pageCount reported position)
    (hdue : v.effect = true → Told pageCount v.reported v.position →
      Told pageCount reported v.position) :
    Sound pageCount { v with queued := some position, reported := reported, queue := queue } where
  first := h.first
  quiet := h.quiet
  due heffect hmounted :=
    ⟨(h.due heffect hmounted).1, hdue heffect (h.due heffect hmounted).2⟩
  queued := by
    rintro _ ⟨⟩
    exact hnew
  lands := h.lands

/-- The page of a position that was set. -/
lemma pageOf_clampPercent (pageCount : ℕ) (percentage : ℚ) (source : Source) :
    View.pageOf pageCount { value := clampPercent percentage, source } =
      positionToPage percentage (effectivePageCount pageCount) :=
  positionToPage_clampPercent _ _

lemma report (h : Sound pageCount v)
    (page : { page : ℤ // 1 ≤ page ∧ page ≤ effectivePageCount pageCount })
    (hok : EventMeets v (.report page)) :
    Sound pageCount (v.handleScrollPageChange pageCount page) := by
  obtain ⟨reported, queue, hremember⟩ := remember_eq v page
  have hmem (p : ℤ) : p ∈ reported ↔
      (p = page ∨ p ∈ v.reported) ∧ v.evicted page ≠ some p := by
    rw [← mem_reported_remember, hremember]
  obtain ⟨hown, htracker, hnavigation⟩ := hok
  unfold View.handleScrollPageChange View.setPosition
  rw [hremember]
  refine h.update (fun hchanged => ?_) fun heffect htold => ?_
  · have hpage := pageOf_clampPercent pageCount
      (pageToPosition page (effectivePageCount pageCount)) .tracker
    rw [positionToPage_pageToPosition page.2.1 page.2.2] at hpage
    rw [hpage] at hchanged
    unfold Told
    rw [hpage, hmem]
    simp [hown.resolve_left hchanged]
  · unfold Told at htold ⊢
    rw [hmem]
    cases hsource : v.position.source with
    | tracker =>
      rw [hsource] at htold
      exact iff_of_true ⟨.inr (htold.mpr rfl), htracker heffect hsource⟩ rfl
    | navigation =>
      rw [hsource] at htold
      refine iff_of_false ?_ (by decide)
      rintro ⟨hsame | hold, -⟩
      · exact hnavigation heffect hsource hsame.symm
      · exact absurd (htold.mp hold) (by decide)

lemma goToPage (h : Sound pageCount v) (page : ℤ)
    (hok : EventMeets v (.goToPage page : Event pageCount)) :
    Sound pageCount (v.goToPage pageCount page) := by
  unfold View.goToPage View.setPosition
  refine h.update (fun _ => ?_) fun heffect htold => ?_
  · have hpage := pageOf_clampPercent pageCount
      (pageToPosition (clampPage page (effectivePageCount pageCount))
        (effectivePageCount pageCount)) .navigation
    rw [positionToPage_pageToPosition (one_le_clampPage (one_le_effectivePageCount _))
      clampPage_le] at hpage
    unfold Told
    rw [hpage]
    simp
  · unfold Told at htold ⊢
    rw [List.mem_filter]
    cases hsource : v.position.source with
    | tracker =>
      rw [hsource] at htold
      refine iff_of_true ⟨htold.mpr rfl, ?_⟩ rfl
      exact decide_eq_true (hok heffect hsource).symm
    | navigation =>
      rw [hsource] at htold
      exact iff_of_false (fun hmem => absurd (htold.mp hmem.1) (by decide)) (by decide)

/-- A step of the shell. -/
lemma setPosition (h : Sound pageCount v) {percentage : ℚ}
    (hok : StepMeets pageCount v percentage) :
    Sound pageCount (v.setPosition percentage .navigation) := by
  refine h.update (fun hchanged => ?_) fun _ htold => htold
  rw [pageOf_clampPercent] at hchanged
  unfold Told
  rw [pageOf_clampPercent]
  exact iff_of_false (hok.resolve_left hchanged) nofun

/-- The effect has run, and its run is as it should be. -/
lemma ran (h : Sound pageCount v) {scrolledTo : Option ℤ}
    (hrun : v.previousPageRef ≠ v.currentPage pageCount →
      scrolledTo = match v.position.source with
        | .navigation => some (v.currentPage pageCount)
        | .tracker => none) :
    Sound pageCount { v with
      previousPageRef := v.currentPage pageCount
      mounted := true
      effect := false
      runs := v.runs ++ [{
        page := v.currentPage pageCount
        changed := v.previousPageRef ≠ v.currentPage pageCount
        source := v.position.source
        scrolledTo }] } where
  first := nofun
  quiet _ := rfl
  due := nofun
  queued := h.queued
  lands run hmem hchanged := by
    rcases List.mem_append.mp hmem with hmem | hmem
    · exact h.lands run hmem hchanged
    · obtain rfl := List.mem_singleton.mp hmem
      exact hrun (of_decide_eq_true hchanged)

/-- The effect runs: a page change of a navigation moves the view, and no other does. -/
lemma flushEffects (h : Sound pageCount v) :
    Sound pageCount (v.flushEffects pageCount) ∧ (v.flushEffects pageCount).effect = false := by
  unfold View.flushEffects
  cases heffect : v.effect with
  | false => exact ⟨h, heffect⟩
  | true =>
    refine ⟨?_, rfl⟩
    rw [if_pos rfl]
    unfold View.pageEffect
    dsimp only
    split_ifs with hmounted hguard
    · exact h.ran fun hchanged => absurd (h.first hmounted).2 hchanged
    · refine h.ran fun hchanged => ?_
      have htold := (h.due heffect (by simpa using hmounted)).2
      rw [htold.mp hguard.2]
    · refine h.ran fun hchanged => ?_
      have htold := (h.due heffect (by simpa using hmounted)).2
      have hnot : v.currentPage pageCount ∉ v.reported :=
        fun hmem => hguard ⟨decide_eq_true hchanged, hmem⟩
      cases hsource : v.position.source with
      | navigation => rfl
      | tracker => exact absurd (htold.mpr hsource) hnot

lemma commit (h : Sound pageCount v) : Sound pageCount (v.commit pageCount) := by
  obtain ⟨hflushed, heffect⟩ := h.flushEffects
  unfold View.commit
  dsimp only
  generalize v.flushEffects pageCount = w at hflushed heffect
  cases hqueued : w.queued with
  | none => exact hflushed
  | some queued =>
    have hquiet := hflushed.quiet heffect
    refine ⟨fun hfirst => ?_, fun hsame => ?_, fun hchanged hmounted => ?_, nofun, hflushed.lands⟩
    · exact absurd (heffect.symm.trans (hflushed.first hfirst).1) (by decide)
    · have hpage : View.pageOf pageCount queued = w.currentPage pageCount := by simpa using hsame
      exact hquiet.trans hpage.symm
    · have hne : View.pageOf pageCount queued ≠ w.currentPage pageCount :=
        of_decide_eq_true hchanged
      exact ⟨fun hsame => hne (hsame.symm.trans hquiet), hflushed.queued queued hqueued hne⟩

/-- **An event under the condition keeps the invariant.** -/
theorem step (h : Sound pageCount v) (event : Event pageCount) (hok : EventMeets v event) :
    Sound pageCount (v.step event) := by
  cases event with
  | report page => exact h.report page hok
  | goToPage page => exact h.goToPage page hok
  | arrow forward => exact h.setPosition hok
  | home => exact h.setPosition hok
  | toEnd => exact h.setPosition hok
  | commit => exact h.commit
  | effects => exact h.flushEffects.1

end Sound

/-! ## Runs -/

/-- The view of a reader that opens at a position. -/
def opened (pageCount : ℕ) (percentage : ℚ) : View where
  position := { value := clampPercent percentage, source := .navigation }
  previousPageRef := positionToPage percentage (effectivePageCount pageCount)

/-- **A run under the condition lands.** Every page change of a navigation has moved the view to
its page, and no page change of the tracker has moved it. -/
theorem lands_of_meets (pageCount : ℕ) (percentage : ℚ) (events : List (Event pageCount))
    (h : Guarded.Meets View.step EventMeets (opened pageCount percentage) events) :
    ∀ before, before <+: events → Lands (before.foldl View.step (opened pageCount percentage)) := by
  rintro before ⟨after, rfl⟩
  have hopened : Sound pageCount (opened pageCount percentage) :=
    ⟨fun _ => ⟨rfl, (positionToPage_clampPercent _ _).symm⟩, nofun, nofun, nofun, nofun⟩
  exact (h.of_append.invariant (fun _ event hs hok => hs.step event hok) hopened).lands

/-- The tracker reports the pages 2 and 3 of ten, and `goToPage` goes back to page 2. -/
def wentToReported : List (Event 10) :=
  [.report ⟨2, by decide⟩, .commit, .report ⟨3, by decide⟩, .commit, .effects, .goToPage 2, .commit,
    .effects]

theorem lands_of_meets_goToPage : Lands (wentToReported.foldl View.step (opened 10 0)) :=
  lands_of_meets 10 0 wentToReported (by decide +kernel) wentToReported List.prefix_rfl

/-- The same reports, and the left arrow in place of `goToPage`. -/
def backToReported : List (Event 10) :=
  [.report ⟨2, by decide⟩, .commit, .report ⟨3, by decide⟩, .commit, .arrow false, .commit,
    .effects]

/-- **The step lands nowhere.** Page 2 is committed by a navigation, and the view stays. -/
theorem step_to_reported_page_stays :
    { page := 2, changed := true, source := .navigation, scrolledTo := none } ∈
      (backToReported.foldl View.step (opened 10 0)).runs ∧
    ¬Lands (backToReported.foldl View.step (opened 10 0)) := by
  have hrun : { page := 2, changed := true, source := .navigation, scrolledTo := none } ∈
      (backToReported.foldl View.step (opened 10 0)).runs := by decide +kernel
  exact ⟨hrun, fun hlands => absurd (hlands _ hrun rfl) (by decide)⟩

end PdfReader
end TuxBooks
