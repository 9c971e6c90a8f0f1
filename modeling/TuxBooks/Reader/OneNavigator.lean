import TuxBooks.Reader.Engine

set_option relaxedAutoImplicit false
set_option autoImplicit false

/-!
# One live navigator

Navigators are built by `init` and by moves that find theirs wedged, and `close` can come at any
time (`frontend/src/lib/epub/readiumEngine.ts`). Nothing keeps two builds apart, and a build does
not look whether the handle was closed.

## Main definitions

* `TuxBooks.Readium.OneNavigator` — the property of a state.
* `TuxBooks.Readium.BuildMeets` — the condition on an event.

## Main results

* `TuxBooks.Readium.oneNavigator_of_meets` — the runs under the condition.
* `TuxBooks.Readium.two_moves_two_navigators` — two moves that rebuild at the same time.
-/

namespace TuxBooks

namespace Readium

variable {ℓ π : Type}

/-! ## The property and the condition -/

/-- Nothing waits: no build, no command, no locators, and no destruction. -/
def Engine.Quiet (e : Engine ℓ π) : Prop :=
  e.builds = [] ∧ e.waiting = [] ∧ e.tasks = [] ∧ e.applies = [] ∧
    ∀ navigator ∈ e.destroying, navigator ∈ e.destroyed

/-- **One live navigator**: no two navigators are outside of destruction at once. After `close` none
is created, every one is being destroyed, and once nothing waits every one is destroyed. -/
structure OneNavigator (e : Engine ℓ π) : Prop where
  one : ∀ a < e.created, ∀ b < e.created, a ∉ e.destroying → b ∉ e.destroying → a = b
  noneAfter : ∀ closed ∈ e.closed, e.created = closed
  ending : e.closed ≠ none → ∀ navigator < e.created, navigator ∈ e.destroying
  ended : e.closed ≠ none → e.Quiet → ∀ navigator < e.created, navigator ∈ e.destroyed

/-- The condition on an event. A build begins only on an open handle, and while no other build is
under way; that of `init` comes before any other. A build that has waited goes on to a navigator
only if the handle was not closed. -/
def BuildMeets (p : Publication ℓ π) (e : Engine ℓ π) : Event ℓ → Prop
  | .initResolved => e.init = .resolving → e.builds = [] ∧ e.navigator = none ∧ e.closed = none
  | .turned id => e.Rebuilds p id → e.builds = [] ∧ e.closed = none
  | .waitEnded owner => e.phaseOf owner = some .clearing ∨ e.phaseOf owner = some (.failed false) →
      e.closed = none
  | _ => True

instance (p : Publication ℓ π) (e : Engine ℓ π) : DecidablePred (BuildMeets p e)
  | .initResolved => inferInstanceAs (Decidable (_ → _ ∧ _ ∧ _))
  | .turned _ => inferInstanceAs (Decidable (_ → _ ∧ _))
  | .waitEnded _ => inferInstanceAs (Decidable (_ ∨ _ → _))
  | .init | .loadSettled _ _ | .destroyed _ | .issue _ | .start | .converted _
  | .positionChanged _ | .fire _ | .onRelocate _ | .offRelocate _ | .addHighlight _ _
  | .removeHighlight _ | .applied _ | .close => isTrue trivial

/-! ## The invariant -/

namespace Navigators

/-- The only build that there can be, if there is one, and the only navigator outside of
destruction, if there is one. -/
structure Single (s : Navigators) : Prop where
  one : s.builds.length ≤ 1
  alive : ∀ n < s.created, n ∉ s.destroying → s.navigator = some n
  clearing : ∀ b ∈ s.builds, b.phase = .clearing → s.navigator = none
  failed : ∀ b ∈ s.builds, ∀ retry, b.phase = .failed retry →
    ∀ n < s.created, n ∈ s.destroying
  loading : ∀ b ∈ s.builds, ∀ n retry, b.phase = .loading n retry →
    ∀ m < s.created, m ∉ s.destroying → m = n
  closed : ∀ closed ∈ s.closed, s.created = closed ∧ s.navigator = none

variable {s : Navigators}

/-- Without a current navigator every one is being destroyed. -/
lemma Single.all_destroying (h : s.Single) (hnone : s.navigator = none) :
    ∀ n < s.created, n ∈ s.destroying := by
  intro n hn
  by_contra halive
  have := h.alive n hn halive
  rw [hnone] at this
  cases this

/-- The build of an owner is the only one. -/
lemma Single.builds_eq (h : s.Single) {owner : Owner} {phase : BuildPhase}
    (hphase : s.phaseOf owner = some phase) : s.builds = [{ owner, phase }] := by
  have hmem := mem_of_phaseOf hphase
  have hlength := h.one
  match hbuilds : s.builds with
  | [] => simp [hbuilds] at hmem
  | [b] =>
    rw [hbuilds, List.mem_singleton] at hmem
    rw [hmem]
  | _ :: _ :: _ =>
    rw [hbuilds] at hlength
    simp at hlength

namespace Single

/-- A build of a new navigator, while every other one is being destroyed. -/
lemma create (hall : ∀ n < s.created, n ∈ s.destroying) (hopen : s.closed = none) {owner : Owner}
    (hown : ∀ b ∈ s.builds, b.owner = owner) (retry : Bool) : (s.create owner retry).Single := by
  have hbuilds : (s.create owner retry).builds = [{ owner, phase := .loading s.created retry }] :=
    builds_setBuild owner _ hown
  have halive : ∀ n < s.created + 1, n ∉ s.destroying → n = s.created := by
    intro n hn hnot
    by_contra hne
    exact hnot (hall n (by omega))
  refine ⟨by simp [hbuilds], fun n hn hnot => ?_, fun b hb hphase => ?_,
    fun b hb retry hphase => ?_, fun b hb n retry hphase m hm hnot => ?_, fun c hc => ?_⟩
  · rw [halive n hn hnot]
    rfl
  · rw [hbuilds, List.mem_singleton] at hb
    rw [hb] at hphase
    cases hphase
  · rw [hbuilds, List.mem_singleton] at hb
    rw [hb] at hphase
    cases hphase
  · rw [hbuilds, List.mem_singleton] at hb
    rw [hb] at hphase
    cases hphase
    exact halive m hm hnot
  · exact absurd (hopen.symm.trans hc) (by simp)

/-- A build is over. -/
lemma endBuild (h : s.Single) (owner : Owner) (init : InitPhase) (loaded : List ℕ) :
    ({ s with init := init, loaded := loaded }.endBuild owner).Single where
  one := (List.length_filter_le _ _).trans h.one
  alive := h.alive
  clearing b hb := h.clearing b (List.mem_of_mem_filter hb)
  failed b hb := h.failed b (List.mem_of_mem_filter hb)
  loading b hb := h.loading b (List.mem_of_mem_filter hb)
  closed := h.closed

/-- The load of a build is over. -/
lemma loadSettled (h : s.Single) (owner : Owner) (ok : Bool) : (s.loadSettled owner ok).Single := by
  unfold Navigators.loadSettled
  split
  case h_2 => exact h
  case h_1 navigator retry hphase =>
    have hbuilds := h.builds_eq hphase
    by_cases hok : ok = true
    · rw [if_pos hok]
      exact h.endBuild owner _ _
    · rw [if_neg hok]
      have hset : ((s.destroy navigator).setBuild owner (.failed retry)).builds =
          [{ owner, phase := .failed retry }] :=
        builds_setBuild (s := s.destroy navigator) owner _ fun b hb => by
          rw [show (s.destroy navigator).builds = s.builds from rfl, hbuilds,
            List.mem_singleton] at hb
          rw [hb]
      have hall : ∀ n < s.created, n ∈ navigator :: s.destroying := by
        intro n hn
        by_cases hdestroying : n ∈ s.destroying
        · exact List.mem_cons_of_mem _ hdestroying
        · have hself := h.loading { owner, phase := .loading navigator retry }
            (by rw [hbuilds]; exact List.mem_singleton_self _) navigator retry rfl n hn hdestroying
          rw [hself]
          exact List.mem_cons_self
      refine ⟨by simp [hset], fun n hn hnot => absurd (hall n hn) hnot, fun b hb hphase => ?_,
        fun _ _ _ _ => hall, fun b hb n retry hphase => ?_, h.closed⟩
      · rw [hset, List.mem_singleton] at hb
        rw [hb] at hphase
        cases hphase
      · rw [hset, List.mem_singleton] at hb
        rw [hb] at hphase
        cases hphase

/-- A build has waited. -/
lemma waitEnded (h : s.Single) (owner : Owner)
    (hopen : s.phaseOf owner = some .clearing ∨ s.phaseOf owner = some (.failed false) →
      s.closed = none) : (s.waitEnded owner).Single := by
  have hown {phase : BuildPhase} (hphase : s.phaseOf owner = some phase) :
      ∀ b ∈ s.builds, b.owner = owner := by
    intro b hb
    rw [h.builds_eq hphase, List.mem_singleton] at hb
    rw [hb]
  have hmem {phase : BuildPhase} (hphase : s.phaseOf owner = some phase) :
      { owner, phase } ∈ s.builds := by
    rw [h.builds_eq hphase]
    exact List.mem_singleton_self _
  unfold Navigators.waitEnded
  split
  case h_1 hphase =>
    have hnone := h.clearing _ (hmem hphase) rfl
    exact create (h.all_destroying hnone) (hopen (.inl hphase)) (hown hphase) false
  case h_2 hphase =>
    exact create (h.failed _ (hmem hphase) false rfl) (hopen (.inr hphase)) (hown hphase) true
  case h_3 => exact h.endBuild owner _ _
  case h_4 => exact h

/-- A rebuild begins. -/
lemma rebuild (h : s.Single) (owner : Owner) (hbuilds : s.builds = []) (hopen : s.closed = none) :
    (s.rebuild owner).Single := by
  unfold Navigators.rebuild
  cases hnavigator : s.navigator with
  | none =>
    exact create (h.all_destroying hnavigator) hopen (by simp [hbuilds]) false
  | some stale =>
    dsimp only
    have hset : (({ s with navigator := none }.destroy stale).setBuild owner .clearing).builds =
        [{ owner, phase := .clearing }] := by
      simp [setBuild, destroy, hbuilds]
    have hall : ∀ n < s.created, n ∈ stale :: s.destroying := by
      intro n hn
      by_cases hdestroying : n ∈ s.destroying
      · exact List.mem_cons_of_mem _ hdestroying
      · have hself := h.alive n hn hdestroying
        rw [hnavigator, Option.some.injEq] at hself
        rw [hself]
        exact List.mem_cons_self
    refine ⟨by simp [hset], fun n hn hnot => absurd (hall n hn) hnot, fun _ _ _ => rfl,
      fun _ _ _ _ => hall, fun b hb n retry hphase => ?_, fun c hc => ?_⟩
    · rw [hset, List.mem_singleton] at hb
      rw [hb] at hphase
      cases hphase
    · exact absurd (hopen.symm.trans hc) (by simp)

/-- The handle is closed, perhaps again. -/
lemma close (h : s.Single) : s.closeNavigators.Single := by
  have hclosed (c : ℕ) (hc : some (s.closed.getD s.created) = some c) : s.created = c := by
    cases hs : s.closed with
    | none =>
      rw [hs] at hc
      exact Option.some.inj hc
    | some c' =>
      rw [hs] at hc
      rw [(h.closed c' hs).1]
      exact Option.some.inj hc
  unfold closeNavigators
  cases hnavigator : s.navigator with
  | none =>
    dsimp only
    refine ⟨h.one, fun n hn hnot => ?_, fun _ _ _ => rfl, h.failed, h.loading,
      fun c hc => ⟨hclosed c hc, rfl⟩⟩
    rw [← hnavigator]
    exact h.alive n hn hnot
  | some navigator =>
    dsimp only
    refine ⟨h.one, fun n hn hnot => ?_, fun _ _ _ => rfl, fun b hb retry hphase n hn => ?_,
      fun b hb n retry hphase m hm hnot => ?_, fun c hc => ⟨hclosed c hc, rfl⟩⟩
    · obtain ⟨hne, halive⟩ := not_or.mp (List.mem_cons.not.mp hnot)
      have hself := h.alive n hn halive
      rw [hnavigator, Option.some.injEq] at hself
      exact absurd hself.symm hne
    · exact List.mem_cons_of_mem _ (h.failed b hb retry hphase n hn)
    · exact h.loading b hb n retry hphase m hm fun hold => hnot (List.mem_cons_of_mem _ hold)

end Single

end Navigators

/-! ## Runs -/

variable {e : Engine ℓ π}

/-- **An event under the condition.** -/
theorem single_step (p : Publication ℓ π) (h : e.Single) (event : Event ℓ)
    (hok : BuildMeets p e event) : (e.step p event).Single := by
  rw [show (e.step p event).Single = (e.step p event).toNavigators.Single from rfl,
    e.toNavigators_step p]
  cases event with
  | init =>
    dsimp only
    split_ifs
    · exact ⟨h.one, h.alive, h.clearing, h.failed, h.loading, h.closed⟩
    · exact h
  | initResolved =>
    dsimp only
    unfold Navigators.initResolved
    split_ifs with hresolving
    · obtain ⟨hbuilds, hnone, hopen⟩ := hok hresolving
      have hcreated : (e.create .init false).Single :=
        Navigators.Single.create (h.all_destroying hnone) hopen (by simp [hbuilds]) false
      exact ⟨hcreated.one, hcreated.alive, hcreated.clearing, hcreated.failed, hcreated.loading,
        hcreated.closed⟩
    · exact h
  | loadSettled owner ok => exact h.loadSettled owner ok
  | waitEnded owner => exact h.waitEnded owner hok
  | destroyed navigator =>
    dsimp only
    split_ifs
    · exact ⟨h.one, h.alive, h.clearing, h.failed, h.loading, h.closed⟩
    · exact h
  | turned id =>
    dsimp only
    split_ifs with hrebuilds
    · exact h.rebuild _ (hok hrebuilds).1 (hok hrebuilds).2
    · exact h
  | close => exact h.close
  | _ => exact h

lemma Navigators.Single.oneNavigator (h : e.Single) : OneNavigator e := by
  have hending : e.closed ≠ none → ∀ n < e.created, n ∈ e.destroying := by
    intro hclosed
    obtain ⟨c, hc⟩ := Option.ne_none_iff_exists'.mp hclosed
    exact h.all_destroying (h.closed c hc).2
  refine ⟨fun a ha b hb halive hblive => ?_, fun c hc => (h.closed c hc).1, hending,
    fun hclosed hquiet n hn => hquiet.2.2.2.2 n (hending hclosed n hn)⟩
  exact Option.some.inj ((h.alive a ha halive).symm.trans (h.alive b hb hblive))

/-- **A run under the condition has one live navigator**, and none once the handle is closed. -/
theorem oneNavigator_of_meets (p : Publication ℓ π) (events : List (Event ℓ))
    (h : Guarded.Meets (Engine.step p) (BuildMeets p) (openedEngine ℓ π) events) :
    ∀ before, before <+: events →
      OneNavigator (before.foldl (Engine.step p) (openedEngine ℓ π)) := by
  rintro before ⟨after, rfl⟩
  have hopened : (openedEngine ℓ π).Single :=
    ⟨Nat.zero_le _, nofun, nofun, nofun, nofun, nofun⟩
  have hstep (e : Engine ℓ π) (event : Event ℓ) (hs : e.Single) (hok : BuildMeets p e event) :
      (e.step p event).Single := single_step p hs event hok
  exact (h.of_append.invariant hstep hopened).oneNavigator

/-- A book of one chapter with one position. -/
def oneChapter : Publication ℕ ℕ where
  readingOrder := 1
  positions := [0]
  totalProgression := fun _ => 0
  describe := id
  toLocator := fun target => if target = "epubcfi(/6/2)" then some 0 else none
  isExternal := fun _ => false

/-- A handle that has loaded its navigator. -/
def loadedEvents : List (Event ℕ) := [.init, .initResolved, .loadSettled .init true]

/-- Two moves find the navigator wedged. The first one waits for its destruction while the second
one builds a navigator, and builds another after that. -/
def twoMoves : List (Event ℕ) :=
  loadedEvents ++ [.issue .next, .start, .issue .next, .start, .turned 0, .turned 0, .turned 1,
    .turned 1, .waitEnded (.move 0)]

/-- **Two navigators are alive.** -/
theorem two_moves_two_navigators :
    (twoMoves.foldl (Engine.step oneChapter) (openedEngine ℕ ℕ)).created = 3 ∧
    (twoMoves.foldl (Engine.step oneChapter) (openedEngine ℕ ℕ)).destroying = [0] ∧
    ¬OneNavigator (twoMoves.foldl (Engine.step oneChapter) (openedEngine ℕ ℕ)) := by
  refine ⟨by decide +kernel, by decide +kernel, fun h => ?_⟩
  exact absurd (h.one 1 (by decide +kernel) 2 (by decide +kernel) (by decide +kernel)
    (by decide +kernel)) (by decide)

/-- One move rebuilds the navigator, and the handle is closed. -/
def moveAndClose : List (Event ℕ) :=
  loadedEvents ++ [.issue .next, .start, .turned 0, .turned 0, .waitEnded (.move 0),
    .loadSettled (.move 0) true, .close]

theorem oneNavigator_moveAndClose :
    OneNavigator (moveAndClose.foldl (Engine.step oneChapter) (openedEngine ℕ ℕ)) :=
  oneNavigator_of_meets oneChapter moveAndClose (by decide +kernel) moveAndClose List.prefix_rfl

end Readium
end TuxBooks
