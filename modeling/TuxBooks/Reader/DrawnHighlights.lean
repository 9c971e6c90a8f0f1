import Mathlib.Data.List.Nodup
import TuxBooks.Reader.Engine

set_option relaxedAutoImplicit false
set_option autoImplicit false

/-!
# The drawn highlights

Each change of the highlights converts all of their locators anew and gives the decorations to the
navigator when that is done (`frontend/src/lib/epub/readiumEngine.ts`). Nothing keeps an older run
from ending last.

## Main definitions

* `TuxBooks.Readium.Drawn` — the navigator has the decorations of the stored highlights.
* `TuxBooks.Readium.ApplyMeets` — the condition on an event.

## Main results

* `TuxBooks.Readium.drawn_of_meets` — the runs under the condition.
* `TuxBooks.Readium.removed_highlight_stays_drawn` — a highlight that is added and removed.
-/

namespace TuxBooks

namespace Readium

variable {ℓ π : Type}

/-! ## The property and the condition -/

/-- The decorations of the stored highlights that can be located, each with its colour. -/
def Publication.storedDecorations (p : Publication ℓ π) (highlights : List (String × String)) :
    List (Decoration ℓ) :=
  highlights.zipIdx.filterMap fun (highlight, id) => (p.toLocator highlight.1).map fun locator =>
    { id, locator, color := highlight.2 }

/-- What a navigator was given last. -/
def Drawing.last (d : Drawing ℓ) (navigator : ℕ) : Option (List (Decoration ℓ)) :=
  (d.decorations.find? (·.1 = navigator)).map (·.2)

/-- **Drawn highlights are the stored ones**: once all locators are converted, the navigator that is
loaded and lives was given the decorations of the stored highlights last. -/
def Drawn (p : Publication ℓ π) (e : Engine ℓ π) : Prop :=
  e.applies = [] → ∀ navigator ∈ e.navigator, e.Ready navigator →
    e.toDrawing.last navigator = some (p.storedDecorations e.highlights)

/-- The condition on an event: of the runs that wait for their locators the oldest one ends. -/
def ApplyMeets (e : Engine ℓ π) : Event ℓ → Prop
  | .applied index => index < e.applies.length → index = 0
  | _ => True

instance (e : Engine ℓ π) : DecidablePred (ApplyMeets e)
  | .applied _ => inferInstanceAs (Decidable (_ → _))
  | .init | .initResolved | .loadSettled _ _ | .waitEnded _ | .destroyed _ | .issue _ | .start
  | .converted _ | .turned _ | .positionChanged _ | .fire _ | .onRelocate _ | .offRelocate _
  | .addHighlight _ _ | .removeHighlight _ | .close => isTrue trivial

/-! ## Stored highlights -/

/-- The value of a key that occurs once. -/
lemma lookup_of_mem {highlights : List (String × String)}
    (hnodup : (highlights.map (·.1)).Nodup) {highlight : String × String}
    (hmem : highlight ∈ highlights) : highlights.lookup highlight.1 = some highlight.2 := by
  induction highlights with
  | nil => cases hmem
  | cons first rest ih =>
    rw [List.map_cons, List.nodup_cons] at hnodup
    rw [List.lookup_cons]
    rcases List.mem_cons.mp hmem with rfl | hmem
    · simp
    · have hne : (highlight.1 == first.1) = false := by
        rw [beq_eq_false_iff_ne]
        rintro heq
        exact hnodup.1 (heq ▸ List.mem_map_of_mem hmem)
      rw [hne]
      exact ih hnodup.2 hmem

/-- With one colour for each locator, looking the colours up again changes nothing. -/
lemma decorations_eq_stored (p : Publication ℓ π) {highlights : List (String × String)}
    (hnodup : (highlights.map (·.1)).Nodup) :
    p.decorations (highlights.map (·.1)) highlights = p.storedDecorations highlights := by
  unfold Publication.decorations Publication.storedDecorations
  rw [List.zipIdx_map, List.filterMap_map]
  refine List.filterMap_congr fun ⟨highlight, id⟩ hmem => ?_
  have hlookup := lookup_of_mem hnodup (List.fst_mem_of_mem_zipIdx hmem)
  dsimp only [Function.comp, Prod.map] at hlookup ⊢
  rw [hlookup]
  rfl

variable {d : Drawing ℓ}

lemma nodup_put (h : (d.highlights.map (·.1)).Nodup) (locator color : String) :
    ((d.put locator color).highlights.map (·.1)).Nodup := by
  unfold Drawing.put
  dsimp only
  split_ifs with hold
  · have hkeys : (d.highlights.map fun h => if h.1 = locator then (locator, color) else h).map
        (·.1) = d.highlights.map (·.1) := by
      rw [List.map_map]
      refine List.map_congr_left fun h _ => ?_
      dsimp only [Function.comp]
      split_ifs with heq
      · exact heq.symm
      · rfl
    rw [hkeys]
    exact h
  · rw [List.map_append, List.nodup_append]
    refine ⟨h, List.nodup_singleton _, fun a ha b hb => ?_⟩
    rw [List.mem_singleton.mp hb]
    rintro rfl
    obtain ⟨highlight, hmem, heq⟩ := List.mem_map.mp ha
    exact hold (List.any_eq_true.mpr ⟨highlight, hmem, decide_eq_true heq⟩)

lemma nodup_delete (h : (d.highlights.map (·.1)).Nodup) (locator : String) :
    ((d.delete locator).highlights.map (·.1)).Nodup :=
  h.sublist (List.filter_sublist.map _)

/-! ## The invariant -/

/-- What the navigators know of each other: a new one has not loaded. -/
structure Numbered (s : Navigators) : Prop where
  loaded : ∀ n ∈ s.loaded, n < s.created
  loading : ∀ b ∈ s.builds, ∀ n retry, b.phase = .loading n retry → n < s.created

/-- The newest run is of the highlights that are stored, and without a run they are drawn. -/
structure Current (p : Publication ℓ π) (d : Drawing ℓ) (navigator : ℕ) : Prop where
  newest : ∀ run ∈ d.applies.getLast?, run.keys = d.highlights.map (·.1)
  drawn : d.applies = [] → d.last navigator = some (p.storedDecorations d.highlights)

structure Fresh (p : Publication ℓ π) (e : Engine ℓ π) : Prop where
  nodup : (e.highlights.map (·.1)).Nodup
  numbered : Numbered e.toNavigators
  current : ∀ n ∈ e.navigator, e.Ready n → Current p e.toDrawing n

namespace Numbered

variable {s : Navigators}

/-- New numbers are above the ones that there are. -/
lemma mono (h : Numbered s) {s' : Navigators} (hcreated : s.created ≤ s'.created)
    (hloaded : ∀ n ∈ s'.loaded, n ∈ s.loaded ∨ n < s'.created)
    (hbuilds : ∀ b ∈ s'.builds, b ∈ s.builds ∨
      ∀ n retry, b.phase = .loading n retry → n < s'.created) : Numbered s' where
  loaded n hn := (hloaded n hn).elim (fun hold => (h.loaded n hold).trans_le hcreated) id
  loading b hb n retry hphase :=
    (hbuilds b hb).elim (fun hold => (h.loading b hold n retry hphase).trans_le hcreated)
      fun hnew => hnew n retry hphase

lemma create (h : Numbered s) (owner : Owner) (retry : Bool) : Numbered (s.create owner retry) := by
  refine h.mono (Nat.le_succ _) (fun n hn => .inl hn) fun b hb => ?_
  rcases List.mem_append.mp hb with hb | hb
  · exact .inl (List.mem_of_mem_filter hb)
  · rw [List.mem_singleton.mp hb]
    refine .inr ?_
    rintro _ _ ⟨⟩
    exact Nat.lt_succ_self _

/-- A build waits for something else than a load. -/
lemma setBuild (h : Numbered s) (owner : Owner) {phase : BuildPhase}
    (hphase : ∀ n retry, phase ≠ .loading n retry) : Numbered (s.setBuild owner phase) := by
  refine h.mono le_rfl (fun n hn => .inl hn) fun b hb => ?_
  rcases List.mem_append.mp hb with hb | hb
  · exact .inl (List.mem_of_mem_filter hb)
  · rw [List.mem_singleton.mp hb]
    exact .inr fun n retry heq => absurd heq (hphase n retry)

/-- Nothing else is numbered. -/
lemma congr (h : Numbered s) {s' : Navigators} (hcreated : s'.created = s.created)
    (hloaded : s'.loaded = s.loaded) (hbuilds : s'.builds = s.builds) : Numbered s' :=
  h.mono hcreated.ge (fun _ hn => .inl (hloaded ▸ hn)) fun _ hb => .inl (hbuilds ▸ hb)

lemma rebuild (h : Numbered s) (owner : Owner) : Numbered (s.rebuild owner) := by
  unfold Navigators.rebuild
  split
  case h_1 stale _ =>
    have hstale : Numbered ({ s with navigator := none }.destroy stale) := h.congr rfl rfl rfl
    exact hstale.setBuild owner nofun
  case h_2 => exact h.create owner false

lemma loadSettled (h : Numbered s) (owner : Owner) (ok : Bool) :
    Numbered (s.loadSettled owner ok) := by
  unfold Navigators.loadSettled
  split
  case h_2 => exact h
  case h_1 navigator retry hphase =>
    by_cases hok : ok = true
    · rw [if_pos hok]
      refine h.mono le_rfl (fun n hn => ?_) fun b hb => .inl (List.mem_of_mem_filter hb)
      rcases List.mem_cons.mp hn with rfl | hn
      · exact .inr (h.loading _ (Navigators.mem_of_phaseOf hphase) n retry rfl)
      · exact .inl hn
    · rw [if_neg hok]
      have hdestroyed : Numbered (s.destroy navigator) := h.congr rfl rfl rfl
      exact hdestroyed.setBuild owner nofun

lemma waitEnded (h : Numbered s) (owner : Owner) : Numbered (s.waitEnded owner) := by
  unfold Navigators.waitEnded
  split
  case h_1 => exact h.create owner false
  case h_2 => exact h.create owner true
  case h_3 => exact h.mono le_rfl (fun _ hn => .inl hn) fun b hb => .inl (List.mem_of_mem_filter hb)
  case h_4 => exact h

end Numbered

/-! ## What an event does to the highlights -/

section

variable (p : Publication ℓ π) (e : Engine ℓ π)

lemma toDrawing_attemptMove (id : ℕ) : (e.attemptMove id).toDrawing = e.toDrawing := by
  unfold Engine.attemptMove
  split <;> rfl

lemma toDrawing_run (id : ℕ) (command : Command) :
    (e.run p id command).toDrawing = e.toDrawing := by
  unfold Engine.run
  cases command with
  | next | prev => exact toDrawing_attemptMove _ _
  | goToIndex index | goTo target =>
    dsimp only
    split
    · split_ifs <;> rfl
    · rfl
  | goToTotalProgression fraction =>
    dsimp only
    split <;> rfl

lemma toDrawing_start : (e.start p).toDrawing = e.toDrawing := by
  unfold Engine.start
  split
  · rfl
  · dsimp only
    split_ifs
    · rfl
    · rfl
    · exact toDrawing_run p _ _ _

lemma toDrawing_converted (id : ℕ) : (e.converted p id).toDrawing = e.toDrawing := by
  unfold Engine.converted
  repeat' split
  all_goals rfl

lemma toDrawing_turned (id : ℕ) : (e.turned p id).toDrawing = e.toDrawing := by
  unfold Engine.turned
  repeat' split
  all_goals first | rfl | exact toDrawing_attemptMove _ _

lemma toDrawing_resume (mover : Option ℕ) : (e.resume mover).toDrawing = e.toDrawing := by
  unfold Engine.resume
  repeat' split
  all_goals first | rfl | exact toDrawing_attemptMove _ _

lemma toDrawing_awaitHighlights (id : ℕ) : (e.awaitHighlights id).toDrawing = e.toDrawing := by
  unfold Engine.awaitHighlights
  repeat' split
  all_goals first | rfl | exact toDrawing_attemptMove _ _

lemma toDrawing_threw (owner : Owner) : (e.threw owner).toDrawing = e.toDrawing := by
  unfold Engine.threw
  repeat' split
  all_goals rfl

/-- The move that waits for a build's highlights. -/
def Owner.mover : Owner → Option ℕ
  | .init => none
  | .move id => some id

/-- A build ends with a run of `applyHighlights`. -/
lemma toDrawing_built (owner : Owner) :
    (e.built owner).toDrawing = e.toDrawing.apply e.navigator owner.mover := by
  cases owner with
  | init => rfl
  | move id =>
    change (e.awaitHighlights id).toDrawing.apply (e.awaitHighlights id).navigator _ = _
    rw [toDrawing_awaitHighlights,
      show (e.awaitHighlights id).navigator = e.navigator from
        congrArg Navigators.navigator (e.toNavigators_awaitHighlights id)]
    rfl

/-- The current navigator is none of those that a load is over for. -/
lemma navigator_loadSettled (s : Navigators) (owner : Owner) (ok : Bool) :
    (s.loadSettled owner ok).navigator = s.navigator := by
  unfold Navigators.loadSettled
  split
  · by_cases hok : ok = true
    · rw [if_pos hok]
      rfl
    · rw [if_neg hok]
      rfl
  · rfl

/-- A good load is followed by a run of `applyHighlights`. -/
lemma toDrawing_loadSettled {owner : Owner} {n : ℕ} {retry : Bool}
    (hphase : e.phaseOf owner = some (.loading n retry)) :
    (e.loadSettled owner true).toDrawing = e.toDrawing.apply e.navigator owner.mover := by
  unfold Engine.loadSettled
  rw [hphase]
  dsimp only
  rw [toDrawing_built]
  change e.toDrawing.apply (e.toNavigators.loadSettled owner true).navigator _ = _
  rw [navigator_loadSettled]

lemma toDrawing_loadSettled_of_not (owner : Owner) (ok : Bool)
    (hnot : ok = true → ∀ n retry, e.phaseOf owner ≠ some (.loading n retry)) :
    (e.loadSettled owner ok).toDrawing = e.toDrawing := by
  unfold Engine.loadSettled
  split
  case h_1 n retry hphase => exact absurd hphase (hnot rfl n retry)
  case h_2 => rfl

lemma toDrawing_waitEnded (owner : Owner) : (e.waitEnded owner).toDrawing = e.toDrawing := by
  unfold Engine.waitEnded
  split_ifs
  · exact toDrawing_threw _ _
  · rfl

lemma toDrawing_applied (index : ℕ) : (e.applied p index).toDrawing =
    match e.applies[index]? with
    | some run => e.toDrawing.draw p e.navigator run index
    | none => e.toDrawing := by
  unfold Engine.applied
  cases e.applies[index]? with
  | none => rfl
  | some run => exact toDrawing_resume _ _

end

/-! ## Runs -/

namespace Current

variable {p : Publication ℓ π} {n : ℕ}

/-- A new run is of what is stored. -/
lemma apply (d : Drawing ℓ) {navigator : Option ℕ} (hnavigator : navigator ≠ none)
    (mover : Option ℕ) : Current p (d.apply navigator mover) n := by
  unfold Drawing.apply
  rw [if_neg hnavigator]
  refine ⟨fun run hrun => ?_, fun hnil => absurd hnil (by simp)⟩
  rw [List.getLast?_concat, Option.mem_def, Option.some.injEq] at hrun
  rw [← hrun]

/-- The oldest run ends. -/
lemma draw (h : Current p d n) (hnodup : (d.highlights.map (·.1)).Nodup) {run : Apply}
    (hrun : d.applies[0]? = some run) : Current p (d.draw p (some n) run 0) n := by
  cases happlies : d.applies with
  | nil => simp [happlies] at hrun
  | cons first rest =>
    obtain rfl : first = run := by simpa [happlies] using hrun
    have hrest : (d.draw p (some n) first 0).applies = rest := by
      simp [Drawing.draw, happlies]
    refine ⟨fun newest hnewest => ?_, fun hnil => ?_⟩
    · rw [hrest] at hnewest
      refine h.newest newest ?_
      rw [happlies]
      cases rest with
      | nil => cases hnewest
      | cons second rest => rwa [List.getLast?_cons_cons]
    · rw [hrest] at hnil
      have hkeys := h.newest first (by rw [happlies, hnil]; rfl)
      change ((((n, p.decorations first.keys d.highlights) :: d.decorations).find?
        (·.1 = n)).map (·.2)) = some (p.storedDecorations d.highlights)
      rw [hkeys, decorations_eq_stored p hnodup]
      simp

end Current

namespace Fresh

variable {p : Publication ℓ π} {e : Engine ℓ π}

/-- The navigators change, and none becomes ready that was not. -/
lemma setNavigators (h : Fresh p e) {e' : Engine ℓ π} (hdrawing : e'.toDrawing = e.toDrawing)
    (hnumbered : Numbered e'.toNavigators)
    (hready : ∀ n ∈ e'.navigator, e'.Ready n → n ∈ e.navigator ∧ e.Ready n) : Fresh p e' := by
  refine ⟨?_, hnumbered, fun n hn hn' => ?_⟩
  · rw [show e'.highlights = e.highlights from congrArg Drawing.highlights hdrawing]
    exact h.nodup
  · rw [hdrawing]
    exact h.current n (hready n hn hn').1 (hready n hn hn').2

/-- A new navigator is not ready. -/
lemma create (h : Fresh p e) {e' : Engine ℓ π} (hdrawing : e'.toDrawing = e.toDrawing)
    {owner : Owner} {retry : Bool} (init : InitPhase)
    (hcreate : e'.toNavigators = { e.create owner retry with init }) : Fresh p e' := by
  have hcreated : Numbered (e.create owner retry) := h.numbered.create owner retry
  refine h.setNavigators hdrawing (hcreate ▸ hcreated.congr rfl rfl rfl) fun n hn hready => ?_
  have hnew : n ∈ (e.create owner retry).navigator := by rwa [hcreate] at hn
  have hloaded : n ∈ (e.create owner retry).loaded := by
    have := hready.1
    rwa [hcreate] at this
  obtain rfl : e.created = n := Option.some.inj hnew
  exact absurd (h.numbered.loaded _ hloaded) (lt_irrefl _)

/-- The navigators stay as they are. -/
lemma congr (h : Fresh p e) {e' : Engine ℓ π} (hdrawing : e'.toDrawing = e.toDrawing)
    (hnavigators : e'.toNavigators = e.toNavigators) : Fresh p e' := by
  refine h.setNavigators hdrawing (hnavigators ▸ h.numbered) fun n hn hready => ?_
  unfold Navigators.Ready at hready ⊢
  rw [hnavigators] at hn hready
  exact ⟨hn, hready⟩

/-- A run of what is stored has begun for the navigator that there is. -/
lemma of_apply {e' : Engine ℓ π} {d : Drawing ℓ} {mover : Option ℕ}
    (hnodup : (d.highlights.map (·.1)).Nodup) (hnumbered : Numbered e'.toNavigators)
    (hdrawing : e'.toDrawing = d.apply e'.navigator mover) : Fresh p e' := by
  refine ⟨?_, hnumbered, fun n hn _ => ?_⟩
  · rw [show e'.highlights = (d.apply e'.navigator mover).highlights from
      congrArg Drawing.highlights hdrawing]
    unfold Drawing.apply
    split_ifs <;> exact hnodup
  · rw [hdrawing]
    refine Current.apply d ?_ mover
    rw [Option.mem_def] at hn
    simp [hn]

lemma loadSettled (h : Fresh p e) (owner : Owner) (ok : Bool) :
    Fresh p (e.loadSettled owner ok) := by
  have hnavigators : (e.loadSettled owner ok).toNavigators = e.toNavigators.loadSettled owner ok :=
    e.toNavigators_step p (.loadSettled owner ok)
  have hnumbered : Numbered (e.loadSettled owner ok).toNavigators :=
    hnavigators ▸ h.numbered.loadSettled owner ok
  have hsame : (e.loadSettled owner ok).navigator = e.navigator := by
    rw [hnavigators, navigator_loadSettled]
  by_cases hgood : ok = true ∧ ∃ n retry, e.phaseOf owner = some (.loading n retry)
  · obtain ⟨rfl, n, retry, hphase⟩ := hgood
    have hdrawing : (e.loadSettled owner true).toDrawing =
        e.toDrawing.apply (e.loadSettled owner true).navigator owner.mover := by
      rw [hsame]
      exact toDrawing_loadSettled e hphase
    exact of_apply h.nodup hnumbered hdrawing
  · refine h.setNavigators ?_ hnumbered fun n hn hready => ⟨hsame ▸ hn, ?_⟩
    · exact toDrawing_loadSettled_of_not e owner ok fun hok n retry hphase =>
        hgood ⟨hok, n, retry, hphase⟩
    · unfold Navigators.Ready at hready ⊢
      rw [hnavigators] at hready
      unfold Navigators.loadSettled at hready
      split at hready
      case h_2 => exact hready
      case h_1 navigator retry hphase =>
        rw [if_neg fun hok => hgood ⟨hok, navigator, retry, hphase⟩] at hready
        exact ⟨hready.1, fun hmem => hready.2 (List.mem_cons_of_mem _ hmem)⟩

lemma waitEnded (h : Fresh p e) (owner : Owner) : Fresh p (e.waitEnded owner) := by
  have hdrawing := toDrawing_waitEnded e owner
  have hnavigators : (e.waitEnded owner).toNavigators = e.toNavigators.waitEnded owner :=
    e.toNavigators_step p (.waitEnded owner)
  unfold Navigators.waitEnded at hnavigators
  split at hnavigators
  case h_1 => exact h.create hdrawing _ hnavigators
  case h_2 => exact h.create hdrawing _ hnavigators
  case h_3 =>
    have hended : Numbered (e.waitEnded owner).toNavigators := by
      rw [hnavigators]
      exact h.numbered.mono le_rfl (fun _ hn => .inl hn)
        fun b hb => .inl (List.mem_of_mem_filter hb)
    refine h.setNavigators hdrawing hended fun n hn hready => ?_
    unfold Navigators.Ready at hready ⊢
    rw [hnavigators] at hn hready
    exact ⟨hn, hready⟩
  case h_4 => exact h.congr hdrawing hnavigators

lemma turned (h : Fresh p e) (id : ℕ) : Fresh p (e.turned p id) := by
  have hdrawing := toDrawing_turned p e id
  have hnavigators := e.toNavigators_turned p id
  split_ifs at hnavigators
  swap
  · exact h.congr hdrawing hnavigators
  have hnumbered : Numbered (e.turned p id).toNavigators := hnavigators ▸ h.numbered.rebuild _
  unfold Navigators.rebuild at hnavigators
  split at hnavigators
  case h_1 stale hstale =>
    refine h.setNavigators hdrawing hnumbered fun n hn _ => ?_
    rw [hnavigators] at hn
    cases hn
  case h_2 => exact h.create hdrawing _ hnavigators

lemma close (h : Fresh p e) : Fresh p e.close := by
  have hnavigators : e.close.toNavigators = e.closeNavigators := rfl
  have hnone : e.closeNavigators.navigator = none := by
    unfold Navigators.closeNavigators
    split
    · rfl
    · assumption
  refine h.setNavigators rfl ?_ fun n hn _ => ?_
  · rw [hnavigators]
    unfold Navigators.closeNavigators
    split
    · exact h.numbered.congr rfl rfl rfl
    · exact h.numbered.congr rfl rfl rfl
  · rw [hnavigators, hnone] at hn
    cases hn

lemma applied (h : Fresh p e) {index : ℕ} (hok : index < e.applies.length → index = 0) :
    Fresh p (e.applied p index) := by
  have hdrawing := toDrawing_applied p e index
  have hnavigators := e.toNavigators_applied p index
  split at hdrawing
  case h_2 => exact h.congr hdrawing hnavigators
  case h_1 run hrun =>
    obtain rfl := hok (List.getElem?_eq_some_iff.mp hrun).1
    refine ⟨?_, hnavigators ▸ h.numbered, fun n hn hready => ?_⟩
    · rw [show (e.applied p 0).highlights = (e.toDrawing.draw p e.navigator run 0).highlights from
        congrArg Drawing.highlights hdrawing]
      exact h.nodup
    · unfold Navigators.Ready at hready
      rw [hnavigators] at hn hready
      rw [hdrawing, show e.navigator = some n from hn]
      exact (h.current n hn hready).draw h.nodup hrun

/-- **An event under the condition keeps the invariant.** -/
theorem step (h : Fresh p e) (event : Event ℓ) (hok : ApplyMeets e event) :
    Fresh p (e.step p event) := by
  cases event with
  | init =>
    unfold Engine.step Engine.beginInit
    dsimp only
    split_ifs
    · exact h.setNavigators rfl (h.numbered.congr rfl rfl rfl) fun n hn hready => ⟨hn, hready⟩
    · exact h
  | initResolved =>
    unfold Engine.step Navigators.initResolved
    dsimp only
    split_ifs
    · exact h.create rfl .loading rfl
    · exact h
  | loadSettled owner ok => exact h.loadSettled owner ok
  | waitEnded owner => exact h.waitEnded owner
  | destroyed navigator =>
    unfold Engine.step
    dsimp only
    split_ifs
    · exact h.setNavigators rfl (h.numbered.congr rfl rfl rfl) fun n hn hready => ⟨hn, hready⟩
    · exact h
  | start => exact h.congr (toDrawing_start p e) (e.toNavigators_start p)
  | converted id => exact h.congr (toDrawing_converted p e id) (e.toNavigators_converted p id)
  | turned id => exact h.turned id
  | applied index => exact h.applied hok
  | close => exact h.close
  | addHighlight locator color =>
    exact of_apply (d := e.toDrawing.put locator color) (nodup_put h.nodup locator color)
      h.numbered rfl
  | removeHighlight locator =>
    exact of_apply (d := e.toDrawing.delete locator) (nodup_delete h.nodup locator) h.numbered rfl
  | issue _ | positionChanged _ | fire _ | onRelocate _ | offRelocate _ => exact h.congr rfl rfl

end Fresh

/-- **A run in which the conversions end in the order in which they began draws the stored
highlights.** -/
theorem drawn_of_meets (p : Publication ℓ π) (events : List (Event ℓ))
    (h : Guarded.Meets (Engine.step p) ApplyMeets (openedEngine ℓ π) events) :
    ∀ before, before <+: events → Drawn p (before.foldl (Engine.step p) (openedEngine ℓ π)) := by
  rintro before ⟨after, rfl⟩
  have hopened : Fresh p (openedEngine ℓ π) := ⟨List.nodup_nil, ⟨nofun, nofun⟩, nofun⟩
  have hstep (e : Engine ℓ π) (event : Event ℓ) (hs : Fresh p e) (hok : ApplyMeets e event) :
      Fresh p (e.step p event) := hs.step event hok
  intro hnil n hn hready
  exact ((h.of_append.invariant hstep hopened).current n hn hready).drawn hnil

/-- A book with one place that a highlight can be at. -/
def oneHighlight : Publication ℕ ℕ where
  readingOrder := 1
  positions := [0]
  totalProgression := fun _ => 0
  describe := id
  toLocator := fun locator => if locator = "epubcfi(/6/2)" then some 0 else none
  isExternal := fun _ => false

/-- The navigator of `init` is loaded and drawn, and a highlight is added and removed. -/
def addedAndRemoved : List (Event ℕ) :=
  [.init, .initResolved, .loadSettled .init true, .applied 0,
    .addHighlight "epubcfi(/6/2)" "yellow", .removeHighlight "epubcfi(/6/2)"]

/-- **The removed highlight stays drawn**: the run of the addition ends after the one of the
removal. -/
theorem removed_highlight_stays_drawn :
    let e := (addedAndRemoved ++ [Event.applied 1, .applied 0]).foldl (Engine.step oneHighlight)
      (openedEngine ℕ ℕ)
    e.highlights = [] ∧ e.last 0 = some [{ id := 0, locator := 0, color := "" }] ∧
      ¬Drawn oneHighlight e := by
  intro e
  have hlast : e.last 0 = some [{ id := 0, locator := 0, color := "" }] := by decide +kernel
  refine ⟨by decide +kernel, hlast, fun h => ?_⟩
  have hdrawn := h (by decide +kernel) 0 (by decide +kernel) (by decide +kernel)
  rw [hlast] at hdrawn
  exact absurd hdrawn (by decide +kernel)

theorem drawn_addedAndRemoved :
    Drawn oneHighlight ((addedAndRemoved ++ [Event.applied 0, .applied 0]).foldl
      (Engine.step oneHighlight) (openedEngine ℕ ℕ)) :=
  drawn_of_meets oneHighlight (addedAndRemoved ++ [Event.applied 0, .applied 0])
    (by decide +kernel) _
    List.prefix_rfl

end Readium
end TuxBooks
