import TuxBooks.Reader.Engine

set_option relaxedAutoImplicit false
set_option autoImplicit false

/-!
# The order of navigation commands

The commands of the reader wait for `initChain` and then go on one after another
(`frontend/src/lib/epub/readiumEngine.ts`). A target that is converted first can be overtaken, and a
command that finds no navigator is dropped.

## Main definitions

* `TuxBooks.Readium.Ordered` — every command reaches a navigator that is ready, in order.
* `TuxBooks.Readium.CommandMeets` — the condition on an event.

## Main results

* `TuxBooks.Readium.ordered_of_meets` — the runs under the condition.
* `TuxBooks.Readium.converted_target_overtaken` — a converted target and a spine index.
-/

namespace TuxBooks

namespace Readium

variable {ℓ π : Type}

/-! ## The property and the condition -/

/-- A command that has a place to go to. -/
def Located (p : Publication ℓ π) : Command → Prop
  | .goToIndex index => index < p.readingOrder
  | .goTo target => p.isExternal target = false ∧ (p.toLocator target).isSome = true
  | .goToTotalProgression fraction =>
    (p.locatorForTotalProgression (clamp01 fraction)).isSome = true
  | .next | .prev => True

/-- **Commands are neither lost nor reordered**: the navigators are called in the order in which the
commands were issued, and only once they are ready. A command that is done has reached one. -/
structure Ordered (p : Publication ℓ π) (c : Commands) : Prop where
  order : (c.received.map (·.id)).Pairwise (· ≤ ·)
  ready : ∀ r ∈ c.received, r.ready = true
  delivered : ∀ f ∈ c.finished, Located p f.2 → f.1 ∈ c.received.map (·.id)

/-- The command's target is being converted. -/
def Phase.converts : Phase → Bool
  | .converting _ => true
  | _ => false

/-- The condition on an event. A command goes on only while no other one is under way, and to a
navigator that is ready. The handle is closed only while no target is converted. -/
def CommandMeets (e : Engine ℓ π) : Event ℓ → Prop
  | .start => ∀ w ∈ e.waiting.head?, (w.onInit = true → e.init ≠ .loading) →
      e.tasks = [] ∧ ∃ navigator ∈ e.navigator, e.Ready navigator
  | .close => ∀ t ∈ e.tasks, t.phase.converts = false
  | _ => True

instance (e : Engine ℓ π) : DecidablePred (CommandMeets e)
  | .start => inferInstanceAs (Decidable (∀ w ∈ e.waiting.head?, _ → _ ∧ _))
  | .close => inferInstanceAs (Decidable (∀ t ∈ e.tasks, _ = false))
  | .init | .initResolved | .loadSettled _ _ | .waitEnded _ | .destroyed _ | .issue _
  | .converted _ | .turned _ | .positionChanged _ | .fire _ | .onRelocate _ | .offRelocate _
  | .addHighlight _ _ | .removeHighlight _ | .applied _ => isTrue trivial

/-! ## The commands -/

/-- The invariant of the commands. At most one is under way, after all that were received and before
all that wait. -/
structure Logged (p : Publication ℓ π) (c : Commands) : Prop where
  single : c.tasks.length ≤ 1
  converting : ∀ t ∈ c.tasks, ∀ n, t.phase = .converting n → ∃ target, t.command = .goTo target
  moving : ∀ t ∈ c.tasks, (∀ n, t.phase ≠ .converting n) →
    t.id ∈ c.received.map (·.id) ∧ ∀ target, t.command ≠ .goTo target
  waitingOrder : (c.waiting.map (·.id)).Pairwise (· < ·)
  waitingIssued : ∀ w ∈ c.waiting, w.id < c.issued
  tasksFirst : ∀ t ∈ c.tasks, t.id < c.issued ∧ ∀ w ∈ c.waiting, t.id < w.id
  receivedFirst : ∀ r ∈ c.received, r.id < c.issued ∧ (∀ w ∈ c.waiting, r.id < w.id) ∧
    ∀ t ∈ c.tasks, r.id ≤ t.id
  ordered : Ordered p c

namespace Logged

variable {p : Publication ℓ π} {c : Commands}

lemma issue (h : Logged p c) (command : Command) (onInit : Bool) :
    Logged p (c.issue command onInit) where
  single := h.single
  converting := h.converting
  moving := h.moving
  waitingOrder := by
    unfold Commands.issue
    rw [List.map_append, List.pairwise_append]
    refine ⟨h.waitingOrder, List.pairwise_singleton _ _, fun a ha b hb => ?_⟩
    obtain ⟨w, hw, rfl⟩ := List.mem_map.mp ha
    obtain rfl := List.mem_singleton.mp hb
    exact h.waitingIssued w hw
  waitingIssued w hw := by
    rcases List.mem_append.mp hw with hw | hw
    · exact Nat.lt_succ_of_lt (h.waitingIssued w hw)
    · rw [List.mem_singleton.mp hw]
      exact Nat.lt_succ_self _
  tasksFirst t ht := by
    obtain ⟨hissued, hbefore⟩ := h.tasksFirst t ht
    refine ⟨Nat.lt_succ_of_lt hissued, fun w hw => ?_⟩
    rcases List.mem_append.mp hw with hw | hw
    · exact hbefore w hw
    · rw [List.mem_singleton.mp hw]
      exact hissued
  receivedFirst r hr := by
    obtain ⟨hissued, hbefore, htasks⟩ := h.receivedFirst r hr
    refine ⟨Nat.lt_succ_of_lt hissued, fun w hw => ?_, htasks⟩
    rcases List.mem_append.mp hw with hw | hw
    · exact hbefore w hw
    · rw [List.mem_singleton.mp hw]
      exact hissued
  ordered := ⟨h.ordered.order, h.ordered.ready, h.ordered.delivered⟩

/-- The place of a command between those that were received and those that wait. -/
structure Turn (c : Commands) (id : ℕ) : Prop where
  issued : id < c.issued
  received : ∀ r ∈ c.received, r.id ≤ id
  waiting : ∀ w ∈ c.waiting, id < w.id
  tasks : ∀ t ∈ c.tasks, t.id = id

/-- The turn of the command that is under way. -/
lemma turn (h : Logged p c) {t : Task} (ht : t ∈ c.tasks) : Turn c t.id := by
  refine ⟨(h.tasksFirst t ht).1, fun r hr => (h.receivedFirst r hr).2.2 t ht,
    (h.tasksFirst t ht).2, fun t' ht' => ?_⟩
  have hsingle := h.single
  match htasks : c.tasks with
  | [] => simp [htasks] at ht
  | [only] =>
    rw [htasks, List.mem_singleton] at ht ht'
    rw [ht, ht']
  | _ :: _ :: _ =>
    rw [htasks] at hsingle
    simp at hsingle

/-- A navigator that is ready gets the call of the command whose turn it is. -/
lemma receive (h : Logged p c) {id : ℕ} (hturn : Turn c id) (navigator : ℕ) :
    Logged p (c.receive id navigator true) where
  single := h.single
  converting := h.converting
  moving t ht hphase := by
    obtain ⟨hmem, hcommand⟩ := h.moving t ht hphase
    refine ⟨?_, hcommand⟩
    unfold Commands.receive
    rw [List.map_append]
    exact List.mem_append_left _ hmem
  waitingOrder := h.waitingOrder
  waitingIssued := h.waitingIssued
  tasksFirst := h.tasksFirst
  receivedFirst r hr := by
    rcases List.mem_append.mp hr with hr | hr
    · exact h.receivedFirst r hr
    · rw [List.mem_singleton.mp hr]
      exact ⟨hturn.issued, hturn.waiting, fun t ht => (hturn.tasks t ht).ge⟩
  ordered := by
    refine ⟨?_, fun r hr => ?_, fun f hf hlocated => ?_⟩
    · unfold Commands.receive
      rw [List.map_append, List.pairwise_append]
      refine ⟨h.ordered.order, List.pairwise_singleton _ _, fun a ha b hb => ?_⟩
      obtain ⟨r, hr, rfl⟩ := List.mem_map.mp ha
      obtain rfl := List.mem_singleton.mp hb
      exact hturn.received r hr
    · rcases List.mem_append.mp hr with hr | hr
      · exact h.ordered.ready r hr
      · rw [List.mem_singleton.mp hr]
    · unfold Commands.receive
      rw [List.map_append]
      exact List.mem_append_left _ (h.ordered.delivered f hf hlocated)

/-- A command is done that has reached a navigator, or has no place to go to. -/
lemma finish (h : Logged p c) {id : ℕ} {command : Command}
    (hdone : Located p command → id ∈ c.received.map (·.id)) :
    Logged p (c.finish id command) where
  single := (List.length_filter_le _ _).trans h.single
  converting t ht := h.converting t (List.mem_of_mem_filter ht)
  moving t ht := h.moving t (List.mem_of_mem_filter ht)
  waitingOrder := h.waitingOrder
  waitingIssued := h.waitingIssued
  tasksFirst t ht := h.tasksFirst t (List.mem_of_mem_filter ht)
  receivedFirst r hr := by
    obtain ⟨hissued, hwaiting, htasks⟩ := h.receivedFirst r hr
    exact ⟨hissued, hwaiting, fun t ht => htasks t (List.mem_of_mem_filter ht)⟩
  ordered := by
    refine ⟨h.ordered.order, h.ordered.ready, fun f hf hlocated => ?_⟩
    rcases List.mem_append.mp hf with hf | hf
    · exact h.ordered.delivered f hf hlocated
    · rw [List.mem_singleton.mp hf] at hlocated ⊢
      exact hdone hlocated

/-- The command whose turn it is waits for its next step. -/
lemma setTask (h : Logged p c) {task : Task} (hturn : Turn c task.id)
    (hconverting : ∀ n, task.phase = .converting n → ∃ target, task.command = .goTo target)
    (hmoving : (∀ n, task.phase ≠ .converting n) →
      task.id ∈ c.received.map (·.id) ∧ ∀ target, task.command ≠ .goTo target) :
    Logged p (c.setTask task) := by
  have hnone : c.tasks.filter (·.id ≠ task.id) = [] := by
    rw [List.filter_eq_nil_iff]
    intro t ht
    simpa using hturn.tasks t ht
  have htasks : (c.setTask task).tasks = [task] := by
    simp only [Commands.setTask, hnone, List.nil_append]
  have hmem {t : Task} (ht : t ∈ (c.setTask task).tasks) : t = task := by
    rwa [htasks, List.mem_singleton] at ht
  refine ⟨by simp [htasks], fun t ht => ?_, fun t ht => ?_, h.waitingOrder, h.waitingIssued,
    fun t ht => ?_, fun r hr => ?_,
    ⟨h.ordered.order, h.ordered.ready, h.ordered.delivered⟩⟩
  · rw [hmem ht]
    exact hconverting
  · rw [hmem ht]
    exact hmoving
  · rw [hmem ht]
    exact ⟨hturn.issued, hturn.waiting⟩
  · obtain ⟨hissued, hwaiting, -⟩ := h.receivedFirst r hr
    refine ⟨hissued, hwaiting, fun t ht => ?_⟩
    rw [hmem ht]
    exact hturn.received r hr

/-- The first command that waits has its turn, with no other one under way. -/
lemma next (h : Logged p c) {w : Waiting} {rest : List Waiting} (hwaiting : c.waiting = w :: rest)
    (htasks : c.tasks = []) :
    Logged p { c with waiting := rest } ∧ Turn { c with waiting := rest } w.id := by
  have hmem {w' : Waiting} (hw' : w' ∈ rest) : w' ∈ c.waiting := by
    rw [hwaiting]
    exact List.mem_cons_of_mem _ hw'
  have horder := h.waitingOrder
  rw [hwaiting, List.map_cons, List.pairwise_cons] at horder
  have hfirst : w ∈ c.waiting := by
    rw [hwaiting]
    exact List.mem_cons_self
  refine ⟨⟨h.single, h.converting, h.moving, horder.2, fun w' hw' => h.waitingIssued w' (hmem hw'),
    fun t ht => ?_, fun r hr => ?_, ⟨h.ordered.order, h.ordered.ready, h.ordered.delivered⟩⟩,
    ⟨h.waitingIssued w hfirst, fun r hr => ?_,
    fun w' hw' => horder.1 _ (List.mem_map_of_mem hw'), fun t ht => ?_⟩⟩
  · exact ⟨(h.tasksFirst t ht).1, fun w' hw' => (h.tasksFirst t ht).2 w' (hmem hw')⟩
  · obtain ⟨hissued, hbefore, ht⟩ := h.receivedFirst r hr
    exact ⟨hissued, fun w' hw' => hbefore w' (hmem hw'), ht⟩
  · exact ((h.receivedFirst r hr).2.1 w hfirst).le
  · rw [show ({ c with waiting := rest } : Commands).tasks = c.tasks from rfl, htasks] at ht
    cases ht

end Logged

/-! ## The navigators -/

/-- The invariant of the navigators. Only `init` builds before its load is good, and after that only
the move that is under way; a command under way has a navigator that is ready, or none after
`close`. -/
structure Staged (s : Navigators) (tasks : List Task) : Prop where
  early : s.init = .idle ∨ s.init = .resolving ∨ s.init = .failed → s.builds = []
  unloaded : s.init ≠ .loaded → s.loaded = [] ∧ tasks = []
  byInit : s.init = .loading → ∀ b ∈ s.builds, b.owner = .init
  byMove : s.init = .loaded → ∀ b ∈ s.builds, ∃ t ∈ tasks, b.owner = .move t.id ∧
    t.phase = .rebuilding
  known : ∀ n ∈ s.navigator, n < s.created
  destroying : ∀ n ∈ s.destroying, n < s.created
  fresh : ∀ b ∈ s.builds, ∀ n retry, b.phase = .loading n retry →
    n < s.created ∧ ∀ m ∈ s.navigator, m = n ∧ m ∉ s.destroying
  steady : ∀ t ∈ tasks, t.phase ≠ .rebuilding → ∀ n ∈ s.navigator, s.Ready n
  converting : ∀ t ∈ tasks, ∀ n, t.phase = .converting n → s.Ready n

namespace Staged

variable {s : Navigators} {tasks : List Task}

/-- Two builds have one owner. -/
lemma sameOwner (h : Staged s tasks) (hsingle : tasks.length ≤ 1) {b b' : Build}
    (hb : b ∈ s.builds) (hb' : b' ∈ s.builds) : b'.owner = b.owner := by
  cases hinit : s.init with
  | idle => simp [h.early (.inl hinit)] at hb
  | resolving => simp [h.early (.inr (.inl hinit))] at hb
  | failed => simp [h.early (.inr (.inr hinit))] at hb
  | loading => rw [h.byInit hinit b hb, h.byInit hinit b' hb']
  | loaded =>
    obtain ⟨t, ht, howner, -⟩ := h.byMove hinit b hb
    obtain ⟨t', ht', howner', -⟩ := h.byMove hinit b' hb'
    rw [howner, howner']
    match tasks, hsingle with
    | [only], _ => rw [List.mem_singleton.mp ht, List.mem_singleton.mp ht']

/-- A command that is not rebuilding has no build beside it. -/
lemma builds_nil (h : Staged s tasks) (hsingle : tasks.length ≤ 1) {t : Task} (ht : t ∈ tasks)
    (hphase : t.phase ≠ .rebuilding) : s.builds = [] := by
  have hloaded : s.init = .loaded := by
    by_contra hnot
    rw [(h.unloaded hnot).2] at ht
    cases ht
  rw [List.eq_nil_iff_forall_not_mem]
  intro b hb
  obtain ⟨t', ht', -, hphase'⟩ := h.byMove hloaded b hb
  match tasks, hsingle with
  | [only], _ =>
    rw [List.mem_singleton] at ht ht'
    rw [ht, ← ht'] at hphase
    exact hphase hphase'

/-- A build has no other command beside it. -/
lemma phase_eq (h : Staged s tasks) (hsingle : tasks.length ≤ 1) {b : Build} (hb : b ∈ s.builds)
    {t : Task} (ht : t ∈ tasks) : t.phase = .rebuilding := by
  by_contra hphase
  rw [h.builds_nil hsingle ht hphase] at hb
  cases hb

/-- Only `init` that loads and a move that rebuilds have a build. -/
lemma init_of_build (h : Staged s tasks) {b : Build} (hb : b ∈ s.builds) :
    s.init = .loading ∨ s.init = .loaded := by
  cases hinit : s.init with
  | idle => simp [h.early (.inl hinit)] at hb
  | resolving => simp [h.early (.inr (.inl hinit))] at hb
  | failed => simp [h.early (.inr (.inr hinit))] at hb
  | loading => exact .inl rfl
  | loaded => exact .inr rfl

/-- A command goes on, or takes its next step, beside navigators that stay. -/
lemma setTasks (h : Staged s tasks) (hinit : s.init = .loaded) (hbuilds : s.builds = [])
    (hsteady : ∀ n ∈ s.navigator, s.Ready n) {task : Task}
    (hconverting : ∀ n, task.phase = .converting n → s.Ready n) : Staged s [task] where
  early := h.early
  unloaded hnot := absurd hinit hnot
  byInit := h.byInit
  byMove _ b hb := by
    rw [hbuilds] at hb
    cases hb
  known := h.known
  destroying := h.destroying
  fresh := h.fresh
  steady _ _ _ := hsteady
  converting t ht := by
    rw [List.mem_singleton.mp ht]
    exact hconverting

/-- A command is done. -/
lemma mono (h : Staged s tasks) (hbuilds : s.builds = []) {tasks' : List Task}
    (hsub : ∀ t ∈ tasks', t ∈ tasks) : Staged s tasks' where
  early := h.early
  unloaded hnot := by
    obtain ⟨hloaded, htasks⟩ := h.unloaded hnot
    refine ⟨hloaded, List.eq_nil_iff_forall_not_mem.mpr fun t ht => ?_⟩
    have := hsub t ht
    rw [htasks] at this
    cases this
  byInit := h.byInit
  byMove _ b hb := by
    rw [hbuilds] at hb
    cases hb
  known := h.known
  destroying := h.destroying
  fresh := h.fresh
  steady t ht := h.steady t (hsub t ht)
  converting t ht := h.converting t (hsub t ht)

/-- What a build belongs to: the load of `init`, or the move that is under way. -/
def Belongs (owner : Owner) (init : InitPhase) (loaded : List ℕ) (tasks : List Task) : Prop :=
  (init = .loading ∧ owner = .init ∧ loaded = [] ∧ tasks = []) ∨
    (init = .loaded ∧ ∃ t, tasks = [t] ∧ owner = .move t.id ∧ t.phase = .rebuilding)

lemma belongs (h : Staged s tasks) (hsingle : tasks.length ≤ 1) {b : Build} (hb : b ∈ s.builds) :
    Belongs b.owner s.init s.loaded tasks := by
  rcases h.init_of_build hb with hinit | hinit
  · obtain ⟨hloaded, htasks⟩ := h.unloaded (by simp [hinit])
    exact .inl ⟨hinit, h.byInit hinit b hb, hloaded, htasks⟩
  · obtain ⟨t, ht, howner, hphase⟩ := h.byMove hinit b hb
    refine .inr ⟨hinit, t, ?_, howner, hphase⟩
    match tasks, hsingle with
    | [only], _ => rw [List.mem_singleton.mp ht]

/-- One build and what it belongs to. -/
lemma of_build {b : Build} (hbuilds : s.builds = [b])
    (hbelongs : Belongs b.owner s.init s.loaded tasks)
    (hknown : ∀ n ∈ s.navigator, n < s.created) (hdestroying : ∀ n ∈ s.destroying, n < s.created)
    (hfresh : ∀ n retry, b.phase = .loading n retry →
      n < s.created ∧ ∀ m ∈ s.navigator, m = n ∧ m ∉ s.destroying) : Staged s tasks := by
  have hmem {b' : Build} (hb' : b' ∈ s.builds) : b' = b := by
    rwa [hbuilds, List.mem_singleton] at hb'
  rcases hbelongs with ⟨hinit, howner, hloaded, htasks⟩ | ⟨hinit, t, htasks, howner, hphase⟩
  · refine ⟨by simp [hinit], fun _ => ⟨hloaded, htasks⟩, fun _ b' hb' => hmem hb' ▸ howner,
      by simp [hinit], hknown, hdestroying, fun b' hb' => hmem hb' ▸ hfresh, ?_, ?_⟩
    · simp [htasks]
    · simp [htasks]
  · refine ⟨by simp [hinit], by simp [hinit], by simp [hinit],
      fun _ b' hb' => ⟨t, by simp [htasks], hmem hb' ▸ howner, hphase⟩, hknown, hdestroying,
      fun b' hb' => hmem hb' ▸ hfresh, ?_, ?_⟩
    · simp [htasks, hphase]
    · simp [htasks, hphase]

/-- A navigator is created. -/
lemma create {owner : Owner} (hown : ∀ b ∈ s.builds, b.owner = owner) (retry : Bool)
    {init : InitPhase} (hbelongs : Belongs owner init s.loaded tasks)
    (hdestroying : ∀ n ∈ s.destroying, n < s.created) :
    Staged { s.create owner retry with init := init } tasks := by
  have hbuilds : (s.create owner retry).builds = [{ owner, phase := .loading s.created retry }] :=
    Navigators.builds_setBuild owner _ hown
  refine of_build hbuilds hbelongs ?_ (fun n hn => Nat.lt_succ_of_lt (hdestroying n hn)) ?_
  · rintro _ ⟨⟩
    exact Nat.lt_succ_self _
  · rintro _ _ ⟨⟩
    refine ⟨Nat.lt_succ_self _, ?_⟩
    rintro _ ⟨⟩
    exact ⟨rfl, fun hmem => absurd (hdestroying _ hmem) (lt_irrefl _)⟩

/-- A good load leaves a navigator that is ready, unless the handle was closed. -/
lemma loaded (h : Staged s tasks) (hsingle : tasks.length ≤ 1) {owner : Owner} {navigator : ℕ}
    {retry : Bool} (hphase : s.phaseOf owner = some (.loading navigator retry)) :
    Staged (s.loadSettled owner true) tasks ∧ (s.loadSettled owner true).builds = [] ∧
      (s.loadSettled owner true).navigator = s.navigator ∧
      ∀ n ∈ s.navigator, (s.loadSettled owner true).Ready n := by
  have hb := Navigators.mem_of_phaseOf hphase
  have hbuilds : (s.loadSettled owner true).builds = [] := by
    simp only [Navigators.loadSettled, hphase, if_true]
    exact Navigators.builds_endBuild owner fun b hb' => h.sameOwner hsingle hb hb'
  have hinit : (s.loadSettled owner true).init = .loaded := by
    simp only [Navigators.loadSettled, hphase, if_true, Navigators.endBuild]
    split_ifs with howner
    · rfl
    · rcases h.belongs hsingle hb with ⟨-, hinit, -⟩ | ⟨hinit, -⟩
      · exact absurd hinit howner
      · exact hinit
  have hready : ∀ n ∈ s.navigator, (s.loadSettled owner true).Ready n := by
    intro n hn
    obtain ⟨rfl, hnot⟩ := (h.fresh _ hb navigator retry rfl).2 n hn
    simp only [Navigators.loadSettled, hphase, if_true]
    exact ⟨List.mem_cons_self, hnot⟩
  have hkept : (s.loadSettled owner true).navigator = s.navigator ∧
      (s.loadSettled owner true).created = s.created ∧
      (s.loadSettled owner true).destroying = s.destroying := by
    simp only [Navigators.loadSettled, hphase, if_true]
    exact ⟨rfl, rfl, rfl⟩
  refine ⟨⟨fun _ => hbuilds, fun hnot => absurd hinit hnot, ?_, ?_, ?_, ?_, ?_, ?_, ?_⟩, hbuilds,
    hkept.1, hready⟩
  · simp [hbuilds]
  · simp [hbuilds]
  · rw [hkept.1, hkept.2.1]
    exact h.known
  · rw [hkept.2.2, hkept.2.1]
    exact h.destroying
  · simp [hbuilds]
  · exact fun t ht hnot => absurd (h.phase_eq hsingle hb ht) hnot
  · intro t ht n hn
    rw [h.phase_eq hsingle hb ht] at hn
    cases hn

/-- A load that was no good. -/
lemma notLoaded (h : Staged s tasks) (hsingle : tasks.length ≤ 1) (owner : Owner) :
    Staged (s.loadSettled owner false) tasks := by
  unfold Navigators.loadSettled
  split
  case h_2 => exact h
  case h_1 navigator retry hphase =>
    have hb := Navigators.mem_of_phaseOf hphase
    have hbelongs : Belongs owner s.init s.loaded tasks := h.belongs hsingle hb
    rw [if_neg (by decide)]
    refine of_build (Navigators.builds_setBuild (s := s.destroy navigator) owner _
      fun b hb' => h.sameOwner hsingle hb hb') hbelongs h.known ?_ ?_
    · intro n hn
      rcases List.mem_cons.mp hn with rfl | hn
      · exact (h.fresh _ hb n retry rfl).1
      · exact h.destroying n hn
    · rintro _ _ ⟨⟩

/-- A build has waited for a destruction. -/
lemma waitEnded (h : Staged s tasks) (hsingle : tasks.length ≤ 1) (owner : Owner) :
    Staged (s.waitEnded owner) tasks ∧
      (s.phaseOf owner = some (.failed true) → (s.waitEnded owner).builds = []) := by
  have hcreate {phase : BuildPhase} (hphase : s.phaseOf owner = some phase) (retry : Bool) :
      Staged (s.create owner retry) tasks := by
    have hb := Navigators.mem_of_phaseOf hphase
    exact create (fun b hb' => h.sameOwner hsingle hb hb') retry (h.belongs hsingle hb)
      h.destroying
  unfold Navigators.waitEnded
  split
  case h_1 hphase => exact ⟨hcreate hphase false, by simp [hphase]⟩
  case h_2 hphase => exact ⟨hcreate hphase true, by simp [hphase]⟩
  case h_3 hphase =>
    have hb := Navigators.mem_of_phaseOf hphase
    have hbuilds (init : InitPhase) : ({ s with init := init }.endBuild owner).builds = [] :=
      Navigators.builds_endBuild (s := { s with init := init }) owner
        fun b hb' => h.sameOwner hsingle hb hb'
    refine ⟨⟨fun _ => hbuilds _, fun hnot => ?_, ?_, ?_, h.known, h.destroying, ?_, ?_, ?_⟩,
      fun _ => hbuilds _⟩
    · rcases h.belongs hsingle hb with ⟨-, -, hloaded, htasks⟩ | ⟨hinit, t, -, howner, -⟩
      · exact ⟨hloaded, htasks⟩
      · have hkept : owner ≠ .init := by
          rw [show owner = .move t.id from howner]
          nofun
        simp only [Navigators.endBuild, if_neg hkept] at hnot
        exact absurd hinit hnot
    · simp [hbuilds]
    · simp [hbuilds]
    · simp [hbuilds]
    · exact fun t ht hnot => absurd (h.phase_eq hsingle hb ht) hnot
    · intro t ht n hn
      rw [h.phase_eq hsingle hb ht] at hn
      cases hn
  case h_4 hnone => exact ⟨h, fun hphase => absurd hphase (hnone ·)⟩

end Staged

/-! ## Runs -/

/-- The invariant of the runs that meet the condition. -/
structure Orderly (p : Publication ℓ π) (e : Engine ℓ π) : Prop where
  staged : Staged e.toNavigators e.tasks
  logged : Logged p e.toCommands

section

variable {p : Publication ℓ π} {e : Engine ℓ π}

namespace Orderly

/-- Only the highlights and the relocates differ. -/
lemma congr (h : Orderly p e) {e' : Engine ℓ π} (hnavigators : e'.toNavigators = e.toNavigators)
    (hcommands : e'.toCommands = e.toCommands) : Orderly p e' := by
  refine ⟨?_, ?_⟩
  · rw [hnavigators, show e'.tasks = e.tasks from congrArg Commands.tasks hcommands]
    exact h.staged
  · rw [hcommands]
    exact h.logged

/-- Without a build the navigators that a command finds are ready. -/
lemma steady (h : Orderly p e) {t : Task} (ht : t ∈ e.tasks) (hphase : t.phase ≠ .rebuilding) :
    e.builds = [] ∧ ∀ n ∈ e.navigator, e.Ready n :=
  ⟨h.staged.builds_nil h.logged.single ht hphase, h.staged.steady t ht hphase⟩

/-- The only task after one was set. -/
lemma tasks_setTask {c : Commands} (task : Task) (hturn : Logged.Turn c task.id) :
    (c.setTask task).tasks = [task] := by
  have hnone : c.tasks.filter (·.id ≠ task.id) = [] := by
    rw [List.filter_eq_nil_iff]
    intro t ht
    simpa using hturn.tasks t ht
  simp only [Commands.setTask, hnone, List.nil_append]

/-- The move that is under way takes its next step. -/
lemma setTask (h : Orderly p e) (task : Task) {t : Task} (ht : t ∈ e.tasks) (hid : task.id = t.id)
    (hcommand : task.command = t.command) (hmove : ∀ n, t.phase ≠ .converting n)
    (hphase : task.phase.converts = false) (hbuilds : e.builds = [])
    (hsteady : ∀ n ∈ e.navigator, e.Ready n) : Orderly p (e.setTask task) := by
  have hturn : Logged.Turn e.toCommands task.id := hid ▸ h.logged.turn ht
  refine ⟨?_, h.logged.setTask hturn (fun n hn => ?_) fun _ => ?_⟩
  · have hinit : e.init = .loaded := by
      by_contra hnot
      rw [(h.staged.unloaded hnot).2] at ht
      cases ht
    change Staged e.toNavigators (e.toCommands.setTask task).tasks
    rw [tasks_setTask _ hturn]
    refine h.staged.setTasks hinit hbuilds hsteady fun n hn => ?_
    rw [hn] at hphase
    cases hphase
  · rw [hn] at hphase
    cases hphase
  · rw [hid, hcommand]
    exact h.logged.moving t ht hmove

/-- The command whose turn it is calls the navigator. -/
lemma attemptMove (h : Orderly p e) {id : ℕ} (hturn : Logged.Turn e.toCommands id)
    (hsteady : ∀ n ∈ e.navigator, e.Ready n) : Orderly p (e.attemptMove id) := by
  unfold Engine.attemptMove
  cases hnavigator : e.navigator with
  | none => exact h
  | some n =>
    have hready : decide (e.Ready n) = true := decide_eq_true (hsteady n hnavigator)
    refine ⟨h.staged, ?_⟩
    change Logged p (e.toCommands.receive id n (decide (e.Ready n)))
    rw [hready]
    exact h.logged.receive hturn n

/-- The move that is under way takes its next turn. -/
lemma attempt (h : Orderly p e) (task : Task) {t : Task} (ht : t ∈ e.tasks) (hid : task.id = t.id)
    (hcommand : task.command = t.command) (hmove : ∀ n, t.phase ≠ .converting n)
    (hphase : task.phase.converts = false) (hbuilds : e.builds = [])
    (hsteady : ∀ n ∈ e.navigator, e.Ready n) :
    Orderly p ((e.setTask task).attemptMove task.id) := by
  have hturn : Logged.Turn e.toCommands task.id := hid ▸ h.logged.turn ht
  have hset := h.setTask task ht hid hcommand hmove hphase hbuilds hsteady
  have hmem : task ∈ (e.setTask task).tasks := by
    rw [show (e.setTask task).tasks = [task] from tasks_setTask _ hturn]
    exact List.mem_singleton_self _
  exact hset.attemptMove (hset.logged.turn hmem) hsteady

/-- The command that is under way is done. -/
lemma finish (h : Orderly p e) {id : ℕ} {command : Command} (hbuilds : e.builds = [])
    (hdone : Located p command → id ∈ e.received.map (·.id)) :
    Orderly p (e.finish id command) :=
  ⟨h.staged.mono hbuilds fun _ ht => List.mem_of_mem_filter ht, h.logged.finish hdone⟩

lemma beginInit (h : Orderly p e) : Orderly p e.beginInit := by
  unfold Engine.beginInit
  split_ifs with hidle
  · have hbuilds := h.staged.early (.inl hidle)
    have hunloaded := h.staged.unloaded (by simp [hidle])
    exact ⟨⟨fun _ => hbuilds, fun _ => hunloaded, nofun, nofun, h.staged.known,
      h.staged.destroying, h.staged.fresh, h.staged.steady, h.staged.converting⟩, h.logged⟩
  · exact h

lemma initResolved (h : Orderly p e) : Orderly p (e.onNavigators e.toNavigators.initResolved) := by
  refine ⟨?_, h.logged⟩
  change Staged e.toNavigators.initResolved e.tasks
  unfold Navigators.initResolved
  split_ifs with hresolving
  · have hbuilds := h.staged.early (.inr (.inl hresolving))
    obtain ⟨hloaded, htasks⟩ := h.staged.unloaded (by simp [hresolving])
    exact Staged.create (by simp [hbuilds]) false (.inl ⟨rfl, rfl, hloaded, htasks⟩)
      h.staged.destroying
  · exact h.staged

/-- The task of an id. -/
lemma of_find {id : ℕ} {t : Task} (hfind : e.tasks.find? (·.id = id) = some t) :
    t ∈ e.tasks ∧ t.id = id :=
  ⟨List.mem_of_find?_eq_some hfind, by simpa using List.find?_some hfind⟩

lemma built (h : Orderly p e) {owner : Owner} (hbuilds : e.builds = [])
    (hsteady : ∀ n ∈ e.navigator, e.Ready n)
    (hmove : ∀ t ∈ e.tasks, t.phase = .rebuilding) : Orderly p (e.built owner) := by
  cases owner with
  | init => exact h.congr rfl rfl
  | move id =>
    have hwaits : Orderly p (e.awaitHighlights id) := by
      unfold Engine.awaitHighlights
      cases hfind : e.tasks.find? (·.id = id) with
      | none => exact h
      | some t =>
        obtain ⟨ht, rfl⟩ := of_find hfind
        have hnot : ∀ n, t.phase ≠ .converting n := by
          intro n
          rw [hmove t ht]
          nofun
        dsimp only
        split_ifs with hnone
        · exact h.attempt { id := t.id, command := t.command, phase := .reissued } ht rfl
            rfl hnot rfl hbuilds hsteady
        · exact h.setTask { t with phase := .applying } ht rfl rfl hnot rfl hbuilds hsteady
    exact hwaits.congr rfl rfl

lemma loadSettled (h : Orderly p e) (owner : Owner) (ok : Bool) :
    Orderly p (e.loadSettled owner ok) := by
  have hstay (hnot : ∀ n retry, ok = true → e.phaseOf owner ≠ some (.loading n retry)) :
      Orderly p (e.onNavigators (e.toNavigators.loadSettled owner ok)) := by
    refine ⟨?_, h.logged⟩
    change Staged (e.toNavigators.loadSettled owner ok) e.tasks
    cases ok with
    | false => exact h.staged.notLoaded h.logged.single owner
    | true =>
      unfold Navigators.loadSettled
      split
      case h_1 n retry hphase => exact absurd hphase (hnot n retry rfl)
      case h_2 => exact h.staged
  unfold Engine.loadSettled
  split
  case h_1 n retry hphase =>
    obtain ⟨hstaged, hbuilds, hsame, hready⟩ := h.staged.loaded h.logged.single hphase
    have hmove : ∀ t ∈ e.tasks, t.phase = .rebuilding := fun t ht =>
      h.staged.phase_eq h.logged.single (Navigators.mem_of_phaseOf hphase) ht
    have hloaded : Orderly p (e.onNavigators (e.toNavigators.loadSettled owner true)) :=
      ⟨hstaged, h.logged⟩
    exact hloaded.built hbuilds (fun n hn => hready n (hsame ▸ hn)) hmove
  case h_2 hnot => exact hstay fun n retry hok hphase => hnot n retry hphase hok

lemma waitEnded (h : Orderly p e) (owner : Owner) : Orderly p (e.waitEnded owner) := by
  obtain ⟨hstaged, hbuilds⟩ := h.staged.waitEnded h.logged.single owner
  have hwaited : Orderly p (e.onNavigators (e.toNavigators.waitEnded owner)) :=
    ⟨hstaged, h.logged⟩
  unfold Engine.waitEnded
  split_ifs with hphase
  swap
  · exact hwaited
  unfold Engine.threw
  cases owner with
  | init => exact hwaited
  | move id =>
    dsimp only
    cases hfind : (e.onNavigators (e.toNavigators.waitEnded (.move id))).tasks.find?
        (·.id = id) with
    | none => exact hwaited
    | some t =>
      obtain ⟨ht, rfl⟩ := of_find (e := e) hfind
      have hrebuilding := h.staged.phase_eq h.logged.single (Navigators.mem_of_phaseOf hphase) ht
      refine hwaited.finish (hbuilds hphase) fun _ => (h.logged.moving t ht fun n => ?_).1
      rw [hrebuilding]
      nofun

lemma destroyed (h : Orderly p e) (destroyed : List ℕ) :
    Orderly p (e.onNavigators { e.toNavigators with destroyed := destroyed }) :=
  ⟨⟨h.staged.early, h.staged.unloaded, h.staged.byInit, h.staged.byMove, h.staged.known,
    h.staged.destroying, h.staged.fresh, h.staged.steady, h.staged.converting⟩, h.logged⟩

/-- A navigator that is ready gets the call of the command whose turn it is. -/
lemma receive (h : Orderly p e) {id n : ℕ} (hturn : Logged.Turn e.toCommands id)
    (hready : e.Ready n) : Orderly p (e.receive id n) := by
  refine ⟨h.staged, ?_⟩
  change Logged p (e.toCommands.receive id n (decide (e.Ready n)))
  rw [decide_eq_true hready]
  exact h.logged.receive hturn n

lemma mem_received (e : Engine ℓ π) (id n : ℕ) : id ∈ (e.receive id n).received.map (·.id) := by
  simp [Engine.receive, Engine.onCommands, Commands.receive]

/-- A jump reaches a navigator that is ready, and the command is done. -/
lemma deliver (h : Orderly p e) (hbuilds : e.builds = []) {id n : ℕ} (command : Command)
    (hturn : Logged.Turn e.toCommands id) (hready : e.Ready n) :
    Orderly p ((e.jump id n).finish id command) := by
  have hreceived : Orderly p (e.jump id n) := (h.receive hturn hready).congr rfl rfl
  exact hreceived.finish hbuilds fun _ => mem_received e id n

/-- A command goes on with no other one under way, to a navigator that is ready. -/
lemma run (h : Orderly p e) {id : ℕ} (command : Command) (htasks : e.tasks = [])
    (hturn : Logged.Turn e.toCommands id) {n : ℕ} (hnavigator : e.navigator = some n)
    (hready : e.Ready n) : Orderly p (e.run p id command) := by
  have hinit : e.init = .loaded := by
    by_contra hnot
    have := hready.1
    rw [(h.staged.unloaded hnot).1] at this
    cases this
  have hbuilds : e.builds = [] := by
    rw [List.eq_nil_iff_forall_not_mem]
    intro b hb
    obtain ⟨t, ht, -⟩ := h.staged.byMove hinit b hb
    rw [htasks] at ht
    cases ht
  have hsteady : ∀ m ∈ e.navigator, e.Ready m := by
    rw [hnavigator]
    rintro _ ⟨⟩
    exact hready
  have hmove : Orderly p (e.turn id command false) ∨ ∃ target, command = .goTo target := by
    by_cases hgoTo : ∃ target, command = .goTo target
    · exact .inr hgoTo
    · -- the call is logged before the command is set to wait, which makes no difference
      have hswap : e.turn id command false = (e.receive id n).setTask
          { id, command, phase := .turning false e.relocateCount } := by
        unfold Engine.turn Engine.attemptMove
        rw [show (e.setTask _).navigator = e.navigator from rfl, hnavigator]
        rfl
      have hreceived := h.receive hturn hready
      have hturn' : Logged.Turn (e.receive id n).toCommands id := by
        refine ⟨hturn.issued, fun r hr => ?_, hturn.waiting, hturn.tasks⟩
        rcases List.mem_append.mp hr with hr | hr
        · exact hturn.received r hr
        · rw [List.mem_singleton.mp hr]
      rw [hswap]
      refine .inl ⟨?_, hreceived.logged.setTask hturn' nofun fun _ =>
        ⟨mem_received e id n, fun target htarget => hgoTo ⟨target, htarget⟩⟩⟩
      change Staged e.toNavigators ((e.receive id n).toCommands.setTask _).tasks
      rw [tasks_setTask _ hturn']
      exact h.staged.setTasks hinit hbuilds hsteady nofun
  unfold Engine.run
  cases command with
  | goToIndex index =>
    rw [hnavigator]
    dsimp only
    split_ifs with hindex
    · exact h.deliver hbuilds _ hturn hready
    · exact h.finish hbuilds fun hlocated => absurd hlocated hindex
  | goTo target =>
    rw [hnavigator]
    dsimp only
    split_ifs with hexternal
    · refine h.finish hbuilds fun hlocated => ?_
      exact absurd (hexternal.symm.trans hlocated.1) (by decide)
    · refine ⟨?_, h.logged.setTask hturn (fun _ _ => ⟨target, rfl⟩) fun hnot => ?_⟩
      · change Staged e.toNavigators (e.toCommands.setTask _).tasks
        rw [tasks_setTask _ hturn]
        refine h.staged.setTasks hinit hbuilds hsteady ?_
        rintro _ ⟨⟩
        exact hready
      · exact absurd rfl (hnot n)
  | goToTotalProgression fraction =>
    rw [hnavigator]
    dsimp only
    cases hlocator : p.locatorForTotalProgression (clamp01 fraction) with
    | none =>
      refine h.finish hbuilds fun hlocated => ?_
      have hsome : (p.locatorForTotalProgression (clamp01 fraction)).isSome = true := hlocated
      rw [hlocator] at hsome
      cases hsome
    | some locator => exact h.deliver hbuilds _ hturn hready
  | next => exact hmove.resolve_right (by simp)
  | prev => exact hmove.resolve_right (by simp)

lemma start (h : Orderly p e) (hok : CommandMeets e (.start : Event ℓ)) :
    Orderly p (e.start p) := by
  unfold Engine.start
  cases hwaiting : e.waiting with
  | nil => exact h
  | cons w rest =>
    dsimp only
    split_ifs with hblocked hfailed
    · exact h
    all_goals
      have hfree : w.onInit = true → e.init ≠ .loading := fun hon hload => hblocked ⟨hon, hload⟩
      obtain ⟨htasks, n, hnavigator, hready⟩ := hok w (by rw [hwaiting]; rfl) hfree
      obtain ⟨hnext, hturn⟩ := h.logged.next hwaiting htasks
      have hstarted : Orderly p (e.onCommands { e.toCommands with waiting := rest }) :=
        ⟨h.staged, hnext⟩
    · have hinit : e.init = .failed := hfailed.2
      have hloaded := hready.1
      rw [(h.staged.unloaded (by simp [hinit])).1] at hloaded
      cases hloaded
    · exact hstarted.run w.command htasks hturn hnavigator hready

lemma converted (h : Orderly p e) (id : ℕ) : Orderly p (e.converted p id) := by
  unfold Engine.converted
  split
  case h_2 => exact h
  case h_1 t hfind =>
    obtain ⟨ht, rfl⟩ := of_find hfind
    split
    case h_2 => exact h
    case h_1 target n hcommand hphase =>
      obtain ⟨hbuilds, -⟩ := h.steady ht (by rw [hphase]; nofun)
      have hready := h.staged.converting t ht n hphase
      split
      · exact h.deliver hbuilds _ (h.logged.turn ht) hready
      case h_2 hnone =>
        refine h.finish hbuilds fun hlocated => ?_
        rw [hcommand] at hlocated
        have hsome := hlocated.2
        rw [hnone] at hsome
        cases hsome

/-- A move that found the navigator wedged rebuilds it. -/
lemma rebuild (h : Orderly p e) {t : Task} (ht : t ∈ e.tasks) (hmove : ∀ n, t.phase ≠ .converting n)
    (hphase : t.phase ≠ .rebuilding) :
    Orderly p ((e.onNavigators (e.rebuild (.move t.id))).setTask
      { t with phase := .rebuilding }) := by
  obtain ⟨hbuilds, -⟩ := h.steady ht hphase
  have hinit : e.init = .loaded := by
    by_contra hnot
    rw [(h.staged.unloaded hnot).2] at ht
    cases ht
  have hturn := h.logged.turn ht
  refine ⟨?_, h.logged.setTask hturn nofun fun _ => h.logged.moving t ht hmove⟩
  change Staged (e.rebuild (.move t.id)) (e.toCommands.setTask _).tasks
  rw [tasks_setTask { t with phase := .rebuilding } hturn]
  have hbelongs : Staged.Belongs (.move t.id) e.init e.loaded [{ t with phase := .rebuilding }] :=
    .inr ⟨hinit, _, rfl, rfl, rfl⟩
  unfold Navigators.rebuild
  cases hnavigator : e.navigator with
  | none => exact Staged.create (by simp [hbuilds]) false hbelongs h.staged.destroying
  | some stale =>
    refine Staged.of_build (b := { owner := .move t.id, phase := .clearing }) ?_ hbelongs nofun ?_
      nofun
    · simp [Navigators.setBuild, Navigators.destroy, hbuilds]
    · intro n hn
      rcases List.mem_cons.mp hn with rfl | hn
      · exact h.staged.known n hnavigator
      · exact h.staged.destroying n hn

lemma turned (h : Orderly p e) (id : ℕ) : Orderly p (e.turned p id) := by
  unfold Engine.turned
  split
  case h_2 => exact h
  case h_1 t hfind =>
    obtain ⟨ht, rfl⟩ := of_find hfind
    split
    case h_3 => exact h
    case h_1 retry before hphase =>
      have hnot : ∀ n, t.phase ≠ .converting n := by simp [hphase]
      obtain ⟨hbuilds, hsteady⟩ := h.steady ht (by rw [hphase]; nofun)
      split_ifs
      · exact h.finish hbuilds fun _ => (h.logged.moving t ht hnot).1
      · exact h.attempt { id := t.id, command := t.command, phase := .turning true _ } ht
          rfl rfl hnot rfl hbuilds hsteady
      · exact h.rebuild ht hnot (by rw [hphase]; nofun)
      · exact h.attempt { id := t.id, command := t.command, phase := .reissued } ht rfl
          rfl hnot rfl hbuilds hsteady
    case h_2 hphase =>
      have hnot : ∀ n, t.phase ≠ .converting n := by simp [hphase]
      obtain ⟨hbuilds, -⟩ := h.steady ht (by rw [hphase]; nofun)
      exact h.finish hbuilds fun _ => (h.logged.moving t ht hnot).1

lemma applied (h : Orderly p e) (index : ℕ) : Orderly p (e.applied p index) := by
  unfold Engine.applied
  split
  case h_1 => exact h
  case h_2 run _ =>
    have hdrawn : Orderly p (e.onDrawing (e.toDrawing.draw p e.navigator run index)) :=
      h.congr rfl rfl
    unfold Engine.resume
    split
    case h_1 => exact hdrawn
    case h_2 id =>
      split
      case h_2 => exact hdrawn
      case h_1 t hfind =>
        obtain ⟨ht, rfl⟩ := of_find (e := e) hfind
        split_ifs with hphase
        · obtain ⟨hbuilds, hsteady⟩ := hdrawn.steady ht (by rw [hphase]; nofun)
          exact hdrawn.attempt { id := t.id, command := t.command, phase := .reissued }
            ht rfl rfl (by simp [hphase]) rfl hbuilds hsteady
        · exact hdrawn

lemma close (h : Orderly p e) (hok : CommandMeets e (.close : Event ℓ)) : Orderly p e.close := by
  refine ⟨?_, h.logged⟩
  change Staged e.closeNavigators e.tasks
  have hconverting : ∀ t ∈ e.tasks, ∀ n, t.phase ≠ .converting n := by
    intro t ht n hn
    have := hok t ht
    rw [hn] at this
    cases this
  unfold Navigators.closeNavigators
  cases hnavigator : e.navigator with
  | none =>
    exact ⟨h.staged.early, h.staged.unloaded, h.staged.byInit, h.staged.byMove, nofun,
      h.staged.destroying, fun b hb n retry hn => ⟨(h.staged.fresh b hb n retry hn).1, nofun⟩,
      fun _ _ _ => nofun, fun t ht n hn => absurd hn (hconverting t ht n)⟩
  | some navigator =>
    refine ⟨h.staged.early, h.staged.unloaded, h.staged.byInit, h.staged.byMove, nofun,
      fun n hn => ?_, fun b hb n retry hn => ⟨(h.staged.fresh b hb n retry hn).1, nofun⟩,
      fun _ _ _ => nofun, fun t ht n hn => absurd hn (hconverting t ht n)⟩
    rcases List.mem_cons.mp hn with rfl | hn
    · exact h.staged.known n hnavigator
    · exact h.staged.destroying n hn

/-- **An event under the condition keeps the invariant.** -/
theorem step (h : Orderly p e) (event : Event ℓ) (hok : CommandMeets e event) :
    Orderly p (e.step p event) := by
  cases event with
  | init => exact h.beginInit
  | initResolved => exact h.initResolved
  | loadSettled owner ok => exact h.loadSettled owner ok
  | waitEnded owner => exact h.waitEnded owner
  | destroyed navigator =>
    unfold Engine.step
    dsimp only
    split_ifs
    · exact h.destroyed _
    · exact h
  | issue command => exact ⟨h.staged, h.logged.issue command _⟩
  | start => exact h.start hok
  | converted id => exact h.converted id
  | turned id => exact h.turned id
  | applied index => exact h.applied index
  | close => exact h.close hok
  | positionChanged locator | fire timer | onRelocate handler | offRelocate handler
  | addHighlight locator color | removeHighlight locator => exact h.congr rfl rfl

end Orderly

end

/-- **A run under the condition loses and reorders no command.** -/
theorem ordered_of_meets (p : Publication ℓ π) (events : List (Event ℓ))
    (h : Guarded.Meets (Engine.step p) CommandMeets (openedEngine ℓ π) events) :
    ∀ before, before <+: events →
      Ordered p (before.foldl (Engine.step p) (openedEngine ℓ π)).toCommands := by
  rintro before ⟨after, rfl⟩
  have hopened : Orderly p (openedEngine ℓ π) :=
    ⟨⟨fun _ => rfl, fun _ => ⟨rfl, rfl⟩, nofun, nofun, nofun, nofun, nofun, nofun, nofun⟩,
      ⟨Nat.zero_le _, nofun, nofun, List.Pairwise.nil, nofun, nofun, nofun,
        ⟨List.Pairwise.nil, nofun, nofun⟩⟩⟩
  have hstep (e : Engine ℓ π) (event : Event ℓ) (hs : Orderly p e) (hok : CommandMeets e event) :
      Orderly p (e.step p event) := hs.step event hok
  exact (h.of_append.invariant hstep hopened).logged.ordered

/-- A book of two chapters with one note, at a place of the first chapter. -/
def twoChapters : Publication ℕ ℕ where
  readingOrder := 2
  positions := [0, 1]
  totalProgression := fun position => if position = 0 then 0 else 1 / 2
  describe := id
  toLocator := fun target => if target = "epubcfi(/6/2)" then some 0 else none
  isExternal := fun _ => false

/-- The navigator of `init` is loaded. -/
def opening : List (Event ℕ) := [.init, .initResolved, .loadSettled .init true]

/-- A jump to the note, and one to the second chapter while the note's CFI is converted. -/
def noteThenChapter : List (Event ℕ) :=
  opening ++ [.issue (.goTo "epubcfi(/6/2)"), .start, .issue (.goToIndex 1), .start, .converted 0]

/-- **The older command decides the position.** The navigator gets the second command first. -/
theorem converted_target_overtaken :
    (noteThenChapter.foldl (Engine.step twoChapters) (openedEngine ℕ ℕ)).received.map (·.id) =
      [1, 0] ∧
    ¬Ordered twoChapters
      (noteThenChapter.foldl (Engine.step twoChapters) (openedEngine ℕ ℕ)).toCommands := by
  have hreceived : (noteThenChapter.foldl (Engine.step twoChapters)
      (openedEngine ℕ ℕ)).received.map (·.id) = [1, 0] := by decide +kernel
  refine ⟨hreceived, fun h => ?_⟩
  have horder := h.order
  rw [hreceived] at horder
  exact absurd horder (by decide)

/-- The same commands, the second one after the first is done. -/
def noteBeforeChapter : List (Event ℕ) :=
  opening ++ [.issue (.goTo "epubcfi(/6/2)"), .start, .issue (.goToIndex 1), .converted 0, .start]

theorem ordered_noteBeforeChapter : Ordered twoChapters
    (noteBeforeChapter.foldl (Engine.step twoChapters) (openedEngine ℕ ℕ)).toCommands :=
  ordered_of_meets twoChapters noteBeforeChapter (by decide +kernel) noteBeforeChapter
    List.prefix_rfl

end Readium
end TuxBooks
