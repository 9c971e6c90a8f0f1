import TuxBooks.Reader.JumpHold
import TuxBooks.Reader.Position

set_option relaxedAutoImplicit false
set_option autoImplicit false

/-!
# The EPUB engine

`ReadiumEpubHandle` (`frontend/src/lib/epub/readiumEngine.ts`) builds the navigator of the toolkit,
gives it the commands of the reader and draws the highlights. Every `await` of the source is a point
at which anything else can happen. What waits there is part of the state, and an event takes it on:
the steps that wait can complete in any order, except for those that wait for one promise, which go
on in the order in which they came.

A toolkit's navigator is a number. Search, selections and the appearance are left out. In scrolled
flow a turn scrolls the navigator's frame in place of calling it; either way the navigator has it.

## Main definitions

* `TuxBooks.Readium.Navigators` — the navigators that were created, and those that are being built.
* `TuxBooks.Readium.Engine` — the handle with its commands and highlights.
* `TuxBooks.Readium.Event`, `TuxBooks.Readium.Engine.step` — what can happen to it.
-/

namespace TuxBooks

namespace Readium

/-! ## Navigators -/

/-- Who builds a navigator: `init`, or a move that found the navigator wedged. -/
inductive Owner where
  | init
  | move (id : ℕ)
  deriving DecidableEq

/-- Where a build waits. -/
inductive BuildPhase where
  /-- For the stale navigator's destruction, or a second. -/
  | clearing
  /-- For `load` of a navigator, or its timeout. -/
  | loading (navigator : ℕ) (retry : Bool)
  /-- For the destruction of the navigator that did not load, or a second. -/
  | failed (retry : Bool)
  deriving DecidableEq

structure Build where
  owner : Owner
  phase : BuildPhase
  deriving DecidableEq

inductive InitPhase where
  | idle
  /-- `resolveInitialLocator`. -/
  | resolving
  /-- `initChain` is the load. -/
  | loading
  | loaded
  | failed
  deriving DecidableEq

structure Navigators where
  navigator : Option ℕ := none
  /-- The navigators are the numbers below this one. -/
  created : ℕ := 0
  /-- Those whose `destroy` was called, and those for which it has finished. -/
  destroying : List ℕ := []
  destroyed : List ℕ := []
  /-- Those whose `load` was good. -/
  loaded : List ℕ := []
  builds : List Build := []
  init : InitPhase := .idle
  /-- The navigators that there were when `close` was called. -/
  closed : Option ℕ := none

namespace Navigators

def setBuild (s : Navigators) (owner : Owner) (phase : BuildPhase) : Navigators :=
  { s with builds := s.builds.filter (·.owner ≠ owner) ++ [{ owner, phase }] }

def endBuild (s : Navigators) (owner : Owner) : Navigators :=
  { s with builds := s.builds.filter (·.owner ≠ owner) }

/-- `new EpubNavigator`, and its `load`. -/
def create (s : Navigators) (owner : Owner) (retry : Bool) : Navigators :=
  { s with navigator := some s.created, created := s.created + 1 }.setBuild owner
    (.loading s.created retry)

def destroy (s : Navigators) (navigator : ℕ) : Navigators :=
  { s with destroying := navigator :: s.destroying }

/-- The first part of `rebuildNavigator`. Without a stale navigator nothing is waited for. -/
def rebuild (s : Navigators) (owner : Owner) : Navigators :=
  match s.navigator with
  | some stale => ({ s with navigator := none }.destroy stale).setBuild owner .clearing
  | none => s.create owner false

def closeNavigators (s : Navigators) : Navigators :=
  let closed := some (s.closed.getD s.created)
  match s.navigator with
  | some navigator => { s with navigator := none, closed }.destroy navigator
  | none => { s with closed }

/-- Where a build is. -/
def phaseOf (s : Navigators) (owner : Owner) : Option BuildPhase :=
  (s.builds.find? (·.owner = owner)).map (·.phase)

/-- The load of a build is over: it was good, or it threw or timed out. -/
def loadSettled (s : Navigators) (owner : Owner) (ok : Bool) : Navigators :=
  match s.phaseOf owner with
  | some (.loading navigator retry) =>
    if ok = true then
      { s with
        loaded := navigator :: s.loaded
        init := if owner = Owner.init then .loaded else s.init }.endBuild owner
    else (s.destroy navigator).setBuild owner (.failed retry)
  | _ => s

/-- A build has waited for a destruction. After two attempts it throws. -/
def waitEnded (s : Navigators) (owner : Owner) : Navigators :=
  match s.phaseOf owner with
  | some .clearing => s.create owner false
  | some (.failed false) => s.create owner true
  | some (.failed true) =>
    { s with init := if owner = Owner.init then .failed else s.init }.endBuild owner
  | _ => s

/-- The initial locator is resolved, and `initChain` is the load at it. -/
def initResolved (s : Navigators) : Navigators :=
  if s.init = .resolving then { s.create .init false with init := .loading } else s

/-- A navigator that has loaded and is not being destroyed. -/
def Ready (s : Navigators) (navigator : ℕ) : Prop :=
  navigator ∈ s.loaded ∧ navigator ∉ s.destroying

instance (s : Navigators) (navigator : ℕ) : Decidable (s.Ready navigator) :=
  inferInstanceAs (Decidable (_ ∧ _))

end Navigators

/-! ## Commands and highlights -/

inductive Command where
  /-- `goTo` of a spine index. -/
  | goToIndex (index : ℕ)
  /-- `goTo` of a serialized locator or of a legacy CFI. -/
  | goTo (target : String)
  | goToTotalProgression (fraction : ℚ)
  | next
  | prev
  deriving DecidableEq

/-- A command that waits for `initChain`, and whether that is the load of `init`. -/
structure Waiting where
  id : ℕ
  command : Command
  onInit : Bool

/-- Where a command waits that has gone on. -/
inductive Phase where
  /-- For `toLocator`, with the navigator that it has read. -/
  | converting (navigator : ℕ)
  /-- For a turn and for the relocate that shows it. -/
  | turning (retry : Bool) (before : ℕ)
  | rebuilding
  /-- For `applyHighlights` of a rebuild. -/
  | applying
  /-- For the turn after a rebuild. -/
  | reissued
  deriving DecidableEq

structure Task where
  id : ℕ
  command : Command
  phase : Phase

/-- A call of a navigator, and whether the navigator was ready for it. -/
structure Received where
  id : ℕ
  navigator : ℕ
  ready : Bool
  deriving DecidableEq

/-- A run of `applyHighlights` that waits for its locators, and the move that waits for it. -/
structure Apply where
  keys : List String
  mover : Option ℕ

/-- A decoration of the group of highlights. `highlightTint` makes its tint from the colour. -/
structure Decoration (ℓ : Type) where
  id : ℕ
  locator : ℓ
  color : String
  deriving DecidableEq

/-- The highlights of a handle. -/
structure Drawing (ℓ : Type) where
  /-- The stored highlights, locator and colour, in the order of the map. -/
  highlights : List (String × String) := []
  applies : List Apply := []
  /-- The decorations that navigators were given, the last ones first. -/
  decorations : List (ℕ × List (Decoration ℓ)) := []

/-- What the open publication says. -/
structure Publication (ℓ π : Type) where
  /-- The length of the reading order. -/
  readingOrder : ℕ
  positions : List ℓ
  totalProgression : ℓ → ℚ
  describe : ℓ → π
  toLocator : String → Option ℓ
  /-- The target names an href that is not in the book. -/
  isExternal : String → Bool

/-- The commands of a handle. -/
structure Commands where
  issued : ℕ := 0
  waiting : List Waiting := []
  tasks : List Task := []
  /-- The calls of navigators and the commands that are done, the oldest first. -/
  received : List Received := []
  finished : List (ℕ × Command) := []

namespace Commands

/-- A command is called. -/
def issue (c : Commands) (command : Command) (onInit : Bool) : Commands :=
  { c with
    issued := c.issued + 1
    waiting := c.waiting ++ [{ id := c.issued, command, onInit }] }

def setTask (c : Commands) (task : Task) : Commands :=
  { c with tasks := c.tasks.filter (·.id ≠ task.id) ++ [task] }

/-- A navigator gets the call of a command. -/
def receive (c : Commands) (id navigator : ℕ) (ready : Bool) : Commands :=
  { c with received := c.received ++ [{ id, navigator, ready }] }

/-- A command is done, or has thrown. -/
def finish (c : Commands) (id : ℕ) (command : Command) : Commands :=
  { c with
    tasks := c.tasks.filter (·.id ≠ id)
    finished := c.finished ++ [(id, command)] }

end Commands

variable {ℓ π : Type}

/-- Nearest position at or before a progression. -/
def Publication.locatorForTotalProgression (p : Publication ℓ π) (progression : ℚ) : Option ℓ :=
  let best := p.positions.foldl (fun best position =>
    if p.totalProgression position ≤ progression ∧
        (best.elim (-1) p.totalProgression) ≤ p.totalProgression position then
      some position
    else best) none
  best.or p.positions.head?

/-- The decorations for some stored highlights: those that can be located, with the colours that
are stored now. -/
def Publication.decorations (p : Publication ℓ π) (keys : List String)
    (highlights : List (String × String)) : List (Decoration ℓ) :=
  keys.zipIdx.filterMap fun (key, id) => (p.toLocator key).map fun locator =>
    { id, locator, color := (highlights.lookup key).getD "" }

namespace Drawing

/-- A run of `applyHighlights` begins: without a navigator there is nothing to do. -/
def apply (d : Drawing ℓ) (navigator : Option ℕ) (mover : Option ℕ) : Drawing ℓ :=
  if navigator = none then d
  else { d with applies := d.applies ++ [{ keys := d.highlights.map (·.1), mover }] }

/-- A run of `applyHighlights` ends: the navigator that there is now gets the decorations. -/
def draw (d : Drawing ℓ) (p : Publication ℓ π) (navigator : Option ℕ) (run : Apply)
    (index : ℕ) : Drawing ℓ :=
  { d with
    applies := d.applies.eraseIdx index
    decorations := match navigator with
      | some navigator => (navigator, p.decorations run.keys d.highlights) :: d.decorations
      | none => d.decorations }

/-- `Map.set`: a new key goes to the end. -/
def put (d : Drawing ℓ) (locator color : String) : Drawing ℓ :=
  { d with highlights :=
      if d.highlights.any (·.1 = locator) then
        d.highlights.map fun h => if h.1 = locator then (locator, color) else h
      else d.highlights ++ [(locator, color)] }

/-- `Map.delete`. -/
def delete (d : Drawing ℓ) (locator : String) : Drawing ℓ :=
  { d with highlights := d.highlights.filter (·.1 ≠ locator) }

end Drawing

/-! ## The engine -/

structure Engine (ℓ π : Type) extends Relocates ℓ π, Navigators, Commands, Drawing ℓ

namespace Engine

def onNavigators (e : Engine ℓ π) (s : Navigators) : Engine ℓ π := { e with toNavigators := s }

def onRelocates (e : Engine ℓ π) (h : Relocates ℓ π) : Engine ℓ π := { e with toRelocates := h }

def onCommands (e : Engine ℓ π) (c : Commands) : Engine ℓ π := { e with toCommands := c }

def receive (e : Engine ℓ π) (id navigator : ℕ) : Engine ℓ π :=
  e.onCommands (e.toCommands.receive id navigator (e.Ready navigator))

/-- A jump: the hold is armed, then the navigator goes. -/
def jump (e : Engine ℓ π) (id navigator : ℕ) : Engine ℓ π :=
  (e.onRelocates e.armJumpHold).receive id navigator

def finish (e : Engine ℓ π) (id : ℕ) (command : Command) : Engine ℓ π :=
  e.onCommands (e.toCommands.finish id command)

def setTask (e : Engine ℓ π) (task : Task) : Engine ℓ π :=
  e.onCommands (e.toCommands.setTask task)

/-- `attemptMove`: without a navigator it resolves at once. -/
def attemptMove (e : Engine ℓ π) (id : ℕ) : Engine ℓ π :=
  match e.navigator with
  | some navigator => e.receive id navigator
  | none => e

/-- A turn of `move`, which waits for a relocate after the count that it reads first. -/
def turn (e : Engine ℓ π) (id : ℕ) (command : Command) (retry : Bool) : Engine ℓ π :=
  (e.setTask { id, command, phase := .turning retry e.relocateCount }).attemptMove id

/-- The turn after a rebuild. -/
def reissue (e : Engine ℓ π) (id : ℕ) (command : Command) : Engine ℓ π :=
  (e.setTask { id, command, phase := .reissued }).attemptMove id

def onDrawing (e : Engine ℓ π) (d : Drawing ℓ) : Engine ℓ π := { e with toDrawing := d }

def applyHighlights (e : Engine ℓ π) (mover : Option ℕ) : Engine ℓ π :=
  e.onDrawing (e.toDrawing.apply e.navigator mover)

variable (p : Publication ℓ π)

/-- A command goes on after `initChain`. -/
def run (e : Engine ℓ π) (id : ℕ) (command : Command) : Engine ℓ π :=
  match command with
  | .goToIndex index =>
    match e.navigator with
    | some navigator =>
      if index < p.readingOrder then (e.jump id navigator).finish id command
      else e.finish id command
    | none => e.finish id command
  | .goTo target =>
    match e.navigator with
    | some navigator =>
      if p.isExternal target then e.finish id command
      else e.setTask { id, command, phase := .converting navigator }
    | none => e.finish id command
  | .goToTotalProgression fraction =>
    match e.navigator, p.locatorForTotalProgression (clamp01 fraction) with
    | some navigator, some _ => (e.jump id navigator).finish id command
    | _, _ => e.finish id command
  | .next | .prev => e.turn id command false

/-- The first command that waits goes on, if its chain is settled. A load that threw throws in every
command that waited for it. -/
def start (e : Engine ℓ π) : Engine ℓ π :=
  match e.waiting with
  | [] => e
  | w :: rest =>
    if w.onInit = true ∧ e.init = .loading then e
    else
      let e := e.onCommands { e.toCommands with waiting := rest }
      if w.onInit = true ∧ e.init = .failed then e.finish w.id w.command
      else e.run p w.id w.command

/-- `toLocator` of a command is done. -/
def converted (e : Engine ℓ π) (id : ℕ) : Engine ℓ π :=
  match e.tasks.find? (·.id = id) with
  | some task =>
    match task.command, task.phase with
    | .goTo target, .converting navigator =>
      match p.toLocator target with
      | some _ => (e.jump id navigator).finish id task.command
      | none => e.finish id task.command
    | _, _ => e
  | none => e

/-- Two turns of a move have shown no relocate, and there is a place to rebuild the navigator at. -/
def Rebuilds (e : Engine ℓ π) (id : ℕ) : Prop :=
  ∃ task ∈ e.tasks.find? (·.id = id), task.phase = .turning true e.relocateCount ∧
    (e.currentLocator.or p.positions.head?).isSome = true

instance (e : Engine ℓ π) (id : ℕ) : Decidable (e.Rebuilds p id) :=
  inferInstanceAs (Decidable (∃ task ∈ e.tasks.find? _, _))

/-- The wait for a turn and its relocate ends. -/
def turned (e : Engine ℓ π) (id : ℕ) : Engine ℓ π :=
  match e.tasks.find? (·.id = id) with
  | some task =>
    match task.phase with
    | .turning retry before =>
      if e.relocateCount ≠ before then e.finish id task.command
      else if retry = false then e.turn id task.command true
      else if e.Rebuilds p id then
        (e.onNavigators (e.rebuild (.move id))).setTask { task with phase := .rebuilding }
      else e.reissue id task.command
    | .reissued => e.finish id task.command
    | _ => e
  | none => e

/-- A move waits for the highlights of its rebuild, or goes on when there is no navigator. -/
def awaitHighlights (e : Engine ℓ π) (id : ℕ) : Engine ℓ π :=
  match e.tasks.find? (·.id = id) with
  | some task =>
    if e.navigator = none then e.reissue id task.command
    else e.setTask { task with phase := .applying }
  | none => e

/-- What a build does after a good load: the highlights are applied, and a move waits for that. -/
def built (e : Engine ℓ π) (owner : Owner) : Engine ℓ π :=
  match owner with
  | .init => e.applyHighlights none
  | .move id => (e.awaitHighlights id).applyHighlights (some id)

def loadSettled (e : Engine ℓ π) (owner : Owner) (ok : Bool) : Engine ℓ π :=
  match e.phaseOf owner, ok with
  | some (.loading _ _), true => (e.onNavigators (e.toNavigators.loadSettled owner ok)).built owner
  | _, _ => e.onNavigators (e.toNavigators.loadSettled owner ok)

/-- A build has thrown, and with it the move that it was for. -/
def threw (e : Engine ℓ π) (owner : Owner) : Engine ℓ π :=
  match owner with
  | .init => e
  | .move id =>
    match e.tasks.find? (·.id = id) with
    | some task => e.finish id task.command
    | none => e

def waitEnded (e : Engine ℓ π) (owner : Owner) : Engine ℓ π :=
  if e.phaseOf owner = some (.failed true) then
    (e.onNavigators (e.toNavigators.waitEnded owner)).threw owner
  else e.onNavigators (e.toNavigators.waitEnded owner)

/-- The move that has waited for its highlights goes on. -/
def resume (e : Engine ℓ π) (mover : Option ℕ) : Engine ℓ π :=
  match mover with
  | none => e
  | some id =>
    match e.tasks.find? (·.id = id) with
    | some task => if task.phase = .applying then e.reissue id task.command else e
    | none => e

/-- The locators of a run of `applyHighlights` are there. -/
def applied (e : Engine ℓ π) (index : ℕ) : Engine ℓ π :=
  match e.applies[index]? with
  | none => e
  | some run => (e.onDrawing (e.toDrawing.draw p e.navigator run index)).resume run.mover

def addHighlight (e : Engine ℓ π) (locator color : String) : Engine ℓ π :=
  (e.onDrawing (e.toDrawing.put locator color)).applyHighlights none

def removeHighlight (e : Engine ℓ π) (locator : String) : Engine ℓ π :=
  (e.onDrawing (e.toDrawing.delete locator)).applyHighlights none

/-- `init` starts. The reader calls it once for a handle. -/
def beginInit (e : Engine ℓ π) : Engine ℓ π :=
  if e.init = .idle then e.onNavigators { e.toNavigators with init := .resolving } else e

/-- A command waits for the promise that `initChain` is when it is called. -/
def issue (e : Engine ℓ π) (command : Command) : Engine ℓ π :=
  e.onCommands (e.toCommands.issue command (e.init ≠ .idle ∧ e.init ≠ .resolving))

def close (e : Engine ℓ π) : Engine ℓ π :=
  (e.onRelocates e.closeRelocates).onNavigators e.closeNavigators

end Engine

/-- What can happen: calls of the reader, steps that have waited, and reports of the toolkit. -/
inductive Event (ℓ : Type) where
  | init
  | initResolved
  | loadSettled (owner : Owner) (ok : Bool)
  | waitEnded (owner : Owner)
  | destroyed (navigator : ℕ)
  | issue (command : Command)
  | start
  | converted (id : ℕ)
  | turned (id : ℕ)
  | positionChanged (locator : ℓ)
  | fire (timer : ℕ)
  | onRelocate (handler : ℕ)
  | offRelocate (handler : ℕ)
  | addHighlight (locator color : String)
  | removeHighlight (locator : String)
  | applied (index : ℕ)
  | close

def Engine.step (p : Publication ℓ π) (e : Engine ℓ π) : Event ℓ → Engine ℓ π
  | .init => e.beginInit
  | .initResolved => e.onNavigators e.toNavigators.initResolved
  | .loadSettled owner ok => e.loadSettled owner ok
  | .waitEnded owner => e.waitEnded owner
  | .destroyed navigator =>
    if navigator ∈ e.destroying then
      e.onNavigators { e.toNavigators with destroyed := navigator :: e.destroyed }
    else e
  | .issue command => e.issue command
  | .start => e.start p
  | .converted id => e.converted p id
  | .turned id => e.turned p id
  | .positionChanged locator => e.onRelocates (e.handlePositionChanged p.describe locator)
  | .fire timer => e.onRelocates (e.toRelocates.fire timer)
  | .onRelocate handler => e.onRelocates (e.toRelocates.onRelocate handler)
  | .offRelocate handler => e.onRelocates (e.toRelocates.offRelocate handler)
  | .addHighlight locator color => e.addHighlight locator color
  | .removeHighlight locator => e.removeHighlight locator
  | .applied index => e.applied p index
  | .close => e.close

/-! ## Builds -/

namespace Navigators

variable {s : Navigators}

lemma filter_owner (owner : Owner) (hown : ∀ b ∈ s.builds, b.owner = owner) :
    s.builds.filter (·.owner ≠ owner) = [] := by
  rw [List.filter_eq_nil_iff]
  intro b hb
  simpa using hown b hb

/-- Without its own build an owner's new build is alone. -/
lemma builds_setBuild (owner : Owner) (phase : BuildPhase)
    (hown : ∀ b ∈ s.builds, b.owner = owner) :
    (s.setBuild owner phase).builds = [{ owner, phase }] := by
  simp only [setBuild, filter_owner owner hown, List.nil_append]

/-- An owner's build ends, and there is no other. -/
lemma builds_endBuild (owner : Owner) (hown : ∀ b ∈ s.builds, b.owner = owner) :
    (s.endBuild owner).builds = [] := filter_owner owner hown

/-- The build that an owner has. -/
lemma mem_of_phaseOf {owner : Owner} {phase : BuildPhase} (h : s.phaseOf owner = some phase) :
    { owner, phase } ∈ s.builds := by
  obtain ⟨b, hfind, rfl⟩ := Option.map_eq_some_iff.mp h
  have hmem := List.mem_of_find?_eq_some hfind
  obtain rfl : b.owner = owner := by simpa using List.find?_some hfind
  exact hmem

end Navigators

/-! ## What an event does to the navigators -/

namespace Engine

variable (p : Publication ℓ π) (e : Engine ℓ π)

@[simp] lemma toNavigators_onNavigators (s : Navigators) :
    (e.onNavigators s).toNavigators = s := rfl

@[simp] lemma toNavigators_onRelocates (h : Relocates ℓ π) :
    (e.onRelocates h).toNavigators = e.toNavigators := rfl

@[simp] lemma toNavigators_onCommands (c : Commands) :
    (e.onCommands c).toNavigators = e.toNavigators := rfl

@[simp] lemma toNavigators_onDrawing (d : Drawing ℓ) :
    (e.onDrawing d).toNavigators = e.toNavigators := rfl

@[simp] lemma toNavigators_receive (id navigator : ℕ) :
    (e.receive id navigator).toNavigators = e.toNavigators := rfl

@[simp] lemma toNavigators_jump (id navigator : ℕ) :
    (e.jump id navigator).toNavigators = e.toNavigators := rfl

@[simp] lemma toNavigators_finish (id : ℕ) (command : Command) :
    (e.finish id command).toNavigators = e.toNavigators := rfl

@[simp] lemma toNavigators_setTask (task : Task) :
    (e.setTask task).toNavigators = e.toNavigators := rfl

@[simp] lemma toNavigators_attemptMove (id : ℕ) :
    (e.attemptMove id).toNavigators = e.toNavigators := by
  unfold attemptMove
  split <;> rfl

@[simp] lemma toNavigators_turn (id : ℕ) (command : Command) (retry : Bool) :
    (e.turn id command retry).toNavigators = e.toNavigators :=
  toNavigators_attemptMove _ _

@[simp] lemma toNavigators_reissue (id : ℕ) (command : Command) :
    (e.reissue id command).toNavigators = e.toNavigators :=
  toNavigators_attemptMove _ _

@[simp] lemma toNavigators_applyHighlights (mover : Option ℕ) :
    (e.applyHighlights mover).toNavigators = e.toNavigators := rfl

@[simp] lemma toNavigators_run (id : ℕ) (command : Command) :
    (e.run p id command).toNavigators = e.toNavigators := by
  unfold run
  cases command with
  | next | prev => exact toNavigators_turn ..
  | goToIndex index | goTo target =>
    dsimp only
    split
    · split_ifs <;> rfl
    · rfl
  | goToTotalProgression fraction =>
    dsimp only
    split <;> rfl

@[simp] lemma toNavigators_start : (e.start p).toNavigators = e.toNavigators := by
  unfold start
  split
  · rfl
  · dsimp only
    split_ifs
    · rfl
    · rfl
    · exact toNavigators_run p _ _ _

@[simp] lemma toNavigators_converted (id : ℕ) :
    (e.converted p id).toNavigators = e.toNavigators := by
  unfold converted
  repeat' split
  all_goals rfl

@[simp] lemma toNavigators_resume (mover : Option ℕ) :
    (e.resume mover).toNavigators = e.toNavigators := by
  unfold resume
  repeat' split
  all_goals simp

@[simp] lemma toNavigators_applied (index : ℕ) :
    (e.applied p index).toNavigators = e.toNavigators := by
  unfold applied
  split
  · rfl
  · exact toNavigators_resume _ _

@[simp] lemma toNavigators_awaitHighlights (id : ℕ) :
    (e.awaitHighlights id).toNavigators = e.toNavigators := by
  unfold awaitHighlights
  repeat' split
  all_goals simp

@[simp] lemma toNavigators_built (owner : Owner) :
    (e.built owner).toNavigators = e.toNavigators := by
  unfold built
  repeat' split
  all_goals simp

@[simp] lemma toNavigators_threw (owner : Owner) :
    (e.threw owner).toNavigators = e.toNavigators := by
  unfold threw
  repeat' split
  all_goals rfl

lemma toNavigators_turned (id : ℕ) : (e.turned p id).toNavigators =
    if e.Rebuilds p id then e.rebuild (.move id) else e.toNavigators := by
  by_cases hrebuilds : e.Rebuilds p id
  · have hwedged := hrebuilds
    obtain ⟨task, htask, hphase, -⟩ := hwedged
    rw [Option.mem_def] at htask
    simp [turned, htask, hphase, hrebuilds]
  · rw [if_neg hrebuilds]
    unfold turned
    repeat' split
    all_goals simp_all

/-- **What an event does to the navigators.** -/
theorem toNavigators_step (event : Event ℓ) : (e.step p event).toNavigators =
    match event with
    | .init => if e.init = .idle then { e.toNavigators with init := .resolving } else e.toNavigators
    | .initResolved => e.toNavigators.initResolved
    | .loadSettled owner ok => e.toNavigators.loadSettled owner ok
    | .waitEnded owner => e.toNavigators.waitEnded owner
    | .destroyed navigator =>
      if navigator ∈ e.destroying then
        { e.toNavigators with destroyed := navigator :: e.destroyed }
      else e.toNavigators
    | .turned id => if e.Rebuilds p id then e.rebuild (.move id) else e.toNavigators
    | .close => e.closeNavigators
    | _ => e.toNavigators := by
  cases event with
  | init =>
    unfold step beginInit
    dsimp only
    split_ifs <;> rfl
  | loadSettled owner ok =>
    unfold step loadSettled
    dsimp only
    split <;> simp
  | waitEnded owner =>
    unfold step waitEnded
    dsimp only
    split_ifs <;> simp
  | destroyed navigator =>
    unfold step
    dsimp only
    split_ifs <;> rfl
  | start => exact e.toNavigators_start p
  | converted id => exact e.toNavigators_converted p id
  | turned id => exact e.toNavigators_turned p id
  | applied index => exact e.toNavigators_applied p index
  | _ => rfl

end Engine

/-- A handle that `open` has made. -/
def openedEngine (ℓ π : Type) : Engine ℓ π := {}

end Readium
end TuxBooks
