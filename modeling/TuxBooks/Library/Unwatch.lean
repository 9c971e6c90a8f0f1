import Mathlib.Data.List.MinMax
import TuxBooks.Library.Membership
import TuxBooks.Library.Registry

set_option relaxedAutoImplicit false
set_option autoImplicit false

/-!
# Unwatching a folder beside everything that writes file rows

The database steps of folder imports, of `unwatch_locations`, and of the reconciler (a batch of the
watcher, a rescan, the catch-up walk at startup), in any order. Each step is one statement or one
operation of the import registry. The reconciler looks at the watch list when it takes a change or
starts a walk, and writes later; what the file system answers is part of the event. A statement that
fails is not modelled.

## Main definitions

* `TuxBooks.Watching`, `TuxBooks.Watching.step` — the machine.
* `TuxBooks.Watching.Careful` — the reconciler writes only where no unwatch has been collecting.
* `TuxBooks.Watching.Sound` — every row is owned by a folder that stays, or is about to go.

## Main results

* `TuxBooks.Watching.no_ghosts` — no row is left under an unwatched folder.
-/

namespace TuxBooks

/-! ## The parties -/

/-- Where the import of a folder stands. -/
inductive ImportStage where
  /-- The scan is registered. -/
  | started
  /-- No watched folder was found above it. -/
  | uncovered
  /-- It is on the watch list. -/
  | added
  /-- The watched folders inside it are being dropped. -/
  | collapsing (nested : List String)
  /-- Its files are being imported. -/
  | scanning
  deriving DecidableEq

/-- An unwatch that has not been refused. -/
structure Purge where
  roots : List String
  /-- The roots whose file rows are still to be listed. -/
  unread : List String
  /-- The roots whose file rows have been listed. -/
  read : List String := []
  /-- The rows listed for a root while their owners are not known. -/
  listed : Option (String × List (ℤ × String)) := none
  /-- The rows to delete. -/
  doomed : List ℤ := []
  /-- The roots to take off the watch list. -/
  standing : List String
  deriving DecidableEq

inductive PathChange where
  | created (path : String)
  | modified (path : String)
  | removed (path : String)
  | renamed (source target : String)
  deriving DecidableEq

/-- A write of the reconciler: an upsert by path, or a relink of one row. -/
inductive FileWrite where
  | put (path : String)
  | relink (file : ℤ) (path : String)
  deriving DecidableEq

/-- One run of the reconciler. -/
structure ReconcileTask where
  /-- The changes of a batch. -/
  changes : List PathChange := []
  /-- A change found to be under the watch. -/
  kept : Option PathChange := none
  /-- The folders to walk. -/
  roots : List String := []
  writes : List FileWrite := []
  deriving DecidableEq

structure Watching where
  /-- `library_locations`. -/
  locations : List String := []
  /-- `books`: the path of each file row. -/
  files : Table ℤ String := ∅
  /-- The last row id that `AUTOINCREMENT` gave to a file row. -/
  fileSeq : ℤ := 0
  importing : Importing := {}
  imports : Table ℕ ImportStage := ∅
  purges : Table ℕ Purge := ∅
  tasks : Table ℕ ReconcileTask := ∅

inductive WatchEvent where
  | start (run : ℕ) (root : String)
  /-- `covered_by_watched_ancestor`. -/
  | check (run : ℕ)
  | addLocation (run : ℕ)
  | descendants (run : ℕ)
  /-- One row of `collapse_descendants`. -/
  | collapse (run : ℕ)
  | importFile (run : ℕ) (names : List (List Char))
  | finish (run : ℕ)
  | unregister (run : ℕ)
  | unwatch (unwatch : ℕ) (paths : List String)
  | block (unwatch : ℕ)
  | wait (unwatch : ℕ)
  /-- `list_books_in_prefix` for the next root. -/
  | listFiles (unwatch : ℕ)
  /-- `list_locations` and the owners of the listed rows. -/
  | owners (unwatch : ℕ)
  | removeLocation (unwatch : ℕ)
  | deleteFile (unwatch : ℕ)
  | clear (unwatch : ℕ)
  /-- A debounced batch of the watcher. -/
  | apply (task : ℕ) (changes : List PathChange)
  /-- A rescan or the catch-up at startup reads the watch list. -/
  | reconcileAll (task : ℕ)
  /-- The watch list is read for the next change. -/
  | underWatch (task : ℕ)
  /-- The change is handled, or the next folder walked: whether the path is a directory or a book,
  and the files to import, each with the row that it moved from. -/
  | plan (task : ℕ) (isDir isBook : Bool) (found : List (List (List Char) × Option ℤ))
  | write (task : ℕ)
  /-- A file that does not parse. -/
  | skip (task : ℕ)

namespace Watching

/-! ## File rows -/

/-- The row of a path. -/
def fileOf (s : Watching) (path : String) : Option ℤ :=
  (s.files.entries.find? fun e => e.2 == path).map (·.1)

def upsertFile (s : Watching) (path : String) : Watching :=
  match s.fileOf path with
  | some _ => s
  | none => { s with files := s.files.insert (s.fileSeq + 1) path, fileSeq := s.fileSeq + 1 }

/-- `relink_book`; a path that another row has is a conflict. -/
def relinkBook (s : Watching) (file : ℤ) (path : String) : Watching :=
  match s.files.lookup file, s.fileOf path with
  | none, _ => s
  | some _, some _ => s
  | some _, none => { s with files := s.files.insert file path }

/-! ## Imports -/

/-- A scan that holds its guard and has not signalled its end. -/
def scan (s : Watching) (run : ℕ) : Option (String × ImportStage) :=
  if run ∈ s.importing.finished then none
  else (s.importing.scans.lookup run).bind fun root =>
    (s.imports.lookup run).map fun stage => (root, stage)

def setStage (s : Watching) (run : ℕ) (stage : ImportStage) : Watching :=
  { s with imports := s.imports.insert run stage }

def startImport (s : Watching) (run : ℕ) (root : String) : Watching :=
  let importing := s.importing.step (.start run root)
  if (s.importing.scans.lookup run).isSome ∨ (importing.scans.lookup run).isNone then s
  else { s with importing := importing, imports := s.imports.insert run .started }

def checkCovered (s : Watching) (run : ℕ) : Watching :=
  match s.scan run with
  | some (root, .started) =>
    if s.locations.any fun candidate => candidate != root && isUnder root candidate then
      s.setStage run .scanning
    else s.setStage run .uncovered
  | _ => s

def addRoot (s : Watching) (run : ℕ) : Watching :=
  match s.scan run with
  | some (root, .uncovered) =>
    { s with
      locations := if root ∈ s.locations then s.locations else s.locations ++ [root]
      imports := s.imports.insert run .added }
  | _ => s

def listDescendants (s : Watching) (run : ℕ) : Watching :=
  match s.scan run with
  | some (root, .added) =>
    s.setStage run
      (.collapsing (s.locations.filter fun path => isUnder path root && path != root))
  | _ => s

def collapse (s : Watching) (run : ℕ) : Watching :=
  match s.scan run with
  | some (_, .collapsing []) => s.setStage run .scanning
  | some (_, .collapsing (path :: nested)) =>
    { s with
      locations := s.locations.filter (· ≠ path)
      imports := s.imports.insert run (.collapsing nested) }
  | _ => s

def importFile (s : Watching) (run : ℕ) (names : List (List Char)) : Watching :=
  match s.scan run with
  | some (root, .scanning) => s.upsertFile (scannedPath root names)
  | _ => s

/-! ## Unwatches -/

/-- The watch list alone, as the refusal check reads it. -/
def watchList (s : Watching) : WatchList := { locations := s.locations }

/-- The paths are trimmed, and the whole call is refused or goes on. -/
def startUnwatch (s : Watching) (u : ℕ) (paths : List String) : Watching :=
  let roots := paths.map trim
  if (s.purges.lookup u).isSome ∨ "" ∈ roots ∨ (s.watchList.refused roots).isSome then s
  else { s with purges := s.purges.insert u { roots := roots, unread := roots, standing := roots } }

def block (s : Watching) (u : ℕ) : Watching :=
  match s.purges.lookup u with
  | some p => { s with importing := s.importing.step (.block u p.roots) }
  | none => s

/-- An unwatch that has waited for the imports. -/
def purging (s : Watching) (u : ℕ) : Option Purge :=
  (s.purges.lookup u).filter fun _ => (s.importing.unwatches.lookup u).any (·.waited)

def setPurge (s : Watching) (u : ℕ) (p : Purge) : Watching :=
  { s with purges := s.purges.insert u p }

def listFiles (s : Watching) (u : ℕ) : Watching :=
  match s.purging u with
  | some p =>
    match p.listed, p.unread with
    | none, root :: unread =>
      let rows := (s.files.entries.filter fun e => inPrefix e.2 root).map fun e => (e.1, e.2)
      s.setPurge u { p with unread := unread, read := root :: p.read, listed := some (root, rows) }
    | _, _ => s
  | none => s

/-- The location that owns a path. -/
def ownerOf (s : Watching) (path : String) : Option String :=
  (owningLocation path (locationIndex s.locations)).bind (s.locations[·]?)

def owners (s : Watching) (u : ℕ) : Watching :=
  match s.purging u with
  | some p =>
    match p.listed with
    | some (root, rows) =>
      let owned := rows.filter fun row => s.ownerOf row.2 == some root
      s.setPurge u { p with listed := none, doomed := p.doomed ++ owned.map (·.1) }
    | none => s
  | none => s

def removeLocation (s : Watching) (u : ℕ) : Watching :=
  match s.purging u with
  | some p =>
    match p.listed, p.unread, p.standing with
    | none, [], root :: standing =>
      { s with
        locations := s.locations.filter (· ≠ root)
        purges := s.purges.insert u { p with standing := standing } }
    | _, _, _ => s
  | none => s

def deleteFile (s : Watching) (u : ℕ) : Watching :=
  match s.purging u with
  | some p =>
    match p.listed, p.unread, p.standing, p.doomed with
    | none, [], [], file :: doomed =>
      { s with
        files := s.files.erase file
        purges := s.purges.insert u { p with doomed := doomed } }
    | _, _, _, _ => s
  | none => s

/-- The guard of an unwatch goes when all is done. -/
def clear (s : Watching) (u : ℕ) : Watching :=
  match s.purging u with
  | some p =>
    if p.listed = none ∧ p.unread = [] ∧ p.standing = [] ∧ p.doomed = [] then
      { s with importing := s.importing.step (.clear u), purges := s.purges.erase u }
    else s
  | none => s

/-! ## The reconciler -/

/-- `under_watch`. -/
def underWatch (s : Watching) (paths : List String) : Bool :=
  paths.any fun path => s.locations.any fun root => startsWith path root

def changedPaths : PathChange → List String
  | .created path | .modified path | .removed path => [path]
  | .renamed source target => [source, target]

def setTask (s : Watching) (task : ℕ) (t : ReconcileTask) : Watching :=
  { s with tasks := s.tasks.insert task t }

/-- A change outside of the watched folders is dropped. -/
def takeChange (s : Watching) (task : ℕ) : Watching :=
  match s.tasks.lookup task with
  | some t =>
    match t.changes, t.kept, t.roots, t.writes with
    | change :: changes, none, [], [] =>
      let kept := if s.underWatch (changedPaths change) then some change else none
      s.setTask task { t with changes := changes, kept := kept }
    | _, _, _, _ => s
  | none => s

/-- The relinks of a directory that moved: every row keeps its place below it. -/
def relinkDirectory (s : Watching) (source target : String) : List FileWrite :=
  (s.files.entries.filter fun e => inPrefix e.2 source).map fun e =>
    let suffix := e.2.toList.drop source.length
    let suffix := if suffix.head? = some '/' then suffix.tail else suffix
    .relink e.1 (target ++ "/" ++ String.ofList suffix)

/-- The writes of one change that is no directory to walk. -/
def changeWrites (s : Watching) (isDir isBook : Bool) : PathChange → List FileWrite
  | .created path => if isDir then [] else [.put path]
  | .modified path => [.put path]
  | .removed _ => []
  | .renamed source target =>
    if isDir then s.relinkDirectory source target
    else match s.fileOf source with
      | none => if isBook then [.put target] else []
      | some file => if isBook then [.relink file target] else []

/-- A new directory is walked like a location. -/
def changeRoots (isDir : Bool) : PathChange → List String
  | .created path => if isDir then [path] else []
  | _ => []

/-- The writes of a walk: a file that moved is relinked, any other one is imported. -/
def walkWrites (root : String) (found : List (List (List Char) × Option ℤ)) : List FileWrite :=
  found.map fun file =>
    match file.2 with
    | some moved => .relink moved (scannedPath root file.1)
    | none => .put (scannedPath root file.1)

def plan (s : Watching) (task : ℕ) (isDir isBook : Bool)
    (found : List (List (List Char) × Option ℤ)) : Watching :=
  match s.tasks.lookup task with
  | some t =>
    match t.kept, t.roots, t.writes with
    | some change, _, [] => s.setTask task
        { t with
          kept := none
          roots := changeRoots isDir change
          writes := s.changeWrites isDir isBook change }
    | none, root :: roots, [] => s.setTask task
        { t with roots := roots, writes := walkWrites root found }
    | _, _, _ => s
  | none => s

def applyWrite (s : Watching) : FileWrite → Watching
  | .put path => s.upsertFile path
  | .relink file path => s.relinkBook file path

def write (s : Watching) (task : ℕ) : Watching :=
  match s.tasks.lookup task with
  | some t =>
    match t.writes with
    | write :: writes => (s.applyWrite write).setTask task { t with writes := writes }
    | [] => s
  | none => s

def skip (s : Watching) (task : ℕ) : Watching :=
  match s.tasks.lookup task with
  | some t => s.setTask task { t with writes := t.writes.tail }
  | none => s

/-! ## The machine -/

/-- One step; one that is not possible changes nothing. -/
def step (s : Watching) : WatchEvent → Watching
  | .start run root => s.startImport run root
  | .check run => s.checkCovered run
  | .addLocation run => s.addRoot run
  | .descendants run => s.listDescendants run
  | .collapse run => s.collapse run
  | .importFile run names => s.importFile run names
  | .finish run => { s with importing := s.importing.step (.finish run) }
  | .unregister run =>
    let importing := s.importing.step (.unregister run)
    if (importing.scans.lookup run).isSome then s
    else { s with importing := importing, imports := s.imports.erase run }
  | .unwatch u paths => s.startUnwatch u paths
  | .block u => s.block u
  | .wait u => { s with importing := s.importing.step (.wait u) }
  | .listFiles u => s.listFiles u
  | .owners u => s.owners u
  | .removeLocation u => s.removeLocation u
  | .deleteFile u => s.deleteFile u
  | .clear u => s.clear u
  | .apply task changes =>
    if (s.tasks.lookup task).isSome then s else s.setTask task { changes := changes }
  | .reconcileAll task =>
    if (s.tasks.lookup task).isSome then s else s.setTask task { roots := s.locations }
  | .underWatch task => s.takeChange task
  | .plan task isDir isBook found => s.plan task isDir isBook found
  | .write task => s.write task
  | .skip task => s.skip task

/-- Every import, unwatch and run of the reconciler is over. -/
def Finished (s : Watching) : Prop :=
  s.imports = ∅ ∧ s.purges = ∅ ∧ ∀ e ∈ s.tasks.entries, e.2 = {}

instance (s : Watching) : Decidable s.Finished :=
  inferInstanceAs (Decidable (_ ∧ _ ∧ ∀ _ ∈ _, _))

/-- The roots of the unwatches of a run. -/
def unwatchedRoots (events : List WatchEvent) : List String :=
  events.flatMap fun event =>
    match event with
    | .unwatch _ paths => paths.map trim
    | _ => []

/-! ## Where the reconciler may write -/

/-- The deepest watched folder above a path. -/
def Owns (locations : List String) (folder path : String) : Prop :=
  folder ∈ locations ∧ isUnder path folder = true ∧
    ∀ other ∈ locations, isUnder path other = true → isUnder folder other = true

instance (locations : List String) (folder path : String) :
    Decidable (Owns locations folder path) :=
  inferInstanceAs (Decidable (_ ∧ _ ∧ ∀ _ ∈ _, _))

/-- A path is owned by a watched folder whose file rows no unwatch in progress has listed. -/
def Settled (s : Watching) (path : String) : Prop :=
  ∃ folder ∈ s.locations, Owns s.locations folder path ∧
    ∀ e ∈ s.purges.entries, folder ∉ e.2.read

instance (s : Watching) (path : String) : Decidable (s.Settled path) :=
  inferInstanceAs (Decidable (∃ _ ∈ _, _))

/-- The path at which a write puts a row. -/
def landing (s : Watching) : FileWrite → Option String
  | .put path => if (s.fileOf path).isNone then some path else none
  | .relink file path =>
    if (s.files.lookup file).isSome ∧ (s.fileOf path).isNone then some path else none

/-- Imported folders are written plainly, the reconciler puts rows at settled paths, and no unwatch
clears a root that another one still has. -/
def Careful (s : Watching) : WatchEvent → Prop
  | .start _ root => isValidLibraryPath root = true ∧ root.toList.getLast? ≠ some '/'
  | .importFile _ names => ScannedNames names
  | .write task => ∀ t ∈ s.tasks.lookup task, ∀ write ∈ t.writes.head?,
      ∀ path ∈ s.landing write, s.Settled path
  | .clear u => s.importing.Clean (.clear u)
  | _ => True

instance (s : Watching) (event : WatchEvent) : Decidable (s.Careful event) := by
  cases event <;> unfold Careful <;> infer_instance

/-! ## The owner of a path -/

section Owner

variable {locations : List String} {folder path : String}

lemma Owns.unique {folder' : String} (h : Owns locations folder path)
    (h' : Owns locations folder' path) : folder = folder' :=
  isUnder_antisymm (h.2.2 folder' h'.1 h'.2.1) (h'.2.2 folder h.1 h.2.1)

/-- A path under some watched folder has an owner. -/
lemma exists_owns (hmem : folder ∈ locations) (h : isUnder path folder = true) :
    ∃ owner, Owns locations owner path := by
  have hcovers : folder ∈ locations.filter fun g => isUnder path g := List.mem_filter.mpr ⟨hmem, h⟩
  obtain ⟨owner, howner⟩ : ∃ owner, owner ∈ (locations.filter fun g => isUnder path g).argmax
      String.length := by
    cases hmax : (locations.filter fun g => isUnder path g).argmax String.length with
    | none =>
      rw [List.argmax_eq_none] at hmax
      rw [hmax] at hcovers
      cases hcovers
    | some owner => exact ⟨owner, rfl⟩
  obtain ⟨hlisted, hunder⟩ := List.mem_filter.mp (List.argmax_mem howner)
  refine ⟨owner, hlisted, hunder, fun other hother hunder' => ?_⟩
  have hlength := List.le_of_mem_argmax (List.mem_filter.mpr ⟨hother, hunder'⟩) howner
  obtain habove | hbelow := overlaps_iff.mp (overlaps_of_common hunder hunder')
  · exact habove
  · obtain rfl | hdeeper := isUnder_iff.mp hbelow
    · exact isUnder_self _
    · have hlonger := hdeeper.length_le
      simp only [List.length_append, List.length_singleton, String.length_toList] at hlonger
      omega

/-- Another folder leaves the watch list. -/
lemma Owns.filter {gone : String} (h : Owns locations folder path) (hne : folder ≠ gone) :
    Owns (locations.filter (· ≠ gone)) folder path :=
  ⟨List.mem_filter.mpr ⟨h.1, decide_eq_true hne⟩, h.2.1,
    fun other hother => h.2.2 other (List.mem_of_mem_filter hother)⟩

/-- A new folder owns what is deeper in it than in the owner so far. -/
lemma Owns.append (h : Owns locations folder path) (root : String) :
    Owns (locations ++ [root]) folder path ∨ Owns (locations ++ [root]) root path := by
  have hold : folder ∈ locations ++ [root] := List.mem_append_left _ h.1
  have hnew : root ∈ locations ++ [root] := List.mem_append_right _ (List.mem_singleton.mpr rfl)
  by_cases hunder : isUnder path root = true
  · obtain habove | hbelow := overlaps_iff.mp (overlaps_of_common h.2.1 hunder)
    · refine Or.inl ⟨hold, h.2.1, fun other hother hpath => ?_⟩
      obtain hother | hother := List.mem_append.mp hother
      · exact h.2.2 other hother hpath
      · rw [List.mem_singleton.mp hother]
        exact habove
    · refine Or.inr ⟨hnew, hunder, fun other hother hpath => ?_⟩
      obtain hother | hother := List.mem_append.mp hother
      · exact isUnder_trans hbelow (h.2.2 other hother hpath)
      · rw [List.mem_singleton.mp hother]
        exact isUnder_self root
  · refine Or.inl ⟨hold, h.2.1, fun other hother hpath => ?_⟩
    obtain hother | hother := List.mem_append.mp hother
    · exact h.2.2 other hother hpath
    · rw [List.mem_singleton.mp hother] at hpath
      exact absurd hpath hunder

lemma ownerOf_eq {s : Watching} (h : Owns s.locations folder path) (hne : folder ≠ "") :
    s.ownerOf path = some folder :=
  owningLocation_eq h.1 hne h.2.1 h.2.2

end Owner

/-! ## The invariant -/

/-- What the stage of an import says of the watch list. -/
def StageOk (locations : List String) (root : String) : ImportStage → Prop
  | .started | .uncovered => True
  | .added => root ∈ locations
  | .collapsing nested => root ∈ locations ∧ ∀ path ∈ nested, isUnder path root = true ∧ path ≠ root
  | .scanning => ∃ folder ∈ locations, isUnder root folder = true

/-- What an unwatch has done, beside its entry in the registry. -/
structure PurgeOk (importing : Importing) (u : ℕ) (p : Purge) : Prop where
  read : ∀ root ∈ p.read, root ∈ p.roots
  unread : ∀ root ∈ p.unread, root ∈ p.roots
  standing : ∀ root ∈ p.standing, root ∈ p.unread ∨ root ∈ p.read
  roots : ∀ w, importing.unwatches.lookup u = some w → w.roots = p.roots
  waited : p.read ≠ [] → ∃ w, importing.unwatches.lookup u = some w ∧ w.waited = true

/-- A row is about to be deleted, or its owner has not been collected, or only just listed with the
row. -/
def Kept (s : Watching) (file : ℤ) (path : String) : Prop :=
  (∃ u p, s.purges.lookup u = some p ∧ file ∈ p.doomed) ∨
    ∃ folder, Owns s.locations folder path ∧ ∀ u p, s.purges.lookup u = some p → folder ∈ p.read →
      ∃ rows, p.listed = some (folder, rows) ∧ (file, path) ∈ rows

structure Sound (s : Watching) : Prop where
  tracked : s.importing.Tracked
  spelled : ∀ run root, s.importing.scans.lookup run = some root →
    ∃ segs, segs ≠ [] ∧ Spelled root segs
  named : ∀ folder ∈ s.locations, folder ≠ ""
  stage : ∀ run root stage, s.scan run = some (root, stage) → StageOk s.locations root stage
  purge : ∀ u p, s.purges.lookup u = some p → PurgeOk s.importing u p
  blocked : ∀ u, (s.importing.unwatches.lookup u).isSome → (s.purges.lookup u).isSome
  rows : ∀ file path, s.files.lookup file = some path → s.Kept file path

lemma sound_empty : Sound {} where
  tracked := Importing.tracked_empty
  spelled := fun _ _ h => by cases h
  named := fun _ h => by cases h
  stage := fun _ _ _ h => by cases h
  purge := fun _ _ h => by cases h
  blocked := fun _ h => by cases h
  rows := fun _ _ h => by cases h

variable {s : Watching}

lemma scan_eq_some {run : ℕ} {root : String} {stage : ImportStage} :
    s.scan run = some (root, stage) ↔ run ∉ s.importing.finished ∧
      s.importing.scans.lookup run = some root ∧ s.imports.lookup run = some stage := by
  unfold scan
  split_ifs with hfinished
  · simp [hfinished]
  · simp only [Option.bind_eq_some_iff, Option.map_eq_some_iff, Prod.mk.injEq, hfinished,
      not_false_eq_true, true_and]
    constructor
    · rintro ⟨root', hroot, stage', hstage, rfl, rfl⟩
      exact ⟨hroot, hstage⟩
    · rintro ⟨hroot, hstage⟩
      exact ⟨root, hroot, stage, hstage, rfl, rfl⟩

/-- An import and an unwatch that collects stay apart. -/
lemma Sound.apart (h : s.Sound) {run u : ℕ} {root folder : String} {stage : ImportStage} {p : Purge}
    (hscan : s.scan run = some (root, stage)) (hp : s.purges.lookup u = some p)
    (hread : folder ∈ p.read) : overlaps root folder = false := by
  obtain ⟨hlive, hroot, -⟩ := scan_eq_some.mp hscan
  obtain ⟨w, hw, hwaited⟩ := (h.purge u p hp).waited (List.ne_nil_of_mem hread)
  refine h.tracked.exclusive.unwatch u w hw (h.tracked.waited u w hw hwaited) run root hroot hlive
    folder ?_
  rw [(h.purge u p hp).roots w hw]
  exact (h.purge u p hp).read folder hread

/-- The folder of a running import is not collected, nor is any folder beside or above it. -/
lemma Sound.not_read (h : s.Sound) {run : ℕ} {root folder : String} {stage : ImportStage}
    (hscan : s.scan run = some (root, stage)) (hover : overlaps root folder = true) {u : ℕ}
    {p : Purge} (hp : s.purges.lookup u = some p) : folder ∉ p.read := by
  intro hread
  rw [h.apart hscan hp hread] at hover
  cases hover

/-! ## Imports -/

/-- The unwatches know the same of the registry. -/
lemma PurgeOk.congr {importing importing' : Importing} {u : ℕ} {p : Purge}
    (h : PurgeOk importing u p) (heq : importing'.unwatches = importing.unwatches) :
    PurgeOk importing' u p :=
  ⟨h.read, h.unread, h.standing, heq ▸ h.roots, heq ▸ h.waited⟩

lemma lookup_insert_some {ρ : Type} {t : Table ℕ ρ} {run run' : ℕ} {r r' : ρ}
    (h : (t.insert run r).lookup run' = some r') :
    run' = run ∧ r' = r ∨ run' ≠ run ∧ t.lookup run' = some r' := by
  rw [Table.lookup_insert'] at h
  split_ifs at h with hrun
  · exact Or.inl ⟨hrun, (Option.some.inj h).symm⟩
  · exact Or.inr ⟨hrun, h⟩

lemma Sound.startImport (h : s.Sound) (run : ℕ) {root : String}
    (hroot : isValidLibraryPath root = true ∧ root.toList.getLast? ≠ some '/') :
    (s.startImport run root).Sound := by
  obtain ⟨hfinished, hunwatches, hscans⟩ := s.importing.step_start run root
  unfold Watching.startImport
  dsimp only
  split_ifs with hno
  · exact h
  · rw [not_or, Option.not_isSome_iff_eq_none] at hno
    refine ⟨h.tracked.start run root, fun run' root' hrun' => ?_, h.named,
      fun run' root' stage hscan => ?_, fun u p hp => (h.purge u p hp).congr hunwatches,
      fun u hu => h.blocked u (hunwatches ▸ hu), h.rows⟩
    · obtain heq | heq := hscans
      · exact h.spelled run' root' (heq ▸ hrun')
      · change (s.importing.step (.start run root)).scans.lookup run' = some root' at hrun'
        rw [heq] at hrun'
        obtain ⟨-, rfl⟩ | ⟨-, hold⟩ := lookup_insert_some hrun'
        · exact spelled_of_valid hroot.1 hroot.2
        · exact h.spelled run' root' hold
    · obtain ⟨hlive, hrun', hstage⟩ := scan_eq_some.mp hscan
      obtain ⟨-, rfl⟩ | ⟨hne, hold⟩ := lookup_insert_some hstage
      · trivial
      · refine h.stage run' root' stage (scan_eq_some.mpr ⟨hfinished ▸ hlive, ?_, hold⟩)
        change (s.importing.step (.start run root)).scans.lookup run' = some root' at hrun'
        obtain heq | heq := hscans
        · exact heq ▸ hrun'
        · rwa [heq, AList.lookup_insert_ne hne] at hrun'

/-- A new stage of an import, with the watch list as it is. -/
lemma Sound.setStage (h : s.Sound) {run : ℕ} {root : String} {old : ImportStage}
    (hscan : s.scan run = some (root, old)) {stage : ImportStage}
    (hstage : StageOk s.locations root stage) : (s.setStage run stage).Sound := by
  refine ⟨h.tracked, h.spelled, h.named, fun run' root' stage' hscan' => ?_, h.purge, h.blocked,
    h.rows⟩
  obtain ⟨hlive, hroot, hstage'⟩ := scan_eq_some.mp hscan'
  obtain ⟨rfl, rfl⟩ | ⟨-, hold⟩ := lookup_insert_some hstage'
  · obtain rfl := Option.some.inj ((scan_eq_some.mp hscan).2.1.symm.trans hroot)
    exact hstage
  · exact h.stage run' root' stage' (scan_eq_some.mpr ⟨hlive, hroot, hold⟩)

lemma Sound.checkCovered (h : s.Sound) (run : ℕ) : (s.checkCovered run).Sound := by
  unfold Watching.checkCovered
  split
  · rename_i root hscan
    split_ifs with hcovered
    · obtain ⟨folder, hfolder, hunder⟩ := List.any_eq_true.mp hcovered
      exact h.setStage hscan ⟨folder, hfolder, (Bool.and_eq_true _ _ ▸ hunder).2⟩
    · exact h.setStage hscan trivial
  · exact h

/-- More folders are watched. -/
lemma StageOk.mono {locations locations' : List String} (hmono : ∀ x ∈ locations, x ∈ locations')
    {root : String} {stage : ImportStage} (h : StageOk locations root stage) :
    StageOk locations' root stage := by
  cases stage with
  | started => trivial
  | uncovered => trivial
  | added => exact hmono root h
  | collapsing nested => exact ⟨hmono root h.1, h.2⟩
  | scanning =>
    obtain ⟨folder, hfolder, hunder⟩ := h
    exact ⟨folder, hmono folder hfolder, hunder⟩

lemma Sound.addRoot (h : s.Sound) (run : ℕ) : (s.addRoot run).Sound := by
  unfold Watching.addRoot
  split
  · rename_i root hscan
    obtain ⟨-, hroot, -⟩ := scan_eq_some.mp hscan
    by_cases hmem : root ∈ s.locations
    · rw [if_pos hmem]
      have hstage : StageOk s.locations root .added := hmem
      exact h.setStage hscan hstage
    · rw [if_neg hmem]
      have hmono : ∀ x ∈ s.locations, x ∈ s.locations ++ [root] :=
        fun x hx => List.mem_append_left _ hx
      refine ⟨h.tracked, h.spelled, fun folder hfolder => ?_, fun run' root' stage hscan' => ?_,
        h.purge, h.blocked, fun file path hfile => ?_⟩
      · obtain hfolder | hfolder := List.mem_append.mp hfolder
        · exact h.named folder hfolder
        · obtain ⟨segs, hsegs, hspelled⟩ := h.spelled run root hroot
          rw [List.mem_singleton.mp hfolder]
          exact fun hempty => (hspelled.getLast hsegs).1 (by rw [hempty]; rfl)
      · obtain ⟨hlive, hroot', hstage⟩ := scan_eq_some.mp hscan'
        obtain ⟨rfl, rfl⟩ | ⟨-, hold⟩ := lookup_insert_some hstage
        · obtain rfl := Option.some.inj (hroot.symm.trans hroot')
          exact List.mem_append_right _ (List.mem_singleton.mpr rfl)
        · exact (h.stage run' root' stage (scan_eq_some.mpr ⟨hlive, hroot', hold⟩)).mono hmono
      · refine (h.rows file path hfile).imp_right fun ⟨folder, howns, hread⟩ => ?_
        obtain howns' | howns' := howns.append root
        · exact ⟨folder, howns', hread⟩
        · exact ⟨root, howns', fun u p hp hmem' =>
            absurd hmem' (h.not_read hscan (overlaps_self root) hp)⟩
  · exact h

lemma Sound.listDescendants (h : s.Sound) (run : ℕ) : (s.listDescendants run).Sound := by
  unfold Watching.listDescendants
  split
  · rename_i root hscan
    refine h.setStage hscan ⟨h.stage run root _ hscan, fun path hpath => ?_⟩
    have hnested := (List.mem_filter.mp hpath).2
    rw [Bool.and_eq_true, bne_iff_ne] at hnested
    exact hnested
  · exact h

/-- A folder leaves the watch list that no running import needs. -/
lemma StageOk.remove {locations : List String} {root gone : String} {stage : ImportStage}
    (h : StageOk locations root stage) (hgone : overlaps root gone = false) :
    StageOk (locations.filter (· ≠ gone)) root stage := by
  have hkeep : ∀ x ∈ locations, overlaps root x = true → x ∈ locations.filter (· ≠ gone) := by
    refine fun x hx hover => List.mem_filter.mpr ⟨hx, decide_eq_true ?_⟩
    rintro rfl
    rw [hgone] at hover
    cases hover
  cases stage with
  | started => trivial
  | uncovered => trivial
  | added => exact hkeep root h (overlaps_self root)
  | collapsing nested => exact ⟨hkeep root h.1 (overlaps_self root), h.2⟩
  | scanning =>
    obtain ⟨folder, hfolder, hunder⟩ := h
    exact ⟨folder, hkeep folder hfolder (overlaps_iff.mpr (Or.inl hunder)), hunder⟩

lemma Sound.collapse (h : s.Sound) (run : ℕ) : (s.collapse run).Sound := by
  unfold Watching.collapse
  split
  · rename_i root hscan
    exact h.setStage hscan ⟨root, (h.stage run root _ hscan).1, isUnder_self root⟩
  · rename_i root gone nested hscan
    obtain ⟨hlive, hroot, -⟩ := scan_eq_some.mp hscan
    obtain ⟨hlisted, hnested⟩ := h.stage run root _ hscan
    obtain ⟨hunder, hne⟩ := hnested gone List.mem_cons_self
    have hroot' : root ∈ s.locations.filter (· ≠ gone) :=
      List.mem_filter.mpr ⟨hlisted, decide_eq_true (Ne.symm hne)⟩
    refine ⟨h.tracked, h.spelled,
      fun folder hfolder => h.named folder (List.mem_of_mem_filter hfolder),
      fun run' root' stage hscan' => ?_, h.purge, h.blocked, fun file path hfile => ?_⟩
    · obtain ⟨hlive', hrun', hstage⟩ := scan_eq_some.mp hscan'
      obtain ⟨rfl, rfl⟩ | ⟨hother, hold⟩ := lookup_insert_some hstage
      · obtain rfl := Option.some.inj (hroot.symm.trans hrun')
        exact ⟨hroot', fun path hpath => hnested path (List.mem_cons_of_mem _ hpath)⟩
      · -- the other imports are elsewhere
        refine (h.stage run' root' stage (scan_eq_some.mpr ⟨hlive', hrun', hold⟩)).remove ?_
        refine Bool.eq_false_of_not_eq_true fun hover => ?_
        have hapart := h.tracked.exclusive.scans run' root' run root hrun' hroot hother
        have hover' : overlaps root' root = true := by
          obtain hover | hover := overlaps_iff.mp hover
          · exact overlaps_iff.mpr (Or.inl (isUnder_trans hover hunder))
          · exact overlaps_of_common hover hunder
        rw [hapart] at hover'
        cases hover'
    · refine (h.rows file path hfile).imp_right fun ⟨folder, howns, hread⟩ => ?_
      by_cases hfolder : folder = gone
      · -- the row goes to the imported folder, or to one inside it
        subst hfolder
        obtain ⟨owner, howner⟩ := exists_owns hroot' (isUnder_trans howns.2.1 hunder)
        refine ⟨owner, howner, fun u p hp hmem => absurd hmem (h.not_read hscan ?_ hp)⟩
        exact overlaps_of_common (isUnder_trans howns.2.1 hunder) howner.2.1
      · exact ⟨folder, howns.filter hfolder, hread⟩
  · exact h

/-- One more row, at a path whose owner is not collected. -/
lemma Sound.insertFile (h : s.Sound) (file : ℤ) {path : String} (hpath : s.Kept file path)
    (seq : ℤ) : ({ s with
      files := s.files.insert file path
      fileSeq := seq } : Watching).Sound := by
  refine ⟨h.tracked, h.spelled, h.named, h.stage, h.purge, h.blocked, fun file' path' hfile => ?_⟩
  change (s.files.insert file path).lookup file' = some path' at hfile
  rw [Table.lookup_insert'] at hfile
  split_ifs at hfile with heq
  · obtain rfl := Option.some.inj hfile
    subst heq
    exact hpath
  · exact h.rows file' path' hfile

lemma Sound.importFile (h : s.Sound) (run : ℕ) {names : List (List Char)}
    (hnames : ScannedNames names) : (s.importFile run names).Sound := by
  unfold Watching.importFile
  split
  · rename_i root hscan
    unfold upsertFile
    split
    · exact h
    · obtain ⟨-, hroot, -⟩ := scan_eq_some.mp hscan
      obtain ⟨segs, hsegs, hspelled⟩ := h.spelled run root hroot
      have hunder : isUnder (scannedPath root names) root = true :=
        isUnder_iff.mpr (Or.inr (WatchList.inside_scannedPath hspelled hsegs hnames))
      obtain ⟨folder, hfolder, habove⟩ := h.stage run root _ hscan
      obtain ⟨owner, howner⟩ := exists_owns hfolder (isUnder_trans hunder habove)
      refine h.insertFile _ (Or.inr ⟨owner, howner, fun u p hp hmem => ?_⟩) _
      exact absurd hmem (h.not_read hscan (overlaps_of_common hunder howner.2.1) hp)
  · exact h

lemma Sound.finish (h : s.Sound) (run : ℕ) :
    ({ s with importing := s.importing.step (.finish run) } : Watching).Sound := by
  obtain ⟨hscans, hunwatches, hfinished⟩ := s.importing.step_finish run
  refine ⟨h.tracked.finish run,
    fun run' root hrun' => h.spelled run' root (hscans ▸ hrun'), h.named,
    fun run' root stage hscan => ?_, fun u p hp => (h.purge u p hp).congr hunwatches,
    fun u hu => h.blocked u (hunwatches ▸ hu), h.rows⟩
  obtain ⟨hlive, hroot, hstage⟩ := scan_eq_some.mp hscan
  exact h.stage run' root stage
    (scan_eq_some.mpr ⟨fun hmem => hlive (hfinished hmem), hscans ▸ hroot, hstage⟩)

lemma Sound.unregister (h : s.Sound) (run : ℕ) : (s.step (.unregister run)).Sound := by
  obtain ⟨hfinished, hunwatches, hscans⟩ := s.importing.step_unregister run
  unfold Watching.step
  dsimp only
  split_ifs
  · exact h
  · have hold : ∀ run' root, (s.importing.step (.unregister run)).scans.lookup run' = some root →
        s.importing.scans.lookup run' = some root := by
      intro run' root hrun'
      obtain heq | heq := hscans
      · exact heq ▸ hrun'
      · rw [heq, Table.lookup_erase'] at hrun'
        split_ifs at hrun'
        exact hrun'
    refine ⟨h.tracked.unregister run,
      fun run' root hrun' => h.spelled run' root (hold run' root hrun'),
      h.named, fun run' root stage hscan => ?_, fun u p hp => (h.purge u p hp).congr hunwatches,
      fun u hu => h.blocked u (hunwatches ▸ hu), h.rows⟩
    obtain ⟨hlive, hroot, hstage⟩ := scan_eq_some.mp hscan
    rw [Table.lookup_erase'] at hstage
    split_ifs at hstage
    exact h.stage run' root stage
      (scan_eq_some.mpr ⟨hfinished ▸ hlive, hold run' root hroot, hstage⟩)

/-! ## Unwatches -/

lemma purging_eq_some {u : ℕ} {p : Purge} (h : s.purging u = some p) :
    s.purges.lookup u = some p ∧
      ∃ w, s.importing.unwatches.lookup u = some w ∧ w.waited = true := by
  obtain ⟨hp, hwaited⟩ := Option.filter_eq_some_iff.mp h
  obtain ⟨w, hw, hwaited⟩ := (Option.any_eq_true _ _).mp hwaited
  exact ⟨hp, w, hw, hwaited⟩

/-- One unwatch goes on, with the tables as they are. -/
lemma Sound.setPurge (h : s.Sound) {u : ℕ} {p : Purge} (hp : PurgeOk s.importing u p)
    (hrows : ∀ file path, s.files.lookup file = some path → (s.setPurge u p).Kept file path) :
    (s.setPurge u p).Sound := by
  refine ⟨h.tracked, h.spelled, h.named, h.stage, fun u' p' hp' => ?_, fun u' hu' => ?_, hrows⟩
  · obtain ⟨rfl, rfl⟩ | ⟨-, hold⟩ := lookup_insert_some hp'
    · exact hp
    · exact h.purge u' p' hold
  · change ((s.purges.insert u p).lookup u').isSome = true
    rw [Table.lookup_insert']
    split_ifs
    · rfl
    · exact h.blocked u' hu'

/-- What is kept stays kept when an unwatch dooms the same rows and more, and every row of a folder
that it has read. -/
lemma Kept.setPurge {u : ℕ} {p p' : Purge} (hp : s.purges.lookup u = some p) {file : ℤ}
    {path : String} (hdoomed : ∀ file ∈ p.doomed, file ∈ p'.doomed)
    (hread : ∀ folder, Owns s.locations folder path → folder ∈ p'.read →
      (folder ∈ p.read → ∃ rows, p.listed = some (folder, rows) ∧ (file, path) ∈ rows) →
      file ∈ p'.doomed ∨ ∃ rows, p'.listed = some (folder, rows) ∧ (file, path) ∈ rows)
    (h : s.Kept file path) : (s.setPurge u p').Kept file path := by
  have hself : (s.setPurge u p').purges.lookup u = some p' := AList.lookup_insert _
  obtain ⟨v, q, hq, hmem⟩ | ⟨folder, howns, hrest⟩ := h
  · refine Or.inl ?_
    by_cases huv : v = u
    · subst huv
      obtain rfl := Option.some.inj (hp.symm.trans hq)
      exact ⟨v, p', hself, hdoomed file hmem⟩
    · exact ⟨v, q, (AList.lookup_insert_ne huv).trans hq, hmem⟩
  · by_cases hcollected : folder ∈ p'.read
    · obtain hmem | hlisted := hread folder howns hcollected (hrest u p hp)
      · exact Or.inl ⟨u, p', hself, hmem⟩
      · refine Or.inr ⟨folder, howns, fun v q hq hmem => ?_⟩
        obtain ⟨rfl, rfl⟩ | ⟨-, hold⟩ := lookup_insert_some hq
        · exact hlisted
        · exact hrest v q hold hmem
    · refine Or.inr ⟨folder, howns, fun v q hq hmem => ?_⟩
      obtain ⟨rfl, rfl⟩ | ⟨-, hold⟩ := lookup_insert_some hq
      · exact absurd hmem hcollected
      · exact hrest v q hold hmem

lemma Sound.startUnwatch (h : s.Sound) (u : ℕ) (paths : List String) :
    (s.startUnwatch u paths).Sound := by
  unfold Watching.startUnwatch
  dsimp only
  split_ifs with hno
  · exact h
  · rw [not_or, Option.not_isSome_iff_eq_none] at hno
    have hnone : s.importing.unwatches.lookup u = none := by
      by_contra hsome
      have := h.blocked u (Option.isSome_iff_ne_none.mpr hsome)
      rw [hno.1] at this
      cases this
    refine h.setPurge ?_ fun file path hfile => ?_
    · refine ⟨fun root hroot => ?_, fun root hroot => hroot, fun root hroot => Or.inl hroot,
        fun w hw => ?_, fun hne => absurd rfl hne⟩
      · cases hroot
      · rw [hnone] at hw
        cases hw
    · obtain ⟨v, q, hq, hmem⟩ | ⟨folder, howns, hrest⟩ := h.rows file path hfile
      · refine Or.inl ⟨v, q, (AList.lookup_insert_ne ?_).trans hq, hmem⟩
        rintro rfl
        rw [hno.1] at hq
        cases hq
      · refine Or.inr ⟨folder, howns, fun v q hq hmem => ?_⟩
        obtain ⟨-, rfl⟩ | ⟨-, hold⟩ := lookup_insert_some hq
        · cases hmem
        · exact hrest v q hold hmem

lemma Sound.block (h : s.Sound) (u : ℕ) : (s.block u).Sound := by
  unfold Watching.block
  cases hp : s.purges.lookup u with
  | none => exact h
  | some p =>
    obtain ⟨hscans, hfinished, hunwatches⟩ := s.importing.step_block u p.roots
    refine ⟨h.tracked.block u p.roots,
      fun run root hrun => h.spelled run root (hscans ▸ hrun), h.named,
      fun run root stage hscan => ?_, fun v q hq => ?_, fun v hv => ?_, h.rows⟩
    · obtain ⟨hlive, hroot, hstage⟩ := scan_eq_some.mp hscan
      exact h.stage run root stage (scan_eq_some.mpr ⟨hfinished ▸ hlive, hscans ▸ hroot, hstage⟩)
    · obtain heq | ⟨w, hw, hnone, heq⟩ := hunwatches
      · exact (h.purge v q hq).congr heq
      · have hok := h.purge v q hq
        refine ⟨hok.read, hok.unread, hok.standing, fun w' hw' => ?_, fun hne => ?_⟩
        · rw [heq] at hw'
          obtain ⟨rfl, rfl⟩ | ⟨-, hold⟩ := lookup_insert_some hw'
          · rw [hw, Option.some.inj (hp.symm.trans hq)]
          · exact hok.roots w' hold
        · obtain ⟨w', hw', hwaited⟩ := hok.waited hne
          refine ⟨w', ?_, hwaited⟩
          rw [heq, AList.lookup_insert_ne]
          · exact hw'
          · rintro rfl
            rw [hnone] at hw'
            cases hw'
    · change ((s.importing.step (.block u p.roots)).unwatches.lookup v).isSome = true at hv
      obtain heq | ⟨w, hw, hnone, heq⟩ := hunwatches
      · exact h.blocked v (heq ▸ hv)
      · rw [heq, Table.lookup_insert'] at hv
        split_ifs at hv with huv
        · rw [huv]
          exact Option.isSome_of_eq_some hp
        · exact h.blocked v hv

lemma Sound.wait (h : s.Sound) (u : ℕ) :
    ({ s with importing := s.importing.step (.wait u) } : Watching).Sound := by
  obtain ⟨hscans, hfinished, hunwatches⟩ := s.importing.step_wait u
  refine ⟨h.tracked.wait u, fun run root hrun => h.spelled run root (hscans ▸ hrun), h.named,
    fun run root stage hscan => ?_, fun v q hq => ?_, fun v hv => ?_, h.rows⟩
  · obtain ⟨hlive, hroot, hstage⟩ := scan_eq_some.mp hscan
    exact h.stage run root stage (scan_eq_some.mpr ⟨hfinished ▸ hlive, hscans ▸ hroot, hstage⟩)
  · obtain heq | ⟨w, hw, heq⟩ := hunwatches
    · exact (h.purge v q hq).congr heq
    · have hok := h.purge v q hq
      refine ⟨hok.read, hok.unread, hok.standing, fun w' hw' => ?_, fun hne => ?_⟩
      · rw [heq] at hw'
        obtain ⟨rfl, rfl⟩ | ⟨-, hold⟩ := lookup_insert_some hw'
        · exact hok.roots w hw
        · exact hok.roots w' hold
      · obtain ⟨w', hw', hwaited⟩ := hok.waited hne
        rw [heq]
        by_cases huv : v = u
        · rw [huv, AList.lookup_insert]
          exact ⟨_, rfl, rfl⟩
        · exact ⟨w', (AList.lookup_insert_ne huv).trans hw', hwaited⟩
  · change ((s.importing.step (.wait u)).unwatches.lookup v).isSome = true at hv
    obtain heq | ⟨w, hw, heq⟩ := hunwatches
    · exact h.blocked v (heq ▸ hv)
    · rw [heq, Table.lookup_insert'] at hv
      split_ifs at hv with huv
      · exact h.blocked v (huv ▸ Option.isSome_of_eq_some hw)
      · exact h.blocked v hv

/-- The rows under a root are listed. -/
lemma Sound.listFiles (h : s.Sound) (u : ℕ) : (s.listFiles u).Sound := by
  unfold Watching.listFiles
  split
  · rename_i p hpurging
    obtain ⟨hp, w, hw, hwaited⟩ := purging_eq_some hpurging
    have hok := h.purge u p hp
    split
    · rename_i root unread hlisted hunread
      refine h.setPurge ⟨fun r hr => ?_,
        fun r hr => hok.unread r (hunread ▸ List.mem_cons_of_mem _ hr),
        fun r hr => ?_, hok.roots, fun _ => ⟨w, hw, hwaited⟩⟩ fun file path hfile =>
          (h.rows file path hfile).setPurge hp (fun _ hmem => hmem)
            fun folder howns hread hrest => ?_
      · obtain rfl | hr := List.mem_cons.mp hr
        · exact hok.unread r (hunread ▸ List.mem_cons_self)
        · exact hok.read r hr
      · obtain hr | hr := hok.standing r hr
        · rw [hunread] at hr
          obtain rfl | hr := List.mem_cons.mp hr
          · exact Or.inr List.mem_cons_self
          · exact Or.inl hr
        · exact Or.inr (List.mem_cons_of_mem _ hr)
      · refine Or.inr ?_
        obtain rfl | hread := List.mem_cons.mp hread
        · refine ⟨_, rfl, List.mem_map.mpr ⟨⟨file, path⟩, List.mem_filter.mpr ⟨?_, ?_⟩, rfl⟩⟩
          · exact Table.lookup_eq_some_iff.mp hfile
          · rw [inPrefix_eq_isUnder]
            exact howns.2.1
        · obtain ⟨rows, hrows, -⟩ := hrest hread
          rw [hlisted] at hrows
          cases hrows
    · exact h
  · exact h

/-- The rows that the root owns are doomed. -/
lemma Sound.owners (h : s.Sound) (u : ℕ) : (s.owners u).Sound := by
  unfold Watching.owners
  split
  · rename_i p hpurging
    obtain ⟨hp, -⟩ := purging_eq_some hpurging
    have hok := h.purge u p hp
    split
    · rename_i root rows hlisted
      refine h.setPurge ⟨hok.read, hok.unread, hok.standing, hok.roots, hok.waited⟩
        fun file path hfile => (h.rows file path hfile).setPurge hp
          (fun _ hmem => List.mem_append_left _ hmem) fun folder howns hread hrest => Or.inl ?_
      obtain ⟨rows', hrows', hmem⟩ := hrest hread
      rw [hlisted] at hrows'
      cases hrows'
      refine List.mem_append_right _ (List.mem_map.mpr
        ⟨(file, path), List.mem_filter.mpr ⟨hmem, ?_⟩,
        rfl⟩)
      rw [ownerOf_eq howns (h.named root howns.1), beq_self_eq_true]
    · exact h
  · exact h

/-- A root leaves the watch list: its rows are doomed. -/
lemma Sound.removeLocation (h : s.Sound) (u : ℕ) : (s.removeLocation u).Sound := by
  unfold Watching.removeLocation
  split
  · rename_i p hpurging
    obtain ⟨hp, -⟩ := purging_eq_some hpurging
    have hok := h.purge u p hp
    split
    · rename_i root standing hlisted hunread hstanding
      have hread : root ∈ p.read := by
        obtain hmem | hmem := hok.standing root (hstanding ▸ List.mem_cons_self)
        · rw [hunread] at hmem
          cases hmem
        · exact hmem
      have hnext := h.setPurge (u := u) (p := { p with standing := standing })
        ⟨hok.read, hok.unread,
        fun r hr => hok.standing r (hstanding ▸ List.mem_cons_of_mem _ hr), hok.roots, hok.waited⟩
        fun file path hfile => (h.rows file path hfile).setPurge hp (fun _ hmem => hmem)
          fun folder howns hmem hrest => Or.inr (hrest hmem)
      refine ⟨h.tracked, h.spelled,
        fun folder hfolder => h.named folder (List.mem_of_mem_filter hfolder),
        fun run root' stage hscan => (h.stage run root' stage hscan).remove
          (h.apart hscan hp hread),
        hnext.purge, hnext.blocked, fun file path hfile => ?_⟩
      refine (hnext.rows file path hfile).imp_right fun ⟨folder, howns, hrest⟩ => ?_
      refine ⟨folder, howns.filter ?_, hrest⟩
      rintro rfl
      obtain ⟨rows, hrows, -⟩ := hrest u _ (AList.lookup_insert _) hread
      exact absurd (hlisted.symm.trans hrows) nofun
    · exact h
  · exact h

lemma Sound.deleteFile (h : s.Sound) (u : ℕ) : (s.deleteFile u).Sound := by
  unfold Watching.deleteFile
  split
  · rename_i p hpurging
    obtain ⟨hp, -⟩ := purging_eq_some hpurging
    have hok := h.purge u p hp
    split
    · rename_i file doomed hlisted hunread hstanding hdoomed
      refine ⟨h.tracked, h.spelled, h.named, h.stage, fun v q hq => ?_, fun v hv => ?_,
        fun file' path hfile => ?_⟩
      · obtain ⟨rfl, rfl⟩ | ⟨-, hold⟩ := lookup_insert_some hq
        · exact ⟨hok.read, hok.unread, hok.standing, hok.roots, hok.waited⟩
        · exact h.purge v q hold
      · change ((s.purges.insert u _).lookup v).isSome = true
        rw [Table.lookup_insert']
        split_ifs
        · rfl
        · exact h.blocked v hv
      · change (s.files.erase file).lookup file' = some path at hfile
        rw [Table.lookup_erase'] at hfile
        split_ifs at hfile with hne
        obtain ⟨v, q, hq, hmem⟩ | ⟨folder, howns, hrest⟩ := h.rows file' path hfile
        · refine Or.inl ?_
          by_cases huv : v = u
          · subst huv
            obtain rfl := Option.some.inj (hp.symm.trans hq)
            rw [hdoomed] at hmem
            exact ⟨v, _, AList.lookup_insert _, (List.mem_cons.mp hmem).resolve_left hne⟩
          · exact ⟨v, q, (AList.lookup_insert_ne huv).trans hq, hmem⟩
        · refine Or.inr ⟨folder, howns, fun v q hq hread => ?_⟩
          obtain ⟨rfl, rfl⟩ | ⟨-, hold⟩ := lookup_insert_some hq
          · exact hrest v p hp hread
          · exact hrest v q hold hread
    · exact h
  · exact h

lemma Sound.clear (h : s.Sound) (u : ℕ) (hclean : s.importing.Clean (.clear u)) :
    (s.clear u).Sound := by
  unfold Watching.clear
  split
  · rename_i p hpurging
    obtain ⟨hp, -⟩ := purging_eq_some hpurging
    split_ifs with hdone
    · obtain ⟨hscans, hfinished, hunwatches⟩ := s.importing.step_clear u
      have hother : ∀ v q, (s.purges.erase u).lookup v = some q →
          v ≠ u ∧ s.purges.lookup v = some q := by
        intro v q hq
        rw [Table.lookup_erase'] at hq
        split_ifs at hq with hne
        exact ⟨hne, hq⟩
      refine ⟨h.tracked.clear u hclean, fun run root hrun => h.spelled run root (hscans ▸ hrun),
        h.named, fun run root stage hscan => ?_, fun v q hq => ?_, fun v hv => ?_,
        fun file path hfile => ?_⟩
      · obtain ⟨hlive, hroot, hstage⟩ := scan_eq_some.mp hscan
        exact h.stage run root stage (scan_eq_some.mpr ⟨hfinished ▸ hlive, hscans ▸ hroot, hstage⟩)
      · obtain ⟨hne, hq⟩ := hother v q hq
        have hok := h.purge v q hq
        have hsame := (hunwatches v).trans (if_neg hne)
        exact ⟨hok.read, hok.unread, hok.standing, fun w hw => hok.roots w (hsame ▸ hw),
          fun hread => hsame ▸ hok.waited hread⟩
      · change ((s.importing.step (.clear u)).unwatches.lookup v).isSome = true at hv
        rw [hunwatches] at hv
        change ((s.purges.erase u).lookup v).isSome = true
        rw [Table.lookup_erase']
        split_ifs at hv ⊢
        · cases hv
        · exact h.blocked v hv
      · obtain ⟨v, q, hq, hmem⟩ | ⟨folder, howns, hrest⟩ := h.rows file path hfile
        · refine Or.inl ⟨v, q, (AList.lookup_erase_ne ?_).trans hq, hmem⟩
          rintro rfl
          obtain rfl := Option.some.inj (hp.symm.trans hq)
          rw [hdone.2.2.2] at hmem
          cases hmem
        · exact Or.inr ⟨folder, howns, fun v q hq => hrest v q (hother v q hq).2⟩
    · exact h
  · exact h

/-! ## The reconciler -/

lemma Sound.setTask (h : s.Sound) (task : ℕ) (t : ReconcileTask) : (s.setTask task t).Sound :=
  ⟨h.tracked, h.spelled, h.named, h.stage, h.purge, h.blocked, h.rows⟩

lemma Settled.kept {path : String} (h : s.Settled path) (file : ℤ) : s.Kept file path := by
  obtain ⟨folder, -, howns, hread⟩ := h
  refine Or.inr ⟨folder, howns, fun u p hp hmem => ?_⟩
  exact absurd hmem (hread ⟨u, p⟩ (Table.lookup_eq_some_iff.mp hp))

lemma Sound.applyWrite (h : s.Sound) (write : FileWrite)
    (hsettled : ∀ path ∈ s.landing write, s.Settled path) : (s.applyWrite write).Sound := by
  unfold landing at hsettled
  unfold Watching.applyWrite
  cases write with
  | put path =>
    dsimp only at hsettled ⊢
    unfold upsertFile
    split
    · exact h
    · rename_i hfile
      rw [hfile] at hsettled
      exact h.insertFile _ ((hsettled path rfl).kept _) _
  | relink file path =>
    dsimp only at hsettled ⊢
    unfold relinkBook
    split
    · exact h
    · exact h
    · rename_i hlookup hfile
      rw [hlookup, hfile] at hsettled
      exact h.insertFile file ((hsettled path rfl).kept file) s.fileSeq

/-! ## Every run -/

lemma Sound.step (h : s.Sound) (event : WatchEvent) (hok : s.Careful event) :
    (s.step event).Sound := by
  cases event with
  | start run root => exact h.startImport run hok
  | check run => exact h.checkCovered run
  | addLocation run => exact h.addRoot run
  | descendants run => exact h.listDescendants run
  | collapse run => exact h.collapse run
  | importFile run names => exact h.importFile run hok
  | finish run => exact h.finish run
  | unregister run => exact h.unregister run
  | unwatch u paths => exact h.startUnwatch u paths
  | block u => exact h.block u
  | wait u => exact h.wait u
  | listFiles u => exact h.listFiles u
  | owners u => exact h.owners u
  | removeLocation u => exact h.removeLocation u
  | deleteFile u => exact h.deleteFile u
  | clear u => exact h.clear u hok
  | apply task changes =>
    unfold Watching.step
    dsimp only
    split_ifs
    · exact h
    · exact h.setTask task _
  | reconcileAll task =>
    unfold Watching.step
    dsimp only
    split_ifs
    · exact h
    · exact h.setTask task _
  | underWatch task =>
    unfold Watching.step takeChange
    dsimp only
    split
    · split
      · exact h.setTask task _
      · exact h
    · exact h
  | plan task isDir isBook found =>
    unfold Watching.step Watching.plan
    dsimp only
    split
    · split
      · exact h.setTask task _
      · exact h.setTask task _
      · exact h
    · exact h
  | write task =>
    unfold Watching.step Watching.write
    dsimp only
    split
    · rename_i t ht
      split
      · rename_i write writes hwrites
        exact (h.applyWrite write (hok t ht write (by rw [hwrites]; rfl))).setTask task _
      · exact h
    · exact h
  | skip task =>
    unfold Watching.step Watching.skip
    dsimp only
    split
    · exact h.setTask task _
    · exact h

/-- The import of one folder. -/
def importEvents (run : ℕ) (root : String) (names : List (List Char)) : List WatchEvent :=
  [.start run root, .check run, .addLocation run, .descendants run, .collapse run,
    .importFile run names, .finish run, .unregister run]

/-- An unwatch of one folder up to the rows that it deletes. -/
def unwatchEvents (u : ℕ) (root : String) : List WatchEvent :=
  [.unwatch u [root], .block u, .wait u, .listFiles u, .owners u, .removeLocation u]

/-- The catch-up lists a file and imports it, then the folder is unwatched. -/
def earlyCatchUp : List WatchEvent :=
  importEvents 1 "/lib" [['a']] ++
    ([.reconcileAll 2, .plan 2 false false [([['b']], none)], .write 2] : List WatchEvent) ++
    unwatchEvents 1 "/lib" ++ [.deleteFile 1, .deleteFile 1, .clear 1]

/-- The catch-up lists a file, and writes its row when the unwatch is over. -/
def lateCatchUp : List WatchEvent :=
  importEvents 1 "/lib" [['a']] ++
    ([.reconcileAll 2, .plan 2 false false [([['b']], none)]] : List WatchEvent) ++
    unwatchEvents 1 "/lib" ++ [.deleteFile 1, .clear 1, .write 2]

end Watching

end TuxBooks
