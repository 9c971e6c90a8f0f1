import Mathlib.Data.List.Basic
import TuxBooks.Lib.Pairing
import TuxBooks.Library.Unwatch

set_option relaxedAutoImplicit false
set_option autoImplicit false

/-!
# Renames seen through the file watcher

The events of the platform watcher are gathered in an `EventBatch` and resolved at the end of a
debounce window. The two halves of a rename may come apart: a source waits for one more window, and
the oldest source is joined with the oldest destination. The cookie that links the halves is not
read.

## Main definitions

* `TuxBooks.EventBatch.absorb`, `TuxBooks.EventBatch.take` — gathering and resolving a window.
* `TuxBooks.FsOp`, `TuxBooks.EventBatch.run` — operations on the disk and what the windows report.
* `TuxBooks.EventBatch.Renames` — what the operations did to the file at a path.

## Main results

* `TuxBooks.EventBatch.preserves_identity` — the reported renames are real, and so are the moves of
  rows they lead to, when no half is missing in front of a later one.
* `TuxBooks.EventBatch.not_preserves_identity` — a file is moved out and another one moved in.
-/

namespace TuxBooks

/-! ## Events -/

inductive RenameMode where
  | any
  | toHalf
  | fromHalf
  | both
  | other
  deriving DecidableEq

/-- The kinds of `notify` that `classify_event` tells apart. -/
inductive EventKind where
  | any
  | accessCloseWrite
  | access
  | create
  | modifyName (mode : RenameMode)
  /-- Data, metadata, and unknown modifications. -/
  | modify
  | remove
  | other
  deriving DecidableEq

structure NotifyEvent where
  kind : EventKind
  paths : List String
  deriving DecidableEq

inductive RawKind where
  | create
  | modify
  | remove
  | renameFrom
  | renameTo
  deriving DecidableEq

/-- Map a raw event onto kinds for each path. -/
def classifyEvent (event : NotifyEvent) : List (String × RawKind) :=
  match event.kind with
  | .create => event.paths.map (·, .create)
  | .remove => event.paths.map (·, .remove)
  | .modifyName .fromHalf => event.paths.head?.toList.map (·, .renameFrom)
  | .modifyName .toHalf => event.paths.head?.toList.map (·, .renameTo)
  | .modifyName .both =>
    match event.paths with
    | src :: dst :: _ => [(src, .renameFrom), (dst, .renameTo)]
    | _ => []
  | .modifyName _ => event.paths.map (·, .modify)
  | .modify => event.paths.map (·, .modify)
  | .accessCloseWrite => event.paths.map (·, .modify)
  | .access | .other | .any => []

/-! ## Batches -/

/-- Equality of two `PathBuf`s. -/
def samePath (left right : String) : Bool := components left == components right

/-- `Vec::contains` on paths. -/
def hasPath (paths : List String) (path : String) : Bool := paths.any (samePath path)

def pushNew (paths : List String) (path : String) : List String :=
  if hasPath paths path then paths else paths ++ [path]

/-- `Vec::retain` of the paths other than one. -/
def dropPath (paths : List String) (path : String) : List String :=
  paths.filter fun other => !samePath other path

/-- The raw events of one debounce window. -/
structure EventBatch where
  creates : List String := []
  modifies : List String := []
  removes : List String := []
  renameFroms : List String := []
  renameTos : List String := []
  /-- Rename sources from the window before whose destination has not been seen yet. -/
  pendingFroms : List String := []
  /-- Sources that expired without a destination. -/
  expiredFroms : List String := []
  deriving DecidableEq

namespace EventBatch

def absorbPath (b : EventBatch) : String × RawKind → EventBatch
  | (path, .create) => { b with creates := b.creates ++ [path] }
  | (path, .modify) =>
    if !hasPath b.creates path && !hasPath b.modifies path then
      { b with modifies := b.modifies ++ [path] }
    else b
  | (path, .remove) =>
    { b with
      creates := dropPath b.creates path
      modifies := dropPath b.modifies path
      removes := b.removes ++ [path] }
  | (path, .renameFrom) => { b with renameFroms := b.renameFroms ++ [path] }
  | (path, .renameTo) => { b with renameTos := b.renameTos ++ [path] }

def absorb (b : EventBatch) (event : NotifyEvent) : EventBatch :=
  (classifyEvent event).foldl absorbPath b

/-- Consume the paths of a pair so that nothing else in the batch reports them again. -/
def consume (b : EventBatch) (src dst : String) : EventBatch :=
  { b with
    removes := dropPath b.removes src
    creates := dropPath (dropPath b.creates src) dst
    modifies := dropPath b.modifies dst }

/-- Join the oldest source with the oldest destination as long as there are both. The sources and
the destinations that are left come back. -/
def pairOff (b : EventBatch) :
    List String → List String → List PathChange × EventBatch × List String × List String
  | src :: froms, dst :: tos =>
    let rest := pairOff (b.consume src dst) froms tos
    (.renamed src dst :: rest.1, rest.2)
  | froms, tos => ([], b, froms, tos)

/-- The changes of the paths that are not part of a pair. -/
def settle (onDisk : String → Bool) (removes creates modifies : List String) : List PathChange :=
  let removed := removes.foldl pushNew []
  let created := creates.foldl pushNew []
  removed.map (fun path => if onDisk path then .modified path else .removed path) ++
    (created.filter fun path =>
      !(removed.any fun gone => !onDisk gone && samePath gone path)).map .created ++
    ((modifies.foldl pushNew []).filter fun path =>
      !hasPath created path && !hasPath removed path).map .modified

/-- Resolve the batch into changes. Sources that waited come first; a source that is left waits for
the next window, or is a removal when it has waited; a destination that is left is a new file. -/
def take (onDisk : String → Bool) (b : EventBatch) : List PathChange × EventBatch :=
  let waited := pairOff b b.pendingFroms b.renameTos
  let carried := waited.2.2.1
  let direct := pairOff waited.2.1 b.renameFroms waited.2.2.2
  let rest := direct.2.1
  (waited.1 ++ direct.1 ++
      settle onDisk (carried.foldl pushNew rest.removes)
        (direct.2.2.2.foldl pushNew rest.creates) rest.modifies,
    { pendingFroms := direct.2.2.1, expiredFroms := b.expiredFroms ++ carried })

/-- Hand the changes over. An expired source asks for a sweep of the watched folders. -/
def flush (onDisk : String → Bool) (b : EventBatch) : List PathChange × Bool × EventBatch :=
  let taken := b.take onDisk
  (taken.1, !taken.2.expiredFroms.isEmpty, { taken.2 with expiredFroms := [] })

end EventBatch

/-! ## Operations on the disk -/

/-- How a backend reports a rename inside the watch. -/
inductive Report where
  /-- The source and the destination on their own. -/
  | halves
  /-- One event with both. -/
  | both
  /-- First each on its own, then both in one event. -/
  | halvesThenBoth
  deriving DecidableEq

inductive FsOp where
  | rename (report : Report) (src dst : String)
  /-- A file or folder leaves the watch. -/
  | moveOut (src : String)
  /-- A file or folder comes from outside of it. -/
  | moveIn (dst : String)
  deriving DecidableEq

namespace FsOp

def fromEvent (src : String) : NotifyEvent := ⟨.modifyName .fromHalf, [src]⟩

def toEvent (dst : String) : NotifyEvent := ⟨.modifyName .toHalf, [dst]⟩

def bothEvent (src dst : String) : NotifyEvent := ⟨.modifyName .both, [src, dst]⟩

/-- The events of an operation. -/
def events : FsOp → List NotifyEvent
  | .rename .halves src dst => [fromEvent src, toEvent dst]
  | .rename .both src dst => [bothEvent src dst]
  | .rename .halvesThenBoth src dst => [fromEvent src, toEvent dst, bothEvent src dst]
  | .moveOut src => [fromEvent src]
  | .moveIn dst => [toEvent dst]

/-- A rename of the path or of a folder above it. -/
def Carries : FsOp → List (List Char) → Prop
  | .rename _ src _, path => components src <+: path
  | _, _ => False

/-- Where the file at a path is after the operation, unless it left or was replaced. -/
def track (path : List (List Char)) : FsOp → Option (List (List Char))
  | .rename _ src dst =>
    if components src <+: path then some (components dst ++ path.drop (components src).length)
    else if components dst <+: path then none
    else some path
  | .moveOut src => if components src <+: path then none else some path
  | .moveIn dst => if components dst <+: path then none else some path

end FsOp

namespace EventBatch

open Pairing

/-- One debounce window: its events, each with the number of the operation that it reports, and the
paths that are on the disk when it is resolved. -/
structure Window where
  events : List (ℕ × NotifyEvent)
  onDisk : String → Bool

/-- The events of some operations in their order. -/
def reported (ops : List FsOp) : List (ℕ × NotifyEvent) :=
  ops.zipIdx.flatMap fun op => op.1.events.map (op.2, ·)

/-- The changes that each window hands over. The numbers of the operations are not read. -/
def run : EventBatch → List Window → List (List PathChange)
  | _, [] => []
  | b, window :: windows =>
    let flushed := ((window.events.map Prod.snd).foldl absorb b).flush window.onDisk
    flushed.1 :: run flushed.2.2 windows

/-- The file at `src` was renamed, or a folder above it, and after some more operations it is at
`dst`. -/
def Renames (ops : List FsOp) (src dst : String) : Prop :=
  ∃ before op later after, ops = before ++ op :: (later ++ after) ∧ op.Carries (components src) ∧
    (op :: later).foldlM FsOp.track (components src) = some (components dst)

/-- Every reported rename happened, and so did every move of a row that it leads to. -/
def PreservesIdentity (ops : List FsOp) (windows : List Window) : Prop :=
  ∀ changes ∈ run {} windows, ∀ src dst, .renamed src dst ∈ changes →
    Renames ops src dst ∧
      ∀ (s : Watching) (isDir isBook : Bool) (file : ℤ) (path moved : String),
        s.files.lookup file = some path →
        .relink file moved ∈ s.changeWrites isDir isBook (.renamed src dst) →
        Renames ops path moved

/-- The paths of one kind in a raw event. -/
def pathsOf (kind : RawKind) (event : NotifyEvent) : List String :=
  ((classifyEvent event).filter fun raw => raw.2 = kind).map Prod.fst

/-- The rename halves of one kind in some events. -/
def halvesOf (kind : RawKind) (events : List (ℕ × NotifyEvent)) : List (ℕ × String) :=
  events.flatMap fun event => (pathsOf kind event.2).map (event.1, ·)

/-- The sources and the destinations of a window. -/
def Window.halves (window : Window) : List (ℕ × String) × List (ℕ × String) :=
  (halvesOf .renameFrom window.events, halvesOf .renameTo window.events)

/-- When a window is resolved, no source that waits without its destination comes before an
operation with a destination in the window, and no destination without its source before one with a
source that waits. -/
def Settles (windows : List Window) : Prop :=
  ∀ flush ∈ flushes [] (windows.map Window.halves),
    Settled (flush.1.map Prod.fst) (flush.2.map Prod.fst)

/-! ## Resolving a window -/

section Take

variable {b : EventBatch} {onDisk : String → Bool}

lemma pairOff_changes (froms tos : List String) :
    (b.pairOff froms tos).1 = (froms.zip tos).map fun pair => .renamed pair.1 pair.2 := by
  induction froms generalizing b tos with
  | nil => cases tos <;> rfl
  | cons src froms ih =>
    cases tos with
    | nil => rfl
    | cons dst tos => exact congrArg (PathChange.renamed src dst :: ·) (ih tos)

lemma pairOff_froms (froms tos : List String) :
    (b.pairOff froms tos).2.2.1 = froms.drop tos.length := by
  induction froms generalizing b tos with
  | nil => cases tos <;> rfl
  | cons src froms ih =>
    cases tos with
    | nil => rfl
    | cons dst tos => exact ih tos

lemma pairOff_tos (froms tos : List String) :
    (b.pairOff froms tos).2.2.2 = tos.drop froms.length := by
  induction froms generalizing b tos with
  | nil => cases tos <;> rfl
  | cons src froms ih =>
    cases tos with
    | nil => rfl
    | cons dst tos => exact ih tos

/-- What is not part of a pair is no rename. -/
lemma renamed_notMem_settle {src dst : String} (removes creates modifies : List String) :
    PathChange.renamed src dst ∉ settle onDisk removes creates modifies := by
  intro h
  obtain h | h := List.mem_append.mp h
  · obtain h | h := List.mem_append.mp h
    · obtain ⟨path, _, heq⟩ := List.mem_map.mp h
      by_cases hdisk : onDisk path
      · rw [if_pos hdisk] at heq
        exact PathChange.noConfusion heq
      · rw [if_neg hdisk] at heq
        exact PathChange.noConfusion heq
    · obtain ⟨path, _, heq⟩ := List.mem_map.mp h
      exact PathChange.noConfusion heq
  · obtain ⟨path, _, heq⟩ := List.mem_map.mp h
    exact PathChange.noConfusion heq

/-- The oldest sources are joined with the oldest destinations, those that waited first. -/
lemma renamed_mem_take {src dst : String} (h : .renamed src dst ∈ (b.take onDisk).1) :
    (src, dst) ∈ (b.pendingFroms ++ b.renameFroms).zip b.renameTos := by
  rw [zip_append_left]
  obtain h | h := List.mem_append.mp h
  · rw [pairOff_changes, pairOff_changes, pairOff_tos, ← List.map_append] at h
    obtain ⟨pair, hpair, heq⟩ := List.mem_map.mp h
    obtain ⟨rfl, rfl⟩ := PathChange.renamed.inj heq
    exact hpair
  · exact absurd h (renamed_notMem_settle _ _ _)

lemma flush_pendingFroms :
    (b.flush onDisk).2.2.pendingFroms = carry b.pendingFroms b.renameFroms b.renameTos := by
  change (pairOff _ b.renameFroms _).2.2.1 = _
  rw [pairOff_froms, pairOff_tos, List.length_drop]
  rfl

end Take

/-! ## Gathering a window -/

section Absorb

lemma absorbPath_froms (b : EventBatch) (raw : String × RawKind) :
    (b.absorbPath raw).renameFroms =
      b.renameFroms ++ (([raw].filter fun raw => raw.2 = .renameFrom).map Prod.fst) := by
  obtain ⟨path, kind⟩ := raw
  cases kind with
  | modify =>
    simp only [absorbPath]
    split <;> simp
  | _ => simp [absorbPath]

lemma absorbPath_tos (b : EventBatch) (raw : String × RawKind) :
    (b.absorbPath raw).renameTos =
      b.renameTos ++ (([raw].filter fun raw => raw.2 = .renameTo).map Prod.fst) := by
  obtain ⟨path, kind⟩ := raw
  cases kind with
  | modify =>
    simp only [absorbPath]
    split <;> simp
  | _ => simp [absorbPath]

lemma absorbPath_pending (b : EventBatch) (raw : String × RawKind) :
    (b.absorbPath raw).pendingFroms = b.pendingFroms := by
  obtain ⟨path, kind⟩ := raw
  cases kind with
  | modify =>
    simp only [absorbPath]
    split <;> rfl
  | _ => rfl

/-- The halves of an event go behind those that are there. -/
lemma absorb_halves (b : EventBatch) (event : NotifyEvent) :
    (b.absorb event).renameFroms = b.renameFroms ++ pathsOf .renameFrom event ∧
      (b.absorb event).renameTos = b.renameTos ++ pathsOf .renameTo event ∧
      (b.absorb event).pendingFroms = b.pendingFroms := by
  unfold absorb pathsOf
  generalize classifyEvent event = raws
  induction raws generalizing b with
  | nil => simp
  | cons raw raws ih =>
    obtain ⟨hfroms, htos, hpending⟩ := ih (b.absorbPath raw)
    refine ⟨?_, ?_, hpending.trans (absorbPath_pending b raw)⟩
    · rw [List.foldl_cons, hfroms, absorbPath_froms, List.append_assoc, ← List.map_append,
        ← List.filter_append]
      rfl
    · rw [List.foldl_cons, htos, absorbPath_tos, List.append_assoc, ← List.map_append,
        ← List.filter_append]
      rfl

lemma halvesOf_cons (kind : RawKind) (event : ℕ × NotifyEvent) (events : List (ℕ × NotifyEvent)) :
    (halvesOf kind (event :: events)).map Prod.snd =
      pathsOf kind event.2 ++ (halvesOf kind events).map Prod.snd := by
  unfold halvesOf
  rw [List.flatMap_cons, List.map_append, List.map_map]
  simp [Function.comp_def]

/-- What a window gathers. -/
lemma foldl_absorb_halves (b : EventBatch) (events : List (ℕ × NotifyEvent)) :
    let gathered := (events.map Prod.snd).foldl absorb b
    gathered.renameFroms = b.renameFroms ++ (halvesOf .renameFrom events).map Prod.snd ∧
      gathered.renameTos = b.renameTos ++ (halvesOf .renameTo events).map Prod.snd ∧
      gathered.pendingFroms = b.pendingFroms := by
  induction events generalizing b with
  | nil => simp [halvesOf]
  | cons event events ih =>
    obtain ⟨hfroms, htos, hpending⟩ := ih (b.absorb event.2)
    obtain ⟨hfroms', htos', hpending'⟩ := absorb_halves b event.2
    refine ⟨?_, ?_, hpending.trans hpending'⟩
    · rw [List.map_cons, List.foldl_cons, hfroms, hfroms', halvesOf_cons, List.append_assoc]
    · rw [List.map_cons, List.foldl_cons, htos, htos', halvesOf_cons, List.append_assoc]

end Absorb

/-! ## Whole runs -/

/-- Every reported rename joins a source and a destination that meet at the end of some window. -/
lemma renamed_mem_run {b : EventBatch} {carried : List (ℕ × String)} {windows : List Window}
    (hfroms : b.renameFroms = []) (htos : b.renameTos = [])
    (hpending : b.pendingFroms = carried.map Prod.snd) {changes : List PathChange}
    (hchanges : changes ∈ run b windows) {src dst : String} (h : .renamed src dst ∈ changes) :
    ∃ flush ∈ flushes carried (windows.map Window.halves), ∃ pair ∈ flush.1.zip flush.2,
      pair.1.2 = src ∧ pair.2.2 = dst := by
  induction windows generalizing b carried with
  | nil => exact absurd hchanges List.not_mem_nil
  | cons window windows ih =>
    obtain ⟨hgfroms, hgtos, hgpending⟩ := foldl_absorb_halves b window.events
    rw [hfroms, List.nil_append] at hgfroms
    rw [htos, List.nil_append] at hgtos
    rw [hpending] at hgpending
    obtain hhere | hlater := List.mem_cons.mp hchanges
    · rw [hhere] at h
      have hmem := renamed_mem_take h
      rw [hgfroms, hgtos, hgpending, ← List.map_append, List.zip_map] at hmem
      obtain ⟨pair, hpair, heq⟩ := List.mem_map.mp hmem
      exact ⟨_, List.mem_cons_self, pair, hpair, congrArg Prod.fst heq, congrArg Prod.snd heq⟩
    · have hcarry :
          (((window.events.map Prod.snd).foldl absorb b).flush window.onDisk).2.2.pendingFroms =
            (carry carried window.halves.1 window.halves.2).map Prod.snd := by
        rw [flush_pendingFroms, hgfroms, hgtos, hgpending]
        simp [carry, List.map_drop, Window.halves]
      obtain ⟨flush, hflush, hpair⟩ := ih rfl rfl hcarry hlater
      exact ⟨flush, List.mem_cons_of_mem _ hflush, hpair⟩

/-! ## Operations and their halves -/

section Operations

variable {ops : List FsOp}

lemma halvesOf_reported (kind : RawKind) (ops : List FsOp) :
    halvesOf kind (reported ops) =
      ops.zipIdx.flatMap fun op => (op.1.events.flatMap (pathsOf kind)).map (op.2, ·) := by
  unfold halvesOf reported
  rw [List.flatMap_assoc]
  simp only [List.flatMap_map, List.map_flatMap]

/-- Halves are reported in the order of their operations. -/
lemma pairwise_halves (kind : RawKind) (ops : List FsOp) :
    ((halvesOf kind (reported ops)).map Prod.fst).Pairwise (· ≤ ·) := by
  rw [halvesOf_reported, List.pairwise_map, List.pairwise_flatMap]
  constructor
  · intro op _
    rw [List.pairwise_map]
    exact List.pairwise_of_forall fun _ _ => Nat.le_refl _
  · have hlt : (ops.zipIdx.map Prod.snd).Pairwise (· < ·) := by
      rw [List.zipIdx_map_snd]
      exact List.pairwise_lt_range'
    refine (List.pairwise_map.mp hlt).imp fun {op op'} hop half hhalf half' hhalf' => ?_
    obtain ⟨_, _, rfl⟩ := List.mem_map.mp hhalf
    obtain ⟨_, _, rfl⟩ := List.mem_map.mp hhalf'
    exact Nat.le_of_lt hop

lemma mem_halvesOf {kind : RawKind} {number : ℕ} {path : String}
    (h : (number, path) ∈ halvesOf kind (reported ops)) :
    ∃ op, ops[number]? = some op ∧ path ∈ op.events.flatMap (pathsOf kind) := by
  rw [halvesOf_reported] at h
  obtain ⟨op, hop, hpath⟩ := List.mem_flatMap.mp h
  obtain ⟨name, hname, heq⟩ := List.mem_map.mp hpath
  obtain ⟨rfl, rfl⟩ := Prod.mk.inj heq
  exact ⟨op.1, List.mem_zipIdx_iff_getElem?.mp hop, hname⟩

@[simp] lemma pathsOf_fromEvent (path : String) :
    pathsOf .renameFrom (FsOp.fromEvent path) = [path] ∧
      pathsOf .renameTo (FsOp.fromEvent path) = [] := ⟨rfl, rfl⟩

@[simp] lemma pathsOf_toEvent (path : String) :
    pathsOf .renameFrom (FsOp.toEvent path) = [] ∧
      pathsOf .renameTo (FsOp.toEvent path) = [path] := ⟨rfl, rfl⟩

@[simp] lemma pathsOf_bothEvent (src dst : String) :
    pathsOf .renameFrom (FsOp.bothEvent src dst) = [src] ∧
      pathsOf .renameTo (FsOp.bothEvent src dst) = [dst] := ⟨rfl, rfl⟩

/-- Only a rename has both halves. -/
lemma rename_of_halves {op : FsOp} {src dst : String}
    (hsrc : src ∈ op.events.flatMap (pathsOf .renameFrom))
    (hdst : dst ∈ op.events.flatMap (pathsOf .renameTo)) :
    ∃ report, op = .rename report src dst := by
  cases op with
  | rename report src' dst' =>
    obtain ⟨rfl, rfl⟩ : src = src' ∧ dst = dst' := by
      cases report with
      | halves | both | halvesThenBoth =>
        simp [FsOp.events] at hsrc hdst
        exact ⟨hsrc, hdst⟩
    exact ⟨report, rfl⟩
  | moveOut src' => simp [FsOp.events] at hdst
  | moveIn dst' => simp [FsOp.events] at hsrc

/-- An actual rename takes the file along. -/
lemma renames_of_mem {report : Report} {src dst path moved : String}
    (hmem : .rename report src dst ∈ ops) {rest : List (List Char)}
    (hpath : components path = components src ++ rest)
    (hmoved : components moved = components dst ++ rest) : Renames ops path moved := by
  obtain ⟨before, after, rfl⟩ := List.append_of_mem hmem
  have hcarries : components src <+: components path := ⟨rest, hpath.symm⟩
  refine ⟨before, _, [], after, rfl, hcarries, ?_⟩
  rw [List.foldlM_cons, FsOp.track, if_pos hcarries, hpath, List.drop_left, ← hmoved]
  rfl

lemma components_join (path name : String) :
    components (path ++ "/" ++ name) = components path ++ components name := by
  unfold components
  rw [String.toList_append, String.toList_append, List.append_assoc, ← List.filter_append,
    ← List.splitOn_append_cons_self]
  rfl

/-- A row under a folder that moves keeps its place in it. -/
lemma relinkDirectory_place {s : Watching} {src dst path moved : String} {file : ℤ}
    (hpath : s.files.lookup file = some path)
    (hwrite : .relink file moved ∈ s.relinkDirectory src dst) :
    ∃ rest, components path = components src ++ rest ∧
      components moved = components dst ++ rest := by
  obtain ⟨⟨file', path'⟩, hentry, heq⟩ := List.mem_map.mp hwrite
  obtain ⟨rfl, rfl⟩ := FileWrite.relink.inj heq
  obtain ⟨hentry, hin⟩ := List.mem_filter.mp hentry
  obtain rfl : path = path' := Option.some.inj
    (hpath.symm.trans (Table.lookup_eq_some_iff.mpr hentry))
  rw [inPrefix_eq_isUnder, isUnder_iff] at hin
  obtain rfl | ⟨rest, hrest⟩ := hin
  · refine ⟨[], (List.append_nil _).symm, ?_⟩
    rw [components_join, ← String.length_toList, List.drop_length]
    rfl
  · have hname : path = src ++ "/" ++ String.ofList rest := by
      apply String.toList_inj.mp
      simp [← hrest]
    refine ⟨components (String.ofList rest), hname ▸ components_join .., ?_⟩
    rw [components_join, ← hrest, ← String.length_toList, List.append_assoc, List.drop_left]
    rfl

/-- The rows that a rename moves keep their place. -/
lemma relinked_place {s : Watching} {isDir isBook : Bool} {src dst path moved : String} {file : ℤ}
    (hpath : s.files.lookup file = some path)
    (hwrite : .relink file moved ∈ s.changeWrites isDir isBook (.renamed src dst)) :
    ∃ rest, components path = components src ++ rest ∧
      components moved = components dst ++ rest := by
  simp only [Watching.changeWrites] at hwrite
  by_cases hdir : isDir
  · rw [if_pos hdir] at hwrite
    exact relinkDirectory_place hpath hwrite
  · rw [if_neg hdir] at hwrite
    cases hfile : s.fileOf src with
    | none => cases isBook <;> simp [hfile] at hwrite
    | some owner =>
      obtain ⟨rfl, rfl⟩ : file = owner ∧ moved = dst := by
        cases isBook with
        | false => simp [hfile] at hwrite
        | true => simpa [hfile] using hwrite
      obtain ⟨⟨owner, name⟩, hfind, rfl⟩ := Option.map_eq_some_iff.mp hfile
      have hentry := Table.lookup_eq_some_iff.mpr (List.mem_of_find?_eq_some hfind)
      obtain rfl : path = name := Option.some.inj (hpath.symm.trans hentry)
      have hsrc := List.find?_some hfind
      obtain rfl : path = src := beq_iff_eq.mp hsrc
      exact ⟨[], (List.append_nil _).symm, (List.append_nil _).symm⟩

end Operations

/-! ## Identity -/

/-- **The reported renames are real when no half is missing in front of a later one**, and the rows
they move follow their files. -/
theorem preserves_identity {ops : List FsOp} {windows : List Window}
    (hcut : windows.flatMap Window.events = reported ops) (hsettles : Settles windows) :
    PreservesIdentity ops windows := by
  intro changes hchanges src dst h
  obtain ⟨flush, hflush, ⟨⟨number, src⟩, ⟨number', dst⟩⟩, hpair, rfl, rfl⟩ :=
    @renamed_mem_run {} [] _ rfl rfl rfl _ hchanges _ _ h
  obtain ⟨hsources, htargets⟩ := sublist_of_mem_flushes hflush
  have hall (kind : RawKind) :
      windows.flatMap (fun window => halvesOf kind window.events) =
        halvesOf kind (reported ops) := by
    rw [← hcut]
    exact (List.flatMap_assoc ..).symm
  rw [List.nil_append, List.flatMap_map] at hsources
  rw [List.flatMap_map] at htargets
  replace hsources : flush.1.Sublist (halvesOf .renameFrom (reported ops)) := hall _ ▸ hsources
  replace htargets : flush.2.Sublist (halvesOf .renameTo (reported ops)) := hall _ ▸ htargets
  obtain rfl : number = number' := by
    have hzip := (zip_eq_iff_settled ((pairwise_halves _ ops).sublist (hsources.map _))
      ((pairwise_halves _ ops).sublist (htargets.map _))).mpr (hsettles flush hflush)
    rw [List.zip_map] at hzip
    exact hzip _ (List.mem_map_of_mem hpair)
  obtain ⟨hsrc, hdst⟩ := List.of_mem_zip hpair
  obtain ⟨op, hop, hsrc⟩ := mem_halvesOf (hsources.mem hsrc)
  obtain ⟨op', hop', hdst⟩ := mem_halvesOf (htargets.mem hdst)
  obtain rfl : op = op' := Option.some.inj (hop.symm.trans hop')
  obtain ⟨report, rfl⟩ := rename_of_halves hsrc hdst
  have hmem := List.mem_of_getElem? hop
  refine ⟨renames_of_mem hmem (List.append_nil _).symm (List.append_nil _).symm, ?_⟩
  intro s isDir isBook file path moved hpath hwrite
  obtain ⟨rest, hplace, hmoved⟩ := relinked_place hpath hwrite
  exact renames_of_mem hmem hplace hmoved

/-- A rename that is cut between its halves, and a file that leaves. -/
theorem preserves_identity_cut :
    Settles [⟨[(0, FsOp.fromEvent "/lib/a.epub")], fun _ => false⟩,
        ⟨[(0, FsOp.toEvent "/lib/b.epub"), (1, FsOp.fromEvent "/lib/c.epub")], fun _ => false⟩] ∧
      PreservesIdentity [.rename .halves "/lib/a.epub" "/lib/b.epub", .moveOut "/lib/c.epub"]
        [⟨[(0, FsOp.fromEvent "/lib/a.epub")], fun _ => false⟩,
          ⟨[(0, FsOp.toEvent "/lib/b.epub"), (1, FsOp.fromEvent "/lib/c.epub")],
            fun _ => false⟩] := by
  have h : Settles [⟨[(0, FsOp.fromEvent "/lib/a.epub")], fun _ => false⟩,
      ⟨[(0, FsOp.toEvent "/lib/b.epub"), (1, FsOp.fromEvent "/lib/c.epub")], fun _ => false⟩] := by
    unfold Settles
    decide
  exact ⟨h, preserves_identity rfl h⟩

/-- **A file is moved out, and another one is moved in.** The row of the first one is moved to the
second one. -/
theorem not_preserves_identity :
    ¬∀ (ops : List FsOp) (windows : List Window), windows.flatMap Window.events = reported ops →
      PreservesIdentity ops windows := by
  intro h
  have hops := h [.moveOut "/lib/a.epub", .moveIn "/lib/c.epub"]
    [⟨[(0, FsOp.fromEvent "/lib/a.epub"), (1, FsOp.toEvent "/lib/c.epub")], fun _ => false⟩] rfl
    [.renamed "/lib/a.epub" "/lib/c.epub"] (by decide) "/lib/a.epub" "/lib/c.epub" (by decide)
  obtain ⟨before, op, later, after, hsplit, hcarries, _⟩ := hops.1
  have hop : op ∈ [FsOp.moveOut "/lib/a.epub", FsOp.moveIn "/lib/c.epub"] := by
    rw [hsplit]
    simp
  obtain rfl | hop := List.mem_cons.mp hop
  · exact hcarries
  · obtain rfl := List.mem_singleton.mp hop
    exact hcarries

end EventBatch

end TuxBooks
