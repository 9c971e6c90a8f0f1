import Mathlib.Data.Finset.Basic
import TuxBooks.Lib.Guarded
import TuxBooks.Lib.Table
import TuxBooks.Library.Paths

set_option relaxedAutoImplicit false
set_option autoImplicit false

/-!
# Imports and unwatches

The registry of `sidecar/src/lib.rs` in which folder imports and unwatches find each other, and the
machine of any number of both that use it. An import leaves in two steps: it signals that its scan
has stopped, then it goes from the registry. An unwatch blocks its roots, waits for the imports it
was handed, and clears at its end what it blocked itself.

## Main definitions

* `TuxBooks.ImportRegistry` — the registry and its operations.
* `TuxBooks.Importing`, `TuxBooks.Importing.step` — the machine.
* `TuxBooks.Importing.Exclusive` — imports and unwatches keep apart.
* `TuxBooks.Importing.Clean` — nobody clears a root that another unwatch still needs.

## Main results

* `TuxBooks.Importing.imports_exclude` — they keep apart in every run whose steps are clean.
-/

namespace TuxBooks

/-! ## The registry -/

/-- The runs in flight, keyed by root, and the roots that an unwatch is purging. A run is known by
a number, as the handle of an import is by its address. -/
structure ImportRegistry where
  running : Table String ℕ := ∅
  blocking : Finset String := ∅

namespace ImportRegistry

/-- The folder overlaps a running scan, or an unwatch that is still purging. -/
def Busy (r : ImportRegistry) (root : String) : Prop :=
  (∃ blocked ∈ r.blocking, overlaps blocked root = true) ∨
    ∃ e ∈ r.running.entries, overlaps e.1 root = true

instance (r : ImportRegistry) (root : String) : Decidable (r.Busy root) :=
  inferInstanceAs (Decidable (_ ∨ _))

/-- Register a scan, or refuse. -/
def start (r : ImportRegistry) (root : String) (run : ℕ) : Except String ImportRegistry :=
  if r.Busy root then .error (root ++ " is already importing or being unwatched")
  else .ok { r with running := r.running.insert root run }

/-- Unregister a finished scan. -/
def finish (r : ImportRegistry) (root : String) : ImportRegistry :=
  { r with running := r.running.erase root }

/-- Insert the roots one by one; the second component is the list of those that were new. -/
def blockRoots : Finset String → List String → Finset String × List String
  | blocking, [] => (blocking, [])
  | blocking, root :: roots =>
    if root ∈ blocking then blockRoots blocking roots
    else
      let rest := blockRoots (insert root blocking) roots
      (rest.1, root :: rest.2)

/-- The scans that overlap the roots. -/
def overlapping (r : ImportRegistry) (roots : List String) : List ℕ :=
  (r.running.entries.filter fun e => roots.any fun root => overlaps e.1 root).map (·.2)

/-- Block the roots of an unwatch: the registry, the scans to wait for, and the roots that were not
blocked before. -/
def block (r : ImportRegistry) (roots : List String) : ImportRegistry × List ℕ × List String :=
  let blocked := blockRoots r.blocking roots
  ({ r with blocking := blocked.1 }, r.overlapping roots, blocked.2)

def clearBlocking (r : ImportRegistry) (roots : List String) : ImportRegistry :=
  { r with blocking := r.blocking.filter (· ∉ roots) }

variable {r : ImportRegistry} {root : String} {roots : List String}

lemma mem_blockRoots {blocking : Finset String} :
    root ∈ (blockRoots blocking roots).1 ↔ root ∈ blocking ∨ root ∈ roots := by
  induction roots generalizing blocking with
  | nil => simp [blockRoots]
  | cons first roots ih =>
    unfold blockRoots
    split_ifs with h
    · rw [ih, List.mem_cons]
      refine ⟨fun hroot => hroot.imp_right Or.inr, ?_⟩
      rintro (hroot | rfl | hroot)
      · exact Or.inl hroot
      · exact Or.inl h
      · exact Or.inr hroot
    · dsimp only
      rw [ih, Finset.mem_insert, List.mem_cons]
      tauto

lemma mem_overlapping {run : ℕ} {busy : String} (hrun : r.running.lookup busy = some run)
    (hroot : root ∈ roots) (h : overlaps busy root = true) : run ∈ r.overlapping roots := by
  refine List.mem_map.mpr ⟨⟨busy, run⟩, List.mem_filter.mpr ⟨AList.mem_lookup_iff.mp hrun, ?_⟩, rfl⟩
  exact List.any_eq_true.mpr ⟨root, hroot, h⟩

lemma not_busy (h : ¬r.Busy root) {busy : String} {run : ℕ}
    (hrun : r.running.lookup busy = some run) : overlaps busy root = false := by
  refine Bool.eq_false_of_not_eq_true fun hover => h (Or.inr ⟨⟨busy, run⟩, ?_, hover⟩)
  exact AList.mem_lookup_iff.mp hrun

end ImportRegistry

/-! ## The machine -/

/-- An unwatch between its `block` and its `clear_blocking`. -/
structure Unwatching where
  roots : List String
  /-- The roots that it blocked itself. -/
  blocked : List String
  /-- The imports to wait for. -/
  runs : List ℕ
  /-- Whether it has waited for them. -/
  waited : Bool := false
  deriving DecidableEq

structure Importing where
  registry : ImportRegistry := {}
  /-- The imports that hold their guard, with their roots. -/
  scans : Table ℕ String := ∅
  /-- The imports that have signalled the end of their scan. -/
  finished : Finset ℕ := ∅
  unwatches : Table ℕ Unwatching := ∅

inductive ImportEvent where
  /-- A new import registers its root. -/
  | start (run : ℕ) (root : String)
  /-- The guard of an import signals that the scan has stopped. -/
  | finish (run : ℕ)
  /-- The guard takes the import out of the registry. -/
  | unregister (run : ℕ)
  /-- A new unwatch blocks its roots. -/
  | block (unwatch : ℕ) (roots : List String)
  /-- An unwatch has waited for the imports it was handed. -/
  | wait (unwatch : ℕ)
  /-- An unwatch ends, on whichever path. -/
  | clear (unwatch : ℕ)

namespace Importing

/-- One operation; one that is not possible changes nothing. -/
def step (s : Importing) : ImportEvent → Importing
  | .start run root =>
    if (s.scans.lookup run).isSome ∨ run ∈ s.finished then s
    else match s.registry.start root run with
      | .ok registry => { s with registry := registry, scans := s.scans.insert run root }
      | .error _ => s
  | .finish run =>
    if (s.scans.lookup run).isSome then { s with finished := insert run s.finished } else s
  | .unregister run =>
    match s.scans.lookup run with
    | some root =>
      if run ∈ s.finished then
        { s with registry := s.registry.finish root, scans := s.scans.erase run }
      else s
    | none => s
  | .block unwatch roots =>
    if (s.unwatches.lookup unwatch).isSome then s
    else
      let (registry, runs, blocked) := s.registry.block roots
      { s with
        registry := registry
        unwatches :=
          s.unwatches.insert unwatch { roots := roots, blocked := blocked, runs := runs } }
  | .wait unwatch =>
    match s.unwatches.lookup unwatch with
    | some w =>
      if ∀ run ∈ w.runs, run ∈ s.finished then
        { s with unwatches := s.unwatches.insert unwatch { w with waited := true } }
      else s
    | none => s
  | .clear unwatch =>
    match s.unwatches.lookup unwatch with
    | some w =>
      { s with
        registry := s.registry.clearBlocking w.blocked
        unwatches := s.unwatches.erase unwatch }
    | none => s

section Frame

variable (s : Importing)

/-- A scan that registers is a new one. -/
lemma step_start (run : ℕ) (root : String) :
    (s.step (.start run root)).finished = s.finished ∧
      (s.step (.start run root)).unwatches = s.unwatches ∧
      ((s.step (.start run root)).scans = s.scans ∨
        (s.step (.start run root)).scans = s.scans.insert run root) := by
  unfold step
  dsimp only
  split_ifs
  · exact ⟨rfl, rfl, Or.inl rfl⟩
  · split
    · exact ⟨rfl, rfl, Or.inr rfl⟩
    · exact ⟨rfl, rfl, Or.inl rfl⟩

lemma step_finish (run : ℕ) :
    (s.step (.finish run)).scans = s.scans ∧ (s.step (.finish run)).unwatches = s.unwatches ∧
      s.finished ⊆ (s.step (.finish run)).finished := by
  unfold step
  dsimp only
  split_ifs
  · exact ⟨rfl, rfl, Finset.subset_insert run s.finished⟩
  · exact ⟨rfl, rfl, Finset.Subset.refl _⟩

lemma step_unregister (run : ℕ) :
    (s.step (.unregister run)).finished = s.finished ∧
      (s.step (.unregister run)).unwatches = s.unwatches ∧
      ((s.step (.unregister run)).scans = s.scans ∨
        (s.step (.unregister run)).scans = s.scans.erase run) := by
  unfold step
  dsimp only
  cases s.scans.lookup run with
  | none => exact ⟨rfl, rfl, Or.inl rfl⟩
  | some root =>
    dsimp only
    split_ifs
    · exact ⟨rfl, rfl, Or.inr rfl⟩
    · exact ⟨rfl, rfl, Or.inl rfl⟩

lemma step_block (unwatch : ℕ) (roots : List String) :
    (s.step (.block unwatch roots)).scans = s.scans ∧
      (s.step (.block unwatch roots)).finished = s.finished ∧
      ((s.step (.block unwatch roots)).unwatches = s.unwatches ∨
        ∃ w : Unwatching, w.roots = roots ∧ s.unwatches.lookup unwatch = none ∧
          (s.step (.block unwatch roots)).unwatches = s.unwatches.insert unwatch w) := by
  unfold step
  dsimp only
  split_ifs with hold
  · exact ⟨rfl, rfl, Or.inl rfl⟩
  · exact ⟨rfl, rfl, Or.inr ⟨_, rfl, Option.not_isSome_iff_eq_none.mp hold, rfl⟩⟩

lemma step_wait (unwatch : ℕ) :
    (s.step (.wait unwatch)).scans = s.scans ∧ (s.step (.wait unwatch)).finished = s.finished ∧
      ((s.step (.wait unwatch)).unwatches = s.unwatches ∨
        ∃ w, s.unwatches.lookup unwatch = some w ∧
          (s.step (.wait unwatch)).unwatches =
            s.unwatches.insert unwatch { w with waited := true }) := by
  unfold step
  dsimp only
  cases s.unwatches.lookup unwatch with
  | none => exact ⟨rfl, rfl, Or.inl rfl⟩
  | some w =>
    dsimp only
    split_ifs
    · exact ⟨rfl, rfl, Or.inr ⟨w, rfl, rfl⟩⟩
    · exact ⟨rfl, rfl, Or.inl rfl⟩

lemma step_clear (unwatch : ℕ) :
    (s.step (.clear unwatch)).scans = s.scans ∧ (s.step (.clear unwatch)).finished = s.finished ∧
      ∀ u, (s.step (.clear unwatch)).unwatches.lookup u =
        if u = unwatch then none else s.unwatches.lookup u := by
  unfold step
  dsimp only
  cases hw : s.unwatches.lookup unwatch with
  | none =>
    refine ⟨rfl, rfl, fun u => ?_⟩
    split_ifs with hu
    · rw [hu, hw]
    · rfl
  | some w => exact ⟨rfl, rfl, Table.lookup_erase' _ _⟩

end Frame

/-- An unwatch whose imports have stopped meets no running import on an overlapping root, and no
two imports overlap. -/
structure Exclusive (s : Importing) : Prop where
  unwatch : ∀ u w, s.unwatches.lookup u = some w → (∀ run ∈ w.runs, run ∈ s.finished) →
    ∀ run busy, s.scans.lookup run = some busy → run ∉ s.finished →
      ∀ root ∈ w.roots, overlaps busy root = false
  scans : ∀ run busy run' busy', s.scans.lookup run = some busy →
    s.scans.lookup run' = some busy' → run ≠ run' → overlaps busy busy' = false
  waited : ∀ u w, s.unwatches.lookup u = some w → w.waited = true →
    ∀ run ∈ w.runs, run ∈ s.finished

/-- An unwatch that ends blocked no root that another unwatch has too. -/
def Clean (s : Importing) : ImportEvent → Prop
  | .clear unwatch => ∀ w ∈ s.unwatches.lookup unwatch, ∀ e ∈ s.unwatches.entries, e.1 ≠ unwatch →
      ∀ root ∈ w.blocked, root ∉ e.2.roots
  | _ => True

instance (s : Importing) (event : ImportEvent) : Decidable (s.Clean event) := by
  cases event <;> unfold Clean <;> infer_instance

/-! ## The invariant -/

/-- What the registry knows of the imports and the unwatches. -/
structure Tracked (s : Importing) : Prop where
  running : ∀ run busy, s.scans.lookup run = some busy → s.registry.running.lookup busy = some run
  apart : ∀ busy busy' run run', s.registry.running.lookup busy = some run →
    s.registry.running.lookup busy' = some run' → busy ≠ busy' → overlaps busy busy' = false
  blocked : ∀ u w, s.unwatches.lookup u = some w → ∀ root ∈ w.roots, root ∈ s.registry.blocking
  handed : ∀ u w, s.unwatches.lookup u = some w → ∀ run busy, s.scans.lookup run = some busy →
    ∀ root ∈ w.roots, overlaps busy root = true → run ∈ w.runs
  waited : ∀ u w, s.unwatches.lookup u = some w → w.waited = true →
    ∀ run ∈ w.runs, run ∈ s.finished

lemma tracked_empty : Tracked {} := by
  constructor <;> intros <;> simp_all

lemma Tracked.exclusive {s : Importing} (h : s.Tracked) : s.Exclusive := by
  refine ⟨fun u w hw hfinished run busy hrun hlive root hroot => ?_,
    fun run busy run' busy' hrun hrun' hne => ?_, h.waited⟩
  · refine Bool.eq_false_of_not_eq_true fun hover => hlive (hfinished run ?_)
    exact h.handed u w hw run busy hrun root hroot hover
  · refine h.apart busy busy' run run' (h.running run busy hrun) (h.running run' busy' hrun') ?_
    rintro rfl
    exact hne (Option.some.inj ((h.running run busy hrun).symm.trans (h.running run' busy hrun')))

variable {s : Importing}

/-- A scan that registers finds no folder in its way. -/
lemma Tracked.start (h : s.Tracked) (run : ℕ) (root : String) :
    (s.step (.start run root)).Tracked := by
  unfold step
  dsimp only
  split_ifs with hused
  · exact h
  · rw [not_or, Option.not_isSome_iff_eq_none] at hused
    unfold ImportRegistry.start
    split_ifs with hbusy
    · exact h
    · have hold : ∀ run' busy, run' ≠ run → (s.scans.insert run root).lookup run' = some busy →
          s.scans.lookup run' = some busy := by
        intro run' busy hne hlookup
        rwa [AList.lookup_insert_ne hne] at hlookup
      have hnew : ∀ busy, (s.scans.insert run root).lookup run = some busy → busy = root := by
        intro busy hlookup
        rw [AList.lookup_insert] at hlookup
        exact (Option.some.inj hlookup).symm
      -- the folder of a registered scan is another one
      have hother : ∀ busy run', s.registry.running.lookup busy = some run' → busy ≠ root := by
        rintro busy run' hlookup rfl
        have := ImportRegistry.not_busy hbusy hlookup
        simp at this
      refine ⟨fun run' busy hlookup => ?_, fun busy busy' run₁ run₂ h₁ h₂ hne => ?_, h.blocked,
        fun u w hw run' busy hlookup root' hroot hover => ?_, h.waited⟩
      · change (s.registry.running.insert root run).lookup busy = some run'
        by_cases hrun : run' = run
        · subst hrun
          rw [hnew busy hlookup, AList.lookup_insert]
        · have hrunning := h.running run' busy (hold run' busy hrun hlookup)
          rwa [AList.lookup_insert_ne (hother busy run' hrunning)]
      · change (s.registry.running.insert root run).lookup busy = some run₁ at h₁
        change (s.registry.running.insert root run).lookup busy' = some run₂ at h₂
        by_cases hbusy₁ : busy = root
        · subst hbusy₁
          rw [AList.lookup_insert_ne (Ne.symm hne)] at h₂
          rw [overlaps_comm]
          exact ImportRegistry.not_busy hbusy h₂
        · rw [AList.lookup_insert_ne hbusy₁] at h₁
          by_cases hbusy₂ : busy' = root
          · subst hbusy₂
            exact ImportRegistry.not_busy hbusy h₁
          · rw [AList.lookup_insert_ne hbusy₂] at h₂
            exact h.apart busy busy' run₁ run₂ h₁ h₂ hne
      · by_cases hrun : run' = run
        · subst hrun
          obtain rfl := hnew busy hlookup
          refine absurd (Or.inl ⟨root', h.blocked u w hw root' hroot, ?_⟩) hbusy
          rwa [overlaps_comm]
        · exact h.handed u w hw run' busy (hold run' busy hrun hlookup) root' hroot hover

lemma Tracked.finish (h : s.Tracked) (run : ℕ) : (s.step (.finish run)).Tracked := by
  unfold step
  dsimp only
  split_ifs
  · exact { h with
      waited := fun u w hw hwaited run' hrun =>
        Finset.mem_insert_of_mem (h.waited u w hw hwaited run' hrun) }
  · exact h

lemma Tracked.unregister (h : s.Tracked) (run : ℕ) : (s.step (.unregister run)).Tracked := by
  unfold step
  dsimp only
  cases hroot : s.scans.lookup run with
  | none => exact h
  | some root =>
    dsimp only
    split_ifs
    · have hold : ∀ run' busy, (s.scans.erase run).lookup run' = some busy →
          s.scans.lookup run' = some busy ∧ run' ≠ run := by
        intro run' busy hlookup
        rw [Table.lookup_erase'] at hlookup
        split_ifs at hlookup with hne
        exact ⟨hlookup, hne⟩
      have hrunning : ∀ busy run', (s.registry.running.erase root).lookup busy = some run' →
          s.registry.running.lookup busy = some run' := by
        intro busy run' hlookup
        rw [Table.lookup_erase'] at hlookup
        split_ifs at hlookup
        exact hlookup
      refine ⟨fun run' busy hlookup => ?_, fun busy busy' run₁ run₂ h₁ h₂ hne => ?_, h.blocked,
        fun u w hw run' busy hlookup root' hroot' hover => ?_, h.waited⟩
      · change (s.registry.running.erase root).lookup busy = some run'
        obtain ⟨hlookup, hne⟩ := hold run' busy hlookup
        have hbusy := h.running run' busy hlookup
        rw [AList.lookup_erase_ne]
        · exact hbusy
        · rintro rfl
          exact hne (Option.some.inj (hbusy.symm.trans (h.running run busy hroot)))
      · exact h.apart busy busy' run₁ run₂ (hrunning busy run₁ h₁) (hrunning busy' run₂ h₂) hne
      · exact h.handed u w hw run' busy (hold run' busy hlookup).1 root' hroot' hover
    · exact h

lemma Tracked.block (h : s.Tracked) (unwatch : ℕ) (roots : List String) :
    (s.step (.block unwatch roots)).Tracked := by
  unfold step
  dsimp only
  split_ifs
  · exact h
  · have hold : ∀ u w w', (s.unwatches.insert unwatch w').lookup u = some w →
        u = unwatch ∧ w = w' ∨ s.unwatches.lookup u = some w := by
      intro u w w' hlookup
      rw [Table.lookup_insert'] at hlookup
      split_ifs at hlookup with hu
      · exact Or.inl ⟨hu, (Option.some.inj hlookup).symm⟩
      · exact Or.inr hlookup
    refine ⟨h.running, h.apart, fun u w hw root hroot => ?_,
      fun u w hw run busy hrun root hroot hover => ?_, fun u w hw hwaited => ?_⟩
    · refine ImportRegistry.mem_blockRoots.mpr ?_
      obtain ⟨-, rfl⟩ | hw := hold u w _ hw
      · exact Or.inr hroot
      · exact Or.inl (h.blocked u w hw root hroot)
    · obtain ⟨-, rfl⟩ | hw := hold u w _ hw
      · exact ImportRegistry.mem_overlapping (h.running run busy hrun) hroot hover
      · exact h.handed u w hw run busy hrun root hroot hover
    · obtain ⟨-, rfl⟩ | hw := hold u w _ hw
      · cases hwaited
      · exact h.waited u w hw hwaited

lemma Tracked.wait (h : s.Tracked) (unwatch : ℕ) : (s.step (.wait unwatch)).Tracked := by
  unfold step
  dsimp only
  cases hw : s.unwatches.lookup unwatch with
  | none => exact h
  | some w =>
    dsimp only
    split_ifs with hfinished
    · have hold : ∀ u w',
        (s.unwatches.insert unwatch { w with waited := true }).lookup u = some w' →
          u = unwatch ∧ w' = { w with waited := true } ∨ s.unwatches.lookup u = some w' := by
        intro u w' hlookup
        rw [Table.lookup_insert'] at hlookup
        split_ifs at hlookup with hu
        · exact Or.inl ⟨hu, (Option.some.inj hlookup).symm⟩
        · exact Or.inr hlookup
      refine ⟨h.running, h.apart, fun u w' hw' => ?_, fun u w' hw' => ?_,
        fun u w' hw' hwaited => ?_⟩
      · obtain ⟨-, rfl⟩ | hw' := hold u w' hw'
        · exact h.blocked unwatch w hw
        · exact h.blocked u w' hw'
      · obtain ⟨-, rfl⟩ | hw' := hold u w' hw'
        · exact h.handed unwatch w hw
        · exact h.handed u w' hw'
      · obtain ⟨-, rfl⟩ | hw' := hold u w' hw'
        · exact hfinished
        · exact h.waited u w' hw' hwaited
    · exact h

/-- An unwatch that ends leaves the roots of the others blocked. -/
lemma Tracked.clear (h : s.Tracked) (unwatch : ℕ) (hclean : s.Clean (.clear unwatch)) :
    (s.step (.clear unwatch)).Tracked := by
  unfold step
  dsimp only
  cases hw : s.unwatches.lookup unwatch with
  | none => exact h
  | some w =>
    have hold : ∀ u w', (s.unwatches.erase unwatch).lookup u = some w' →
        s.unwatches.lookup u = some w' ∧ u ≠ unwatch := by
      intro u w' hlookup
      rw [Table.lookup_erase'] at hlookup
      split_ifs at hlookup with hne
      exact ⟨hlookup, hne⟩
    refine ⟨h.running, h.apart, fun u w' hw' root hroot => ?_,
      fun u w' hw' => h.handed u w' (hold u w' hw').1,
      fun u w' hw' => h.waited u w' (hold u w' hw').1⟩
    obtain ⟨hw', hne⟩ := hold u w' hw'
    refine Finset.mem_filter.mpr ⟨h.blocked u w' hw' root hroot, fun hmem => ?_⟩
    exact hclean w hw ⟨u, w'⟩ (AList.mem_lookup_iff.mp hw') hne root hmem hroot

lemma Tracked.step (h : s.Tracked) (event : ImportEvent) (hclean : s.Clean event) :
    (s.step event).Tracked := by
  cases event with
  | start run root => exact h.start run root
  | finish run => exact h.finish run
  | unregister run => exact h.unregister run
  | block unwatch roots => exact h.block unwatch roots
  | wait unwatch => exact h.wait unwatch
  | clear unwatch => exact h.clear unwatch hclean

/-! ## Every run -/

/-- **Imports and unwatches exclude each other** in every run in which no unwatch clears a root that
another unwatch still has. -/
theorem imports_exclude {events : List ImportEvent}
    (hclean : Guarded.Meets Importing.step Clean {} events) :
    (events.foldl Importing.step {}).Exclusive :=
  (hclean.invariant (fun _ event h => h.step event) tracked_empty).exclusive

/-- Two unwatches of one root, one after the other, and an import after both. -/
theorem imports_exclude_sample :
    ([.block 1 ["/lib"], .wait 1, .clear 1, .block 2 ["/lib"], .wait 2, .clear 2,
      .start 7 "/lib"].foldl Importing.step {}).Exclusive :=
  imports_exclude (by decide)

/-- The first of two unwatches of one root clears it, and an import runs while the second one
purges. -/
theorem import_meets_unwatch :
    ¬([.block 1 ["/lib"], .wait 1, .block 2 ["/lib"], .wait 2, .clear 1,
      .start 7 "/lib/a"].foldl Importing.step {}).Exclusive := by
  intro h
  have hover := h.unwatch 2 ⟨["/lib"], [], [], true⟩ (by decide) (by decide) 7 "/lib/a" (by decide)
    (by decide) "/lib" (by decide)
  revert hover
  decide

end Importing

end TuxBooks
