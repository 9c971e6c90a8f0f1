import TuxBooks.Lib.Guarded
import TuxBooks.Lib.MergeForest
import TuxBooks.Sync.Rekey

set_option relaxedAutoImplicit false
set_option autoImplicit false

/-!
# Following merged books

Runs of `merge_book_identity` on uids that are not forgotten, and what `canonical_book_uid` finds
after them. The search is cut after 32 hops and no chain is ever shortened.

## Main definitions

* `TuxBooks.LiveCall`, `TuxBooks.MergeRun` — the calls, and the mirror with the calls so far.
* `TuxBooks.MergeRun.IsCanonical` — canonicalisation is exact.
* `TuxBooks.MergeRun.HopToSpare` — a call that no search pays a last hop for.

## Main results

* `TuxBooks.MergeRun.canonical_iff` — canonicalisation stays exact on exactly those runs whose
  calls all have a hop to spare.
-/

namespace TuxBooks

/-! ## Runs of merges -/

/-- No open Forget names the uid. -/
def Mirror.IsLive (m : Mirror) (uid : String) : Prop :=
  ∀ row ∈ m.bookTrash.lookup uid, row.restoredAt = true

/-- A call of `merge_book_identity` on two uids that are not forgotten. -/
structure LiveCall (m₀ : Mirror) where
  loser : String
  winner : String
  loser_live : m₀.IsLive loser
  winner_live : m₀.IsLive winner

/-- The mirror, and the calls that were made, the last one first. -/
structure MergeRun where
  mirror : Mirror
  calls : List (String × String)

namespace MergeRun

variable {m₀ : Mirror}

def step (run : MergeRun) (call : LiveCall m₀) : MergeRun where
  mirror := run.mirror.mergeBookIdentity call.loser call.winner
  calls := (call.loser, call.winner) :: run.calls

/-- The loser-to-winner relation. -/
def next (run : MergeRun) (uid : String) : Option String := run.mirror.merges.lookup uid

/-- Some call merges the one uid into the other. -/
def Called (run : MergeRun) (u v : String) : Prop := (u, v) ∈ run.calls

/-- **Canonicalisation is exact**: merges form no cycle, a canonical uid is not itself a loser,
and two uids have the same one exactly when calls merged them, directly or transitively. -/
structure IsCanonical (run : MergeRun) : Prop where
  acyclic : ∀ uid, ¬Relation.TransGen (fun u v => run.next u = some v) uid uid
  root : ∀ uid, run.next (run.mirror.canonicalBookUid uid) = none
  together : ∀ u v, run.mirror.canonicalBookUid u = run.mirror.canonicalBookUid v ↔
    Relation.EqvGen run.Called u v

/-- If the call joins two identities, no uid is as many hops from the losing one as a search takes
at most. -/
def HopToSpare (run : MergeRun) (call : LiveCall m₀) : Prop :=
  run.mirror.canonicalBookUid call.loser ≠ run.mirror.canonicalBookUid call.winner →
    ∀ uid, run.mirror.canonicalBookUid uid = run.mirror.canonicalBookUid call.loser →
      MergeForest.find run.next 31 uid = run.mirror.canonicalBookUid call.loser

/-- What holds while every call has a hop to spare. -/
structure Rooted (m₀ : Mirror) (run : MergeRun) : Prop where
  trash : run.mirror.bookTrash = m₀.bookTrash
  rooted : MergeForest.RootedWithin run.next 32
  together : ∀ u v, run.mirror.canonicalBookUid u = run.mirror.canonicalBookUid v ↔
    Relation.EqvGen run.Called u v
  live : ∀ uid, m₀.IsLive uid → m₀.IsLive (run.mirror.canonicalBookUid uid)

section Step

variable {run : MergeRun} {call : LiveCall m₀}

lemma Rooted.isCanonical (h : Rooted m₀ run) : run.IsCanonical where
  acyclic uid := MergeForest.acyclic_of_find (h.rooted uid)
  root := h.rooted
  together := h.together

/-- A canonical uid is its own canonical uid. -/
lemma Rooted.canonical_canonical (h : Rooted m₀ run) (uid : String) :
    run.mirror.canonicalBookUid (run.mirror.canonicalBookUid uid) =
      run.mirror.canonicalBookUid uid :=
  MergeForest.find_of_root (h.rooted uid) 32

/-- A live uid is not forgotten under its canonical uid either. -/
lemma Rooted.forgottenReplacement (h : Rooted m₀ run) {uid : String} (hlive : m₀.IsLive uid) :
    run.mirror.forgottenReplacement (run.mirror.canonicalBookUid uid) = none := by
  rw [Mirror.forgottenReplacement, h.canonical_canonical, h.trash]
  cases hrow : m₀.bookTrash.lookup (run.mirror.canonicalBookUid uid) with
  | none => rfl
  | some row =>
    dsimp only
    rw [if_pos (h.live uid hlive row hrow)]

/-- A call on two uids that are merged already. -/
lemma step_of_eq (heq : run.mirror.canonicalBookUid call.loser =
      run.mirror.canonicalBookUid call.winner) :
    (run.step call).mirror = run.mirror := by
  rw [step, Mirror.mergeBookIdentity]
  dsimp only
  rw [if_pos heq]

/-- A call that joins two identities links the losing one to the winning one. -/
lemma Rooted.step_of_ne (h : Rooted m₀ run)
    (hne : run.mirror.canonicalBookUid call.loser ≠ run.mirror.canonicalBookUid call.winner) :
    (run.step call).mirror.bookTrash = run.mirror.bookTrash ∧
      (run.step call).next = MergeForest.link run.next (run.mirror.canonicalBookUid call.loser)
        (run.mirror.canonicalBookUid call.winner) := by
  have hstep : (run.step call).mirror = run.mirror.mergeBookRows
      (run.mirror.canonicalBookUid call.loser) (run.mirror.canonicalBookUid call.winner) := by
    rw [step, Mirror.mergeBookIdentity]
    dsimp only
    rw [if_neg hne, if_neg]
    rw [h.forgottenReplacement call.winner_live, h.forgottenReplacement call.loser_live]
    simp
  obtain ⟨-, -, hmerges, -, htrash, -⟩ := run.mirror.mergeBookRows_tables
    (run.mirror.canonicalBookUid call.loser) (run.mirror.canonicalBookUid call.winner)
  refine ⟨by rw [hstep, htrash], ?_⟩
  funext uid
  rw [next, hstep, hmerges, Table.lookup_insert']
  rfl

/-- The class of the losing identity gets the winning one. -/
lemma Rooted.canonical_step (h : Rooted m₀ run) (hspare : run.HopToSpare call) (uid : String) :
    (run.step call).mirror.canonicalBookUid uid =
      if run.mirror.canonicalBookUid uid = run.mirror.canonicalBookUid call.loser then
        run.mirror.canonicalBookUid call.winner
      else run.mirror.canonicalBookUid uid := by
  by_cases heq : run.mirror.canonicalBookUid call.loser = run.mirror.canonicalBookUid call.winner
  · rw [step_of_eq heq, ← heq]
    split_ifs with huid
    · exact huid
    · rfl
  · have hlink := (h.step_of_ne heq).2
    change MergeForest.find (run.step call).next 32 uid = _
    rw [hlink]
    exact MergeForest.find_link_of_spare (h.rooted _) (h.rooted _) heq (hspare heq) uid

/-- **One call** with a hop to spare. -/
theorem Rooted.step (h : Rooted m₀ run) (hspare : run.HopToSpare call) :
    Rooted m₀ (run.step call) := by
  have hcalled : (run.step call).Called =
      fun u v => run.Called u v ∨ u = call.loser ∧ v = call.winner := by
    funext u v
    simp [Called, MergeRun.step, or_comm]
  refine ⟨?_, ?_, ?_, fun uid hlive => ?_⟩
  · by_cases heq : run.mirror.canonicalBookUid call.loser =
        run.mirror.canonicalBookUid call.winner
    · rw [step_of_eq heq, h.trash]
    · rw [(h.step_of_ne heq).1, h.trash]
  · by_cases heq : run.mirror.canonicalBookUid call.loser =
        run.mirror.canonicalBookUid call.winner
    · have hnext : (run.step call).next = run.next := by
        funext uid
        rw [next, step_of_eq heq]
        rfl
      rw [hnext]
      exact h.rooted
    · rw [(h.step_of_ne heq).2]
      exact (MergeForest.rootedWithin_link_iff (h.rooted _) (h.rooted _) heq h.rooted).2
        (hspare heq)
  · rw [hcalled]
    exact MergeForest.find_eq_iff_eqvGen h.together (h.canonical_step hspare)
  · rw [h.canonical_step hspare]
    split_ifs
    · exact h.live call.winner call.winner_live
    · exact h.live uid hlive

/-- A call without a hop to spare leaves a canonical uid that is a loser. -/
lemma Rooted.breaks (h : Rooted m₀ run) (hnot : ¬run.HopToSpare call) :
    ¬(run.step call).IsCanonical := by
  intro hcanonical
  refine hnot fun hne => ?_
  have hrooted : MergeForest.RootedWithin (run.step call).next 32 := hcanonical.root
  rw [(h.step_of_ne hne).2] at hrooted
  exact (MergeForest.rootedWithin_link_iff (h.rooted _) (h.rooted _) hne h.rooted).1 hrooted

end Step

/-- Before the first merge every uid is its own. -/
lemma rooted_start (hm : m₀.merges = ∅) : Rooted m₀ ⟨m₀, []⟩ := by
  have hnext (uid : String) : (⟨m₀, []⟩ : MergeRun).next uid = none := by
    rw [next, hm]
    rfl
  have hself (uid : String) : m₀.canonicalBookUid uid = uid :=
    MergeForest.find_of_root (hnext uid) 32
  refine ⟨rfl, fun uid => hnext _, fun u v => ?_, fun uid hlive => ?_⟩
  · rw [hself, hself]
    constructor
    · rintro rfl
      exact .refl u
    · intro h
      induction h with
      | rel _ _ h => cases h
      | refl => rfl
      | symm _ _ _ ih => exact ih.symm
      | trans _ _ _ _ _ ih ih' => exact ih.trans ih'
  · change m₀.IsLive (m₀.canonicalBookUid uid)
    rwa [hself]

/-- **Canonicalisation stays exact on exactly the runs whose calls all have a hop to spare**, from
any mirror in which nothing is merged. -/
theorem canonical_iff (hm : m₀.merges = ∅) (calls : List (LiveCall m₀)) :
    Guarded.Meets step HopToSpare ⟨m₀, []⟩ calls ↔
      ∀ before, before <+: calls → (before.foldl step ⟨m₀, []⟩).IsCanonical := by
  have hstep (run : MergeRun) (call : LiveCall m₀) (h : Rooted m₀ run)
      (hspare : run.HopToSpare call) : Rooted m₀ (run.step call) := h.step hspare
  exact Guarded.meets_iff_always hstep (fun _ h => h.isCanonical) (fun _ _ h => h.breaks)
    (rooted_start hm)

/-- A merge of two books on a fresh mirror. -/
theorem canonical_two_books :
    Guarded.Meets step HopToSpare ⟨{}, []⟩ [(⟨"b", "a", nofun, nofun⟩ : LiveCall {})] ↔
      ∀ before, before <+: [(⟨"b", "a", nofun, nofun⟩ : LiveCall {})] →
        (before.foldl step ⟨{}, []⟩).IsCanonical :=
  canonical_iff rfl _

/-- A uid of a chain. -/
def chainUid (n : ℕ) : String := String.ofList (List.replicate (n + 1) 'b')

/-- Each book of a chain is merged into the next one. -/
def chainCalls (n : ℕ) : List (LiveCall {}) :=
  (List.range n).map fun i => ⟨chainUid i, chainUid (i + 1), nofun, nofun⟩

/-- After a chain of 33 merges, the canonical uid of the first book is a loser, and not that of the
book it was merged into. -/
theorem chain_not_canonical :
    ¬((chainCalls 33).foldl step ⟨{}, []⟩).IsCanonical ∧
      ((chainCalls 33).foldl step ⟨{}, []⟩).mirror.canonicalBookUid (chainUid 0) = chainUid 32 ∧
      ((chainCalls 33).foldl step ⟨{}, []⟩).mirror.canonicalBookUid (chainUid 1) = chainUid 33 ∧
      ((chainCalls 33).foldl step ⟨{}, []⟩).next (chainUid 32) = some (chainUid 33) := by
  have hfirst : ((chainCalls 33).foldl step ⟨{}, []⟩).mirror.canonicalBookUid (chainUid 0) =
      chainUid 32 := by decide +kernel
  have hloser : ((chainCalls 33).foldl step ⟨{}, []⟩).next (chainUid 32) = some (chainUid 33) := by
    decide +kernel
  refine ⟨fun h => ?_, hfirst, by decide +kernel, hloser⟩
  have hroot := h.root (chainUid 0)
  rw [hfirst, hloser] at hroot
  cases hroot

end MergeRun

end TuxBooks
