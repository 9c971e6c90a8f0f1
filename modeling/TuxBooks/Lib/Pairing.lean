import Mathlib.Data.List.Basic
import Mathlib.Data.List.Count
import Mathlib.Order.Lattice

set_option relaxedAutoImplicit false
set_option autoImplicit false

/-!
# First-in first-out pairing across windows

Two queues of halves are paired oldest first, one window after another. A source that finds no
target waits for the next window and is given up there. No half says which operation it belongs
to; here each carries its operation only for the statements.

## Main definitions

* `Pairing.flushes` — the waiting sources and the targets at the end of each window.
* `Pairing.Settled` — no half is missing in front of a later one.

## Main results

* `Pairing.zip_eq_iff_settled` — the oldest-first pairs join halves of one operation exactly when
  no half is missing in front of a later one.
* `Pairing.sublist_of_mem_flushes` — the queues of every window keep the order of arrival.
-/

namespace Pairing

/-! ## One window -/

section Window

variable {κ : Type*} [LinearOrder κ] {sources targets : List κ}

/-- A source without its target has no later target behind it, and a target without its source no
later source. -/
def Settled (sources targets : List κ) : Prop :=
  ∀ op, (targets.count op < sources.count op → ∀ other ∈ targets, other ≤ op) ∧
    (sources.count op < targets.count op → ∀ other ∈ sources, other ≤ op)

instance : Decidable (Settled sources targets) :=
  decidable_of_iff (∀ op ∈ sources ++ targets,
      (targets.count op < sources.count op → ∀ other ∈ targets, other ≤ op) ∧
        (sources.count op < targets.count op → ∀ other ∈ sources, other ≤ op))
    ⟨fun h op => by
      by_cases hop : op ∈ sources ++ targets
      · exact h op hop
      · rw [List.mem_append, not_or] at hop
        rw [List.count_eq_zero.mpr hop.1, List.count_eq_zero.mpr hop.2]
        exact ⟨fun hlt => absurd hlt (Nat.lt_irrefl 0), fun hlt => absurd hlt (Nat.lt_irrefl 0)⟩,
      fun h op _ => h op⟩

lemma settled_nil_left : Settled [] targets := fun _ =>
  ⟨fun hlt => absurd hlt (Nat.not_lt_zero _), fun _ _ hother => absurd hother List.not_mem_nil⟩

lemma settled_nil_right : Settled sources [] := fun _ =>
  ⟨fun _ _ hother => absurd hother List.not_mem_nil, fun hlt => absurd hlt (Nat.not_lt_zero _)⟩

/-- The oldest halves belong together. -/
lemma Settled.head_eq {source target : κ} (h : Settled (source :: sources) (target :: targets))
    (hs : (source :: sources).Pairwise (· ≤ ·)) (ht : (target :: targets).Pairwise (· ≤ ·)) :
    source = target := by
  obtain hlt | heq | hlt := lt_trichotomy source target
  · have hnot : source ∉ target :: targets := by
      intro hmem
      obtain rfl | hmem := List.mem_cons.mp hmem
      · exact lt_irrefl _ hlt
      · exact lt_irrefl _ (lt_of_lt_of_le hlt ((List.pairwise_cons.mp ht).1 source hmem))
    have hcount : (target :: targets).count source < (source :: sources).count source := by
      rw [List.count_eq_zero.mpr hnot]
      exact List.count_pos_iff.mpr List.mem_cons_self
    exact absurd ((h source).1 hcount target List.mem_cons_self) (not_le_of_gt hlt)
  · exact heq
  · have hnot : target ∉ source :: sources := by
      intro hmem
      obtain rfl | hmem := List.mem_cons.mp hmem
      · exact lt_irrefl _ hlt
      · exact lt_irrefl _ (lt_of_lt_of_le hlt ((List.pairwise_cons.mp hs).1 target hmem))
    have hcount : (source :: sources).count target < (target :: targets).count target := by
      rw [List.count_eq_zero.mpr hnot]
      exact List.count_pos_iff.mpr List.mem_cons_self
    exact absurd ((h target).2 hcount source List.mem_cons_self) (not_le_of_gt hlt)

/-- One joined pair is taken off both queues. -/
lemma settled_cons_iff {op : κ} (hs : ∀ other ∈ sources, op ≤ other)
    (ht : ∀ other ∈ targets, op ≤ other) :
    Settled (op :: sources) (op :: targets) ↔ Settled sources targets := by
  have hcount (other : κ) : ((op :: targets).count other < (op :: sources).count other ↔
      targets.count other < sources.count other) ∧
      ((op :: sources).count other < (op :: targets).count other ↔
        sources.count other < targets.count other) := by
    rw [List.count_cons, List.count_cons]
    omega
  constructor
  · intro h other
    exact ⟨fun hlt last hlast => (h other).1 ((hcount other).1.mpr hlt) last
        (List.mem_cons_of_mem op hlast),
      fun hlt last hlast => (h other).2 ((hcount other).2.mpr hlt) last
        (List.mem_cons_of_mem op hlast)⟩
  · intro h other
    constructor
    · intro hlt last hlast
      replace hlt := (hcount other).1.mp hlt
      obtain heq | hlast := List.mem_cons.mp hlast
      · rw [heq]
        exact hs other (List.count_pos_iff.mp (Nat.zero_lt_of_lt hlt))
      · exact (h other).1 hlt last hlast
    · intro hlt last hlast
      replace hlt := (hcount other).2.mp hlt
      obtain heq | hlast := List.mem_cons.mp hlast
      · rw [heq]
        exact ht other (List.count_pos_iff.mp (Nat.zero_lt_of_lt hlt))
      · exact (h other).2 hlt last hlast

/-- **Oldest-first pairs join halves of one operation exactly when no half is missing in front of a
later one.** -/
theorem zip_eq_iff_settled (hs : sources.Pairwise (· ≤ ·)) (ht : targets.Pairwise (· ≤ ·)) :
    (∀ pair ∈ sources.zip targets, pair.1 = pair.2) ↔ Settled sources targets := by
  induction sources generalizing targets with
  | nil => exact iff_of_true (by simp) settled_nil_left
  | cons source sources ih =>
    cases targets with
    | nil => exact iff_of_true (by simp) settled_nil_right
    | cons target targets =>
      obtain ⟨hsource, hs'⟩ := List.pairwise_cons.mp hs
      obtain ⟨htarget, ht'⟩ := List.pairwise_cons.mp ht
      rw [List.zip_cons_cons, List.forall_mem_cons, ih hs' ht']
      constructor
      · rintro ⟨hpair, hrest⟩
        obtain rfl : source = target := hpair
        exact (settled_cons_iff hsource htarget).mpr hrest
      · intro h
        obtain rfl := h.head_eq hs ht
        exact ⟨rfl, (settled_cons_iff hsource htarget).mp h⟩

end Window

/-! ## The windows in turn -/

variable {α β : Type*}

/-- The sources that wait for the next window: those of this window that are behind the waiting
ones and find no target. -/
def carry (carried sources : List α) (targets : List β) : List α :=
  sources.drop (targets.length - carried.length)

/-- Those that waited are paired first. -/
lemma zip_append_left (older newer : List α) (targets : List β) :
    (older ++ newer).zip targets =
      older.zip targets ++ newer.zip (targets.drop older.length) := by
  induction older generalizing targets with
  | nil => rfl
  | cons source older ih =>
    cases targets with
    | nil => simp
    | cons target targets => exact congrArg ((source, target) :: ·) (ih targets)

/-- The sources and the targets that meet at the end of each window. -/
def flushes : List α → List (List α × List β) → List (List α × List β)
  | _, [] => []
  | carried, (sources, targets) :: windows =>
    (carried ++ sources, targets) :: flushes (carry carried sources targets) windows

/-- **The queues of every window keep the order of arrival.** -/
theorem sublist_of_mem_flushes {carried : List α} {windows : List (List α × List β)}
    {flush : List α × List β} (h : flush ∈ flushes carried windows) :
    flush.1.Sublist (carried ++ windows.flatMap Prod.fst) ∧
      flush.2.Sublist (windows.flatMap Prod.snd) := by
  induction windows generalizing carried with
  | nil => exact absurd h List.not_mem_nil
  | cons window windows ih =>
    obtain ⟨sources, targets⟩ := window
    rw [List.flatMap_cons, List.flatMap_cons]
    obtain rfl | h := List.mem_cons.mp h
    · exact ⟨(List.sublist_append_left _ _).append_left carried, List.sublist_append_left _ _⟩
    · obtain ⟨hsources, htargets⟩ := ih h
      refine ⟨hsources.trans ?_, htargets.trans (List.sublist_append_right _ _)⟩
      exact ((List.drop_sublist _ sources).append_right _).trans
        (List.sublist_append_right carried _)

end Pairing
