import Mathlib.Data.Set.Card
import Mathlib.Logic.Function.Iterate
import Mathlib.Logic.Relation
import Mathlib.Order.Basic

set_option relaxedAutoImplicit false
set_option autoImplicit false

/-!
# Forests of merged identities

A partial map `next` that sends a merged identity to the one it was merged into. The
representative of an identity is found by following the map, for a bounded number of hops.

## Main definitions

* `MergeForest.find` — follow the map for at most a given number of hops.
* `MergeForest.RootedWithin` — every search ends at a root.
* `MergeForest.link` — make one root a child of another.

## Main results

* `MergeForest.find_of_root` — a root is its own representative.
* `MergeForest.find_of_edge` — the target of an edge to a root is the representative.
* `MergeForest.root_of_down` — edges that go down inside a finite set lead to a root.
* `MergeForest.find_link` — linking a root to another one moves its whole class.
* `MergeForest.rootedWithin_link` — linking two roots costs one more hop.
* `MergeForest.rootedWithin_link_iff` — when it costs none.
* `MergeForest.find_eq_iff_eqvGen` — representatives tell the classes of a union apart.
* `MergeForest.acyclic_of_find` — where searches end at roots, no edges form a cycle.
-/

namespace MergeForest

variable {α : Type*} [DecidableEq α]

/-- Follow `next` from `a` for at most `n` hops; stop at a root or at a self-loop. -/
def find (next : α → Option α) : ℕ → α → α
  | 0, a => a
  | n + 1, a =>
    match next a with
    | some b => if b ≠ a then find next n b else a
    | none => a

attribute [grind =] find

/-- A root is its own representative. -/
lemma find_of_root {next : α → Option α} {a : α} (h : next a = none) (n : ℕ) :
    find next n a = a := by
  cases n with
  | zero => rfl
  | succ n => simp [find, h]

/-- One edge to a root is followed at once. -/
lemma find_of_edge {next : α → Option α} {a b : α} (h : next a = some b) (hb : next b = none)
    (n : ℕ) : find next (n + 1) a = b := by
  by_cases hab : b = a
  · simp [find, h, hab]
  · simp [find, h, hab, find_of_root hb]

/-- A self-loop is not followed. -/
lemma find_of_loop {next : α → Option α} {a : α} (h : next a = some a) (n : ℕ) :
    find next n a = a := by
  cases n with
  | zero => rfl
  | succ n => simp [find, h]

/-- A search can be interrupted. -/
lemma find_find (next : α → Option α) (n k : ℕ) (a : α) :
    find next k (find next n a) = find next (n + k) a := by
  induction n generalizing a with
  | zero => rw [Nat.zero_add, find]
  | succ n ih =>
    cases hnext : next a with
    | none => rw [find_of_root hnext, find_of_root hnext, find_of_root hnext]
    | some b =>
      by_cases hba : b = a
      · subst hba
        rw [find_of_loop hnext, find_of_loop hnext, find_of_loop hnext]
      · have hstep (n : ℕ) : find next (n + 1) a = find next n b := by simp [find, hnext, hba]
        rw [Nat.add_right_comm, hstep, hstep, ih]

/-! ## Searches that reach a root -/

/-- Every search of `n` hops ends at a root. -/
def RootedWithin (next : α → Option α) (n : ℕ) : Prop := ∀ a, next (find next n a) = none

/-- A search that ends at a root takes a step unless it starts there. -/
lemma find_succ_of_edge {next : α → Option α} {a b : α} {n : ℕ} (h : next a = some b)
    (hroot : next (find next (n + 1) a) = none) :
    b ≠ a ∧ find next (n + 1) a = find next n b := by
  by_cases hab : b = a
  · have hstop : find next (n + 1) a = a := by simp [find, h, hab]
    rw [hstop, h] at hroot
    cases hroot
  · exact ⟨hab, by simp [find, h, hab]⟩

/-- More hops change nothing once a root is reached. -/
lemma find_add {next : α → Option α} {n : ℕ} {a : α} (h : next (find next n a) = none)
    (k : ℕ) : find next (n + k) a = find next n a := by
  induction n generalizing a with
  | zero =>
    rw [Nat.zero_add]
    exact find_of_root h k
  | succ n ih =>
    cases hnext : next a with
    | none => rw [find_of_root hnext, find_of_root hnext]
    | some b =>
      obtain ⟨hne, hstep⟩ := find_succ_of_edge hnext h
      rw [hstep] at h ⊢
      rw [Nat.add_right_comm, find, hnext]
      dsimp only
      rw [if_pos hne]
      exact ih h

lemma RootedWithin.find_eq {next : α → Option α} {n k : ℕ} (h : RootedWithin next n)
    (hk : n ≤ k) (a : α) : find next k a = find next n a := by
  obtain ⟨j, rfl⟩ := Nat.exists_eq_add_of_le hk
  exact find_add (h a) j

lemma RootedWithin.mono {next : α → Option α} {n k : ℕ} (h : RootedWithin next n)
    (hk : n ≤ k) : RootedWithin next k := fun a => by
  rw [h.find_eq hk]
  exact h a

/-- It is enough to look at the identities that were merged. -/
lemma rootedWithin_of_edges {next : α → Option α} {n : ℕ}
    (h : ∀ a b, next a = some b → next (find next n a) = none) : RootedWithin next n := fun a => by
  cases hnext : next a with
  | none => rw [find_of_root hnext, hnext]
  | some b => exact h a b hnext

/-- Where a search ends at a root, no chain of edges leads back to its start. -/
theorem acyclic_of_find {next : α → Option α} {n : ℕ} {a : α}
    (h : next (find next n a) = none) :
    ¬Relation.TransGen (fun a b => next a = some b) a a := by
  intro hcycle
  induction n generalizing a with
  | zero =>
    obtain ⟨b, hab, -⟩ := Relation.TransGen.head'_iff.1 hcycle
    rw [find, hab] at h
    cases h
  | succ n ih =>
    obtain ⟨b, hab, hback⟩ := Relation.TransGen.head'_iff.1 hcycle
    obtain ⟨-, hstep⟩ := find_succ_of_edge hab h
    exact ih (hstep ▸ h) (Relation.TransGen.tail' hback hab)

/-! ## Searches that go down -/

/-- What relates the ends of every edge relates an identity and what a search finds. -/
lemma find_rel {next : α → Option α} {R : α → α → Prop} (hrefl : ∀ a, R a a)
    (htrans : ∀ a b c, R a b → R b c → R a c) (hedge : ∀ a b, next a = some b → R a b) (n : ℕ)
    (a : α) : R a (find next n a) := by
  induction n generalizing a with
  | zero => exact hrefl a
  | succ n ih =>
    unfold find
    cases hnext : next a with
    | none => exact hrefl a
    | some b =>
      dsimp only
      split
      · exact htrans a b _ (hedge a b hnext) (ih b)
      · exact hrefl a

/-- Where edges go down inside a set, a search ends at a root within as many hops as the set has
other members. -/
theorem root_of_down [PartialOrder α] {next : α → Option α} {n : ℕ} {C : Set α}
    (hcard : C.encard ≤ n + 1) (hdown : ∀ a ∈ C, ∀ b, next a = some b → b ∈ C ∧ b < a) {a : α}
    (ha : a ∈ C) : next (find next n a) = none := by
  induction n generalizing C a with
  | zero =>
    cases hnext : next a with
    | none => exact hnext
    | some b =>
      obtain ⟨hb, hlt⟩ := hdown a ha b hnext
      rw [Nat.cast_zero, zero_add, Set.encard_le_one_iff] at hcard
      exact absurd (hcard b a hb ha) hlt.ne
  | succ n ih =>
    cases hnext : next a with
    | none => rw [find_of_root hnext, hnext]
    | some b =>
      obtain ⟨hb, hlt⟩ := hdown a ha b hnext
      have hstep : find next (n + 1) a = find next n b := by
        rw [find, hnext]
        exact if_pos hlt.ne
      rw [hstep]
      have hsub : {x ∈ C | x < a} ⊆ C \ {a} := fun x hx => ⟨hx.1, hx.2.ne⟩
      have hless : {x ∈ C | x < a}.encard ≤ n + 1 := by
        have hone := Set.encard_sdiff_singleton_add_one ha
        have hle : (C \ {a}).encard + 1 ≤ (n + 1 : ℕ∞) + 1 := by
          rw [hone]
          exact_mod_cast hcard
        exact (Set.encard_le_encard hsub).trans
          ((ENat.add_le_add_iff_right ENat.one_ne_top).mp hle)
      refine ih hless ?_ ⟨hb, hlt⟩
      intro x hx y hy
      obtain ⟨hyC, hyx⟩ := hdown x hx.1 y hy
      exact ⟨⟨hyC, hyx.trans hx.2⟩, hyx⟩

/-! ## Linking -/

/-- Make the root `l` a child of `w`. -/
def link (next : α → Option α) (l w : α) (a : α) : Option α := if a = l then some w else next a

section Link

variable {next : α → Option α} {l w : α}

/-- Linking one root to another moves its whole class and costs one more hop. -/
theorem find_link (hl : next l = none) (hw : next w = none) (hne : l ≠ w) {n : ℕ} {a : α}
    (h : next (find next n a) = none) :
    find (link next l w) (n + 1) a = if find next n a = l then w else find next n a := by
  have hedge : link next l w l = some w := if_pos rfl
  have hroot : link next l w w = none := by rw [link, if_neg hne.symm, hw]
  induction n generalizing a with
  | zero =>
    by_cases ha : a = l
    · rw [ha, find_of_edge hedge hroot]
      simp [find]
    · have hnone : link next l w a = none := by
        rw [link, if_neg ha]
        exact h
      rw [find_of_root hnone]
      simp [find, ha]
  | succ n ih =>
    by_cases ha : a = l
    · rw [ha, find_of_edge hedge hroot, find_of_root hl, if_pos rfl]
    · cases hnext : next a with
      | none =>
        have hnone : link next l w a = none := by rw [link, if_neg ha, hnext]
        rw [find_of_root hnone, find_of_root hnext, if_neg ha]
      | some b =>
        obtain ⟨hba, hstep⟩ := find_succ_of_edge hnext h
        rw [hstep] at h ⊢
        have hlink : link next l w a = some b := by rw [link, if_neg ha, hnext]
        rw [find, hlink]
        dsimp only
        rw [if_pos hba]
        exact ih h

/-- Linking two roots costs one more hop. -/
theorem rootedWithin_link (hl : next l = none) (hw : next w = none) (hne : l ≠ w) {n : ℕ}
    (h : RootedWithin next n) : RootedWithin (link next l w) (n + 1) := fun a => by
  rw [find_link hl hw hne (h a)]
  split
  · rw [link, if_neg hne.symm, hw]
  · next hal => rw [link, if_neg hal, h a]

/-- A search that does not end at a root goes on as before that root was linked. -/
lemma find_link_of_ne (hl : next l = none) {n : ℕ} {a : α} (h : find next n a ≠ l) :
    find (link next l w) n a = find next n a := by
  induction n generalizing a with
  | zero => rfl
  | succ n ih =>
    have hal : a ≠ l := by
      rintro rfl
      exact h (find_of_root hl _)
    have hlink : link next l w a = next a := if_neg hal
    cases hnext : next a with
    | none => rw [find_of_root hnext, find_of_root (hlink.trans hnext)]
    | some b =>
      by_cases hba : b = a
      · subst hba
        rw [find_of_loop hnext, find_of_loop (hlink.trans hnext)]
      · have hstep : find next (n + 1) a = find next n b := by simp [find, hnext, hba]
        rw [hstep] at h ⊢
        rw [← ih h]
        simp [find, hlink, hnext, hba]

/-- Linking costs no hop where every search that ends at the linked root has one to spare. -/
theorem find_link_of_spare (hl : next l = none) (hw : next w = none) (hne : l ≠ w) {n : ℕ}
    (hspare : ∀ a, find next (n + 1) a = l → find next n a = l) (a : α) :
    find (link next l w) (n + 1) a =
      if find next (n + 1) a = l then w else find next (n + 1) a := by
  split_ifs with ha
  · have hroot : next (find next n a) = none := by rw [hspare a ha, hl]
    rw [find_link hl hw hne hroot, if_pos (hspare a ha)]
  · exact find_link_of_ne hl ha

/-- **When linking costs no hop.** -/
theorem rootedWithin_link_iff (hl : next l = none) (hw : next w = none) (hne : l ≠ w) {n : ℕ}
    (h : RootedWithin next (n + 1)) :
    RootedWithin (link next l w) (n + 1) ↔
      ∀ a, find next (n + 1) a = l → find next n a = l := by
  constructor
  · intro hrooted a ha
    by_contra hfar
    -- the last hop of the search is the edge to the root that was linked
    have hlast : find next 1 (find next n a) = l := by rw [find_find, ha]
    have hedge : next (find next n a) = some l := by
      cases hnext : next (find next n a) with
      | none => exact absurd (find_of_root hnext 1 ▸ hlast) hfar
      | some b =>
        by_cases hb : b = find next n a
        · exact absurd (find_of_loop (hb ▸ hnext) 1 ▸ hlast) hfar
        · simp [find, hnext, hb] at hlast
          rw [hlast]
    have hlink : link next l w (find next n a) = some l := by rw [link, if_neg hfar, hedge]
    have hstop : find (link next l w) (n + 1) a = l := by
      rw [← find_find, find_link_of_ne hl hfar]
      simp [find, hlink, Ne.symm hfar]
    have hroot := hrooted a
    rw [hstop, link, if_pos rfl] at hroot
    cases hroot
  · intro hspare a
    rw [find_link_of_spare hl hw hne hspare]
    split_ifs with ha
    · rw [link, if_neg hne.symm, hw]
    · rw [link, if_neg ha, h a]

end Link

/-! ## Classes -/

/-- **Representatives tell classes apart** after a union, when they did before and the class of
one identity got the representative of the other. -/
theorem find_eq_iff_eqvGen {f g : α → α} {r : α → α → Prop} {a b : α}
    (hf : ∀ u v, f u = f v ↔ Relation.EqvGen r u v)
    (hg : ∀ u, g u = if f u = f a then f b else f u) (u v : α) :
    g u = g v ↔ Relation.EqvGen (fun x y => r x y ∨ x = a ∧ y = b) u v := by
  have hold {x y : α} (h : f x = f y) : Relation.EqvGen (fun x y => r x y ∨ x = a ∧ y = b) x y :=
    ((hf x y).1 h).mono fun _ _ hr => .inl hr
  have hnew : Relation.EqvGen (fun x y => r x y ∨ x = a ∧ y = b) a b := .rel _ _ (.inr ⟨rfl, rfl⟩)
  constructor
  · intro h
    rw [hg u, hg v] at h
    split_ifs at h with hu hv hv
    · exact hold (hu.trans hv.symm)
    · exact ((hold hu).trans _ _ _ hnew).trans _ _ _ (hold h)
    · exact ((hold h).trans _ _ _ (hnew.symm _ _)).trans _ _ _ (hold hv.symm)
    · exact hold h
  · intro h
    induction h with
    | rel x y h =>
      obtain h | ⟨rfl, rfl⟩ := h
      · rw [hg, hg, (hf x y).2 (.rel _ _ h)]
      · rw [hg, hg, if_pos rfl, ite_self]
    | refl => rfl
    | symm _ _ _ ih => exact ih.symm
    | trans _ _ _ _ _ ih ih' => exact ih.trans ih'

end MergeForest
