import TuxBooks.Device.Consistent

set_option relaxedAutoImplicit false
set_option autoImplicit false

/-!
# Steps that keep a device consistent

Receiving a published identity operation and binding a file to its hash, each under the condition
that the uids it folds are not lost to other devices.

## Main definitions

* `TuxBooks.Device.ReceiveCalm`, `TuxBooks.Device.BindCalm` — the conditions, on the state before
  the step.

## Main results

* `TuxBooks.Device.Consistent.applyIdentity` — receiving an identity operation.
* `TuxBooks.Device.Consistent.bindHash` — binding a file.
-/

namespace TuxBooks

open Fallible Tagging

namespace Device

/-- No tie waits outside the tables. -/
def NoTies : String → String → Prop := fun _ _ => False

variable {log : List Op} {E : String → String → Prop} {n : ℕ} {d d' : Device} {l w : String}

/-! ## Recomputing does not fail -/

/-- In a sound catalog a merge succeeds and leaves a sound catalog. -/
lemma mergeBookIdentity_ok (jsonReal : ℚ → Value) (h : d.catalog.Sound) (loser winner : String) :
    (d.mergeBookIdentity jsonReal loser winner).2 = .ok () ∧
      (d.mergeBookIdentity jsonReal loser winner).1.catalog.Sound := by
  unfold mergeBookIdentity
  dsimp only
  split_ifs with heq hforgotten
  · exact ⟨rfl, h⟩
  · exact ⟨rfl, h⟩
  · have hmerged := h.folded heq (Catalog.folded_mergeBook jsonReal d.catalog _ _)
    generalize d.catalog.mergeBook jsonReal (d.mirror.canonicalBookUid loser)
      (d.mirror.canonicalBookUid winner) = c at hmerged ⊢
    exact ⟨hmerged.recomputePrimary_ok jsonReal _,
      hmerged.frame (Catalog.frame_recomputePrimary jsonReal _ _)⟩

/-! ## Uids on a device without book trash -/

lemma forgottenReplacement_none {m : Mirror} (h : ∀ uid, m.bookTrash.lookup uid = none)
    (uid : String) : m.forgottenReplacement uid = none := by
  unfold Mirror.forgottenReplacement
  rw [h]

lemma resolveIdentity_eq {m : Mirror} (h : ∀ uid, m.bookTrash.lookup uid = none) (uid : String) :
    m.resolveIdentity uid = some (m.canonicalBookUid uid) := by
  unfold Mirror.resolveIdentity
  dsimp only
  rw [forgottenReplacement_none h]

namespace Consistent

variable (jsonReal : ℚ → Value)

lemma canonical_root (h : Consistent n log E d) (hn : n ≤ 32) (uid : String) :
    d.mirror.merges.lookup (d.mirror.canonicalBookUid uid) = none :=
  h.rooted.lookup_canonical hn uid

/-- More ties. -/
lemma mono_ties {E' : String → String → Prop} (h : Consistent n log E d)
    (hE : ∀ k x, E k x → E' k x) : Consistent n log E' d := by
  have hties : ∀ k x, Ties log E d k x → Ties log E' d k x := by
    rintro k x (hx | hx | hx)
    · exact Or.inl hx
    · exact Or.inr (Or.inl hx)
    · exact Or.inr (Or.inr (hE k x hx))
  refine { h with tied := fun k y hy => ?_, linked := fun x hx => ?_ }
  · obtain ⟨z, hz, hzy⟩ := h.tied k y hy
    exact ⟨z, hties k z hz, hzy.mono hties⟩
  · exact ⟨(h.linked x hx).1.mono hties, (h.linked x hx).2⟩

/-- The invariant reads the identity tables only. -/
lemma congr (h : Consistent n log E d) (hmerges : d'.mirror.merges = d.mirror.merges)
    (haliases : d'.mirror.aliases = d.mirror.aliases)
    (hbindings : d'.mirror.bindings = d.mirror.bindings)
    (htrash : d'.mirror.bookTrash = d.mirror.bookTrash)
    (happlied : ∀ op ∈ log, op.kind = .bookIdentity → op.opId ∈ d'.mirror.appliedOps →
      op.opId ∈ d.mirror.appliedOps)
    (hfile : ∀ i x, d'.catalog.fileUid i = some x → d.mirror.merges.lookup x = none)
    (hpending : ∀ k, d'.pending k = d.pending k) : Consistent n log E d' := by
  have hcanonical : ∀ uid, d'.mirror.canonicalBookUid uid = d.mirror.canonicalBookUid uid := by
    intro uid
    unfold Mirror.canonicalBookUid
    rw [hmerges]
  have hties : ∀ k x, Ties log E d k x → Ties log E d' k x := by
    rintro k x (hx | ⟨p, hp, hx⟩ | hx)
    · exact Or.inl hx
    · exact Or.inr (Or.inl ⟨p, (hpending k).trans hp, (hcanonical p).trans hx⟩)
    · exact Or.inr (Or.inr hx)
  constructor
  · unfold Mirror.RootedWithin
    rw [hmerges]
    exact h.rooted
  · intro uid
    rw [htrash]
    exact h.noTrash uid
  · intro k x hx
    rw [hmerges]
    exact h.aliasRoot k x (haliases ▸ hx)
  · intro i b hb
    rw [hmerges]
    exact h.bindingRoot i b (hbindings ▸ hb)
  · intro i x hx
    rw [hmerges]
    exact hfile i x hx
  · intro op hop hkind hmem k hk
    rw [haliases, hcanonical]
    exact h.applied op hop hkind (happlied op hop hkind hmem) k hk
  · intro k k' p hp
    rw [haliases, hcanonical]
    exact h.marked k k' p ((hpending k).symm.trans hp)
  · intro k y hy
    obtain ⟨z, hz, hzy⟩ := h.tied k y (haliases ▸ hy)
    exact ⟨z, hties k z hz, hzy.mono hties⟩
  · intro i b hb
    rw [haliases]
    exact h.bound i b (hbindings ▸ hb)
  · intro x hx
    rw [hcanonical]
    exact ⟨(h.linked x hx).1.mono hties, (h.linked x hx).2⟩

/-- Merging two uids that resolve apart folds one into the other. -/
lemma folds (h : Consistent n log E d) (hn : n ≤ 32) {loser winner : String}
    (hne : d.mirror.canonicalBookUid loser ≠ d.mirror.canonicalBookUid winner) :
    Folds (d.mirror.canonicalBookUid loser) (d.mirror.canonicalBookUid winner) d
      (d.mergeBookIdentity jsonReal loser winner).1 :=
  mergeBookIdentity_folds jsonReal h.rooted hn hne (forgottenReplacement_none h.noTrash _)
    (forgottenReplacement_none h.noTrash _)

/-- A harmless merge keeps a device consistent. -/
lemma merge (h : Consistent n log E d) (hlog : WellFormed log) (hn : n < 32)
    {loser winner : String}
    (hharmless : d.mirror.canonicalBookUid loser ≠ d.mirror.canonicalBookUid winner →
      Harmless log E d (d.mirror.canonicalBookUid loser) (d.mirror.canonicalBookUid winner)) :
    Consistent (n + 1) log E (d.mergeBookIdentity jsonReal loser winner).1 := by
  by_cases hne : d.mirror.canonicalBookUid loser = d.mirror.canonicalBookUid winner
  · rw [mergeBookIdentity, if_pos hne]
    exact h.mono (by omega)
  · exact h.fold hlog hn (h.folds jsonReal hn.le hne) (hharmless hne)

/-- Two uids that were merged resolve alike, to what the winner resolved to. -/
lemma canonical_merge (h : Consistent n log E d) (hn : n < 32) (loser winner : String) :
    (d.mergeBookIdentity jsonReal loser winner).1.mirror.canonicalBookUid loser =
        d.mirror.canonicalBookUid winner ∧
      (d.mergeBookIdentity jsonReal loser winner).1.mirror.canonicalBookUid winner =
        d.mirror.canonicalBookUid winner := by
  by_cases hne : d.mirror.canonicalBookUid loser = d.mirror.canonicalBookUid winner
  · rw [mergeBookIdentity, if_pos hne]
    exact ⟨hne, rfl⟩
  · have hfold := h.folds jsonReal hn.le hne
    rw [hfold.canonical h.rooted hn, hfold.canonical h.rooted hn, foldUid_self,
      foldUid_of_ne (Ne.symm hne)]
    exact ⟨rfl, rfl⟩

/-- Uids that resolve alike go on doing so. -/
lemma merge_congr (h : Consistent n log E d) (hn : n < 32) {x x' : String}
    (hx : d.mirror.canonicalBookUid x = d.mirror.canonicalBookUid x') (loser winner : String) :
    (d.mergeBookIdentity jsonReal loser winner).1.mirror.canonicalBookUid x =
      (d.mergeBookIdentity jsonReal loser winner).1.mirror.canonicalBookUid x' := by
  by_cases hne : d.mirror.canonicalBookUid loser = d.mirror.canonicalBookUid winner
  · rw [mergeBookIdentity, if_pos hne]
    exact hx
  · have hfold := h.folds jsonReal hn.le hne
    rw [hfold.canonical h.rooted hn, hfold.canonical h.rooted hn, hx]

/-- A hash that resolves to what `uid` resolves to goes on doing so. -/
lemma alias_merge (h : Consistent n log E d) (hn : n < 32) {k x : String}
    (hk : d.mirror.aliases.lookup k = some (d.mirror.canonicalBookUid x))
    (loser winner : String) :
    (d.mergeBookIdentity jsonReal loser winner).1.mirror.aliases.lookup k =
      some ((d.mergeBookIdentity jsonReal loser winner).1.mirror.canonicalBookUid x) := by
  by_cases hne : d.mirror.canonicalBookUid loser = d.mirror.canonicalBookUid winner
  · rw [mergeBookIdentity, if_pos hne]
    exact hk
  · have hfold := h.folds jsonReal hn.le hne
    rw [hfold.lookup_aliases, hk, hfold.canonical h.rooted hn]
    rfl

/-- Pointing a hash at a root that is tied to it, if it points nowhere else. -/
lemma setAlias (h : Consistent n log E d) {k uid : String}
    (huid : d.mirror.merges.lookup uid = none)
    (hold : ∀ y, d.mirror.aliases.lookup k = some y → y = uid)
    (htied : ∃ z, Ties log E d k z ∧ Linked (Ties log E d) z uid) :
    Consistent n log E (d.setAlias k uid) := by
  have hlookup : ∀ k' y, (d.setAlias k uid).mirror.aliases.lookup k' = some y ↔
      (k' = k ∧ y = uid) ∨ d.mirror.aliases.lookup k' = some y := by
    intro k' y
    change (d.mirror.aliases.insert k uid).lookup k' = some y ↔ _
    rw [Table.lookup_insert']
    split_ifs with hk
    · subst hk
      constructor
      · rintro ⟨⟩
        exact Or.inl ⟨rfl, rfl⟩
      · rintro (⟨-, rfl⟩ | hy)
        · rfl
        · rw [hold y hy]
    · simp [hk]
  refine ⟨h.rooted, h.noTrash, fun k' x hx => ?_, h.bindingRoot, h.fileRoot,
    fun op hop hkind happlied k' hk' => ?_, fun k' k'' p hp => ?_, fun k' y hy => ?_,
    fun i b hb => ?_, h.linked⟩
  · rcases (hlookup k' x).mp hx with ⟨-, rfl⟩ | hx
    · exact huid
    · exact h.aliasRoot k' x hx
  · exact (hlookup _ _).mpr (Or.inr (h.applied op hop hkind happlied k' hk'))
  · obtain ⟨hk', halias⟩ := h.marked k' k'' p hp
    exact ⟨hk', (hlookup _ _).mpr (Or.inr halias)⟩
  · rcases (hlookup k' y).mp hy with ⟨rfl, rfl⟩ | hy
    · exact htied
    · exact h.tied k' y hy
  · exact (hlookup _ _).mpr (Or.inr (h.bound i b hb))

end Consistent

/-! ## Receiving an identity operation -/

/-- The uid that an identity operation would fold is not a published one that waits in a marker,
and chains of merges have room. -/
def ReceiveCalm (log : List Op) (d : Device) (op : Op) : Prop :=
  d.mirror.RootedWithin 30 ∧
    (op.hash.all fun h => (((d.mirror.aliases.lookup h).bind d.mirror.resolveIdentity).all fun y =>
      (d.mirror.resolveIdentity op.entityUid).all fun c =>
        y ≠ c → Loud log d.mirror (max y c) → ¬d.Waiting (max y c))) = true

instance (log : List Op) (d : Device) (op : Op) : Decidable (ReceiveCalm log d op) :=
  inferInstanceAs (Decidable (_ ∧ _ = true))

/-- Which merge `apply_identity` makes. -/
lemma unifyAlias_some (jsonReal : ℚ → Value) (d : Device) (y c : String) :
    d.unifyAlias jsonReal (some y) c =
      if y = c then (d, .ok y)
      else andThen (d.mergeBookIdentity jsonReal (max y c) (min y c)) fun d _ =>
        (d, .ok (min y c)) := by
  unfold unifyAlias
  dsimp only
  rcases lt_trichotomy y c with hlt | rfl | hgt
  · rw [min_eq_left hlt.le, max_eq_right hlt.le, if_neg hlt.ne, if_neg (not_not.mpr rfl),
      andThen_ok, if_pos hlt.ne]
  · simp
  · rw [min_eq_right hgt.le, max_eq_left hgt.le, if_neg hgt.ne', if_pos hgt.ne']
    simp

namespace Consistent

variable (jsonReal : ℚ → Value)

/-- Merging the larger of two linked roots into the smaller one. -/
lemma merge_linked (h : Consistent n log NoTies d) (hlog : WellFormed log) (hn : n < 32)
    {y c : String} (hy : d.mirror.merges.lookup y = none) (hc : d.mirror.merges.lookup c = none)
    (hlinked : Linked (Ties log NoTies d) y c)
    (hquiet : Loud log d.mirror (max y c) → ¬d.Waiting (max y c)) :
    Consistent (n + 1) log NoTies (d.mergeBookIdentity jsonReal (max y c) (min y c)).1 := by
  refine h.merge jsonReal hlog hn fun _ => ?_
  rcases le_total y c with hle | hle
  · rw [max_eq_right hle] at hquiet
    rw [max_eq_right hle, min_eq_left hle, Mirror.canonical_of_root hy,
      Mirror.canonical_of_root hc]
    by_cases hloud : Loud log d.mirror c
    · exact Or.inr ⟨hquiet hloud, hlinked.symm, hle⟩
    · exact Or.inl ⟨hloud, fun _ _ hE => hE.elim⟩
  · rw [max_eq_left hle] at hquiet
    rw [max_eq_left hle, min_eq_right hle, Mirror.canonical_of_root hy,
      Mirror.canonical_of_root hc]
    by_cases hloud : Loud log d.mirror y
    · exact Or.inr ⟨hquiet hloud, hlinked, hle⟩
    · exact Or.inl ⟨hloud, fun _ _ hE => hE.elim⟩

/-- Both roots then resolve to the smaller one. -/
lemma canonical_merge_minmax (h : Consistent n log E d) (hn : n < 32) {y c : String}
    (hy : d.mirror.merges.lookup y = none) (hc : d.mirror.merges.lookup c = none) :
    (d.mergeBookIdentity jsonReal (max y c) (min y c)).1.mirror.canonicalBookUid y = min y c ∧
      (d.mergeBookIdentity jsonReal (max y c) (min y c)).1.mirror.canonicalBookUid c =
        min y c := by
  have hmerge := h.canonical_merge jsonReal hn (max y c) (min y c)
  rcases le_total y c with hle | hle
  · rw [max_eq_right hle, min_eq_left hle, Mirror.canonical_of_root hy] at hmerge
    rw [max_eq_right hle, min_eq_left hle]
    exact ⟨hmerge.2, hmerge.1⟩
  · rw [max_eq_left hle, min_eq_right hle, Mirror.canonical_of_root hc] at hmerge
    rw [max_eq_left hle, min_eq_right hle]
    exact hmerge

/-- **A received identity operation keeps a device consistent**, and then its uid is the one the
hash has. -/
theorem applyIdentity (h : Consistent n log NoTies d) (hlog : WellFormed log) {op : Op}
    (hop : op ∈ log) (hkind : op.kind = .bookIdentity) (hcalm : ReceiveCalm log d op) :
    Consistent 32 log NoTies (d.applyIdentity jsonReal op).1 ∧
      ∀ affected, (d.applyIdentity jsonReal op).2 = .ok affected → ∀ k, op.hash = some k →
        (d.applyIdentity jsonReal op).1.mirror.aliases.lookup k =
          some ((d.applyIdentity jsonReal op).1.mirror.canonicalBookUid op.entityUid) := by
  obtain ⟨hrooted, hquiet⟩ := hcalm
  replace h : Consistent 30 log NoTies d := { h with rooted := hrooted }
  have hpublished : Published log op.entityUid := ⟨op, hop, hlog.identity op hop hkind⟩
  unfold Device.applyIdentity
  change _ ∧ ∀ affected, _ → ∀ k, op.hash = some k → _
  cases hhash : op.hash with
  | none =>
    have hhash' : (op.fields.lookup "content_hash").bind Value.asStr = none := hhash
    rw [hhash']
    exact ⟨h.mono (by omega), fun _ _ _ hk => by cases hk⟩
  | some k =>
    have hhash' : (op.fields.lookup "content_hash").bind Value.asStr = some k := hhash
    have htie : Ties log NoTies d k op.entityUid := Or.inl ⟨op, hop, hkind, hhash, rfl⟩
    obtain ⟨hlinked, -⟩ := h.linked _ hpublished
    have hcroot := h.canonical_root (by omega) op.entityUid
    rw [hhash']
    dsimp only
    replace hquiet : ∀ y, d.mirror.aliases.lookup k = some y → d.mirror.merges.lookup y = none →
        y ≠ d.mirror.canonicalBookUid op.entityUid →
        Loud log d.mirror (max y (d.mirror.canonicalBookUid op.entityUid)) →
          ¬d.Waiting (max y (d.mirror.canonicalBookUid op.entityUid)) := by
      intro y hy hyroot
      rw [hhash, Option.all_some, hy, Option.bind_some, resolveIdentity_eq h.noTrash,
        resolveIdentity_eq h.noTrash, Mirror.canonical_of_root hyroot, Option.all_some,
        Option.all_some] at hquiet
      exact of_decide_eq_true hquiet
    rw [resolveIdentity_eq h.noTrash, h.rooted.existingAlias (by omega)]
    dsimp only
    cases halias : d.mirror.aliases.lookup k with
    | none =>
      refine ⟨(h.setAlias hcroot ?_ ⟨_, htie, hlinked⟩).mono (by omega), ?_⟩
      · intro y hy
        rw [halias] at hy
        cases hy
      · rintro affected - _ ⟨⟩
        exact AList.lookup_insert _
    | some y =>
      have hyroot := h.aliasRoot k y halias
      have hycanonical := Mirror.canonical_of_root hyroot
      rw [Option.bind_some, resolveIdentity_eq h.noTrash, hycanonical, unifyAlias_some]
      split_ifs with hyc
      · refine ⟨(h.setAlias hyroot ?_ ⟨_, htie, hyc ▸ hlinked⟩).mono (by omega), ?_⟩
        · intro y' hy'
          rw [halias] at hy'
          exact (Option.some.inj hy').symm
        · rintro affected - _ ⟨⟩
          rw [hyc]
          exact AList.lookup_insert _
      · obtain ⟨z, hz, hzy⟩ := h.tied k y halias
        have hyc' := (hzy.symm.trans (Linked.of_share hz htie)).trans hlinked
        have hmerged := h.merge_linked jsonReal hlog (by omega) hyroot hcroot hyc'
          (hquiet y halias hyroot hyc)
        have hy := h.canonical_merge_minmax jsonReal (by omega) hyroot hcroot
        have hc := (h.merge_congr jsonReal (by omega) (x := op.entityUid)
          (Mirror.canonical_of_root hcroot).symm _ _).trans hy.2
        have halias' := h.alias_merge jsonReal (by omega) (halias.trans (congrArg some
          hycanonical.symm)) (max y (d.mirror.canonicalBookUid op.entityUid))
          (min y (d.mirror.canonicalBookUid op.entityUid))
        rw [hy.1] at halias'
        generalize d.mergeBookIdentity jsonReal (max y (d.mirror.canonicalBookUid op.entityUid))
          (min y (d.mirror.canonicalBookUid op.entityUid)) = r at *
        obtain ⟨d', _ | _⟩ := r
        · exact ⟨hmerged.mono (by omega), fun _ hok => by cases hok⟩
        · have hroot := hmerged.aliasRoot k _ halias'
          obtain ⟨z', hz', hzy'⟩ := hmerged.tied k _ halias'
          refine ⟨(hmerged.setAlias hroot ?_ ⟨z', hz', hzy'⟩).mono (by omega), ?_⟩
          · intro y' hy'
            exact Option.some.inj (hy'.symm.trans halias')
          · rintro affected - _ ⟨⟩
            change (d'.mirror.aliases.insert k _).lookup k = some (d'.mirror.canonicalBookUid _)
            rw [hc]
            exact AList.lookup_insert _

end Consistent

end Device

end TuxBooks
