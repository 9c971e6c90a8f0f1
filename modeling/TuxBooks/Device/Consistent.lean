import TuxBooks.Catalog.Recompute
import TuxBooks.Device.Fold
import TuxBooks.Lib.Tagging
import TuxBooks.Sync.Unify

set_option relaxedAutoImplicit false
set_option autoImplicit false

/-!
# Published identities on one device

How the identity tables of a device relate to the operations that were published. A content hash
ties together the uids that identity operations link to it and the uid that waits in a dirty
marker to be published for it. A device is consistent when it merges uids only along such ties,
as far as published uids are concerned, and has merged along all the operations it applied.

## Main definitions

* `TuxBooks.Device.Published`, `TuxBooks.Device.Ties` — published uids and the hashes of uids.
* `TuxBooks.Device.Loud`, `TuxBooks.Device.Waiting` — a published uid, or a uid that waits to be
  published, resolves to the given one.
* `TuxBooks.Device.Consistent` — the invariant.

## Main results

* `TuxBooks.Device.Consistent.fold` — folding a uid that no published uid resolves to, or one that
  is tied to its winner and waits nowhere, keeps a device consistent.
-/

namespace TuxBooks

open Fallible Tagging

namespace Device

/-! ## Published uids -/

/-- Some published operation is about the book. -/
def Published (log : List Op) (uid : String) : Prop := ∃ op ∈ log, op.bookUid = some uid

/-- The alias that the identity marker of a hash holds. -/
def pending (d : Device) (h : String) : Option (String × String) :=
  (d.catalog.dirty.lookup (.bookIdentity h)).bind aliasOf

/-- A published uid resolves to `l`. -/
def Loud (log : List Op) (m : Mirror) (l : String) : Prop :=
  ∃ op ∈ log, op.bookUid.map m.canonicalBookUid = some l

instance (log : List Op) (m : Mirror) (l : String) : Decidable (Loud log m l) :=
  inferInstanceAs (Decidable (∃ op ∈ log, _ = _))

/-- A uid that waits in an identity marker resolves to `l`. -/
def Waiting (d : Device) (l : String) : Prop :=
  ∃ e ∈ d.catalog.dirty.entries, ¬DirtyKey.IsState e.1 ∧
    (aliasOf e.2).map (fun p => d.mirror.canonicalBookUid p.2) = some l

instance (d : Device) (l : String) : Decidable (d.Waiting l) :=
  inferInstanceAs (Decidable (∃ e ∈ d.catalog.dirty.entries, _ ∧ _))

/-- The uids of a hash: those that published operations link to it, the one that waits to be
published for it, and those of `E`. -/
def Ties (log : List Op) (E : String → String → Prop) (d : Device) (h x : String) : Prop :=
  Links log h x ∨ (∃ p, d.pending h = some (h, p) ∧ d.mirror.canonicalBookUid p = x) ∨ E h x

/-- What holds of the published operations: their ids are distinct, none forgets a book, and an
identity operation is about its own uid. -/
structure WellFormed (log : List Op) : Prop where
  opId : ∀ op ∈ log, ∀ op' ∈ log, op.opId = op'.opId → op = op'
  kind : ∀ op ∈ log, op.kind ≠ .book
  identity : ∀ op ∈ log, op.kind = .bookIdentity → op.bookUid = some op.entityUid

/-- The identity tables of a device fit the published operations. Chains of merges have at most
`n` hops; `E` holds ties that a step is about to publish. -/
structure Consistent (n : ℕ) (log : List Op) (E : String → String → Prop) (d : Device) : Prop where
  rooted : d.mirror.RootedWithin n
  noTrash : ∀ uid, d.mirror.bookTrash.lookup uid = none
  aliasRoot : ∀ h x, d.mirror.aliases.lookup h = some x → d.mirror.merges.lookup x = none
  bindingRoot : ∀ i b, d.mirror.bindings.lookup i = some b →
    d.mirror.merges.lookup b.bookUid = none
  fileRoot : ∀ i x, d.catalog.fileUid i = some x → d.mirror.merges.lookup x = none
  applied : ∀ op ∈ log, op.kind = .bookIdentity → op.opId ∈ d.mirror.appliedOps → ∀ h,
    op.hash = some h → d.mirror.aliases.lookup h = some (d.mirror.canonicalBookUid op.entityUid)
  marked : ∀ h h' p, d.pending h = some (h', p) →
    h' = h ∧ d.mirror.aliases.lookup h = some (d.mirror.canonicalBookUid p)
  tied : ∀ h y, d.mirror.aliases.lookup h = some y →
    ∃ z, Ties log E d h z ∧ Linked (Ties log E d) z y
  bound : ∀ i b, d.mirror.bindings.lookup i = some b →
    d.mirror.aliases.lookup b.contentHash = some b.bookUid
  linked : ∀ x, Published log x → Linked (Ties log E d) x (d.mirror.canonicalBookUid x) ∧
    d.mirror.canonicalBookUid x ≤ x

variable {log : List Op} {E : String → String → Prop} {n : ℕ} {d d' : Device} {l w : String}

lemma Published.loud {uid : String} (h : Published log uid) (m : Mirror) :
    Loud log m (m.canonicalBookUid uid) := by
  obtain ⟨op, hop, huid⟩ := h
  exact ⟨op, hop, by rw [huid]; rfl⟩

lemma waiting_iff : d.Waiting l ↔
    ∃ h h' p, d.pending h = some (h', p) ∧ d.mirror.canonicalBookUid p = l := by
  constructor
  · rintro ⟨⟨key, marker⟩, hmem, hkey, hp⟩
    obtain ⟨⟨h', p⟩, halias, hl⟩ := Option.map_eq_some_iff.mp hp
    cases key with
    | bookIdentity h =>
      refine ⟨h, h', p, ?_, hl⟩
      unfold pending
      rw [Table.lookup_eq_some_iff.mpr hmem]
      exact halias
    | _ => exact absurd trivial hkey
  · rintro ⟨h, h', p, hp, hl⟩
    obtain ⟨marker, hmarker, halias⟩ := Option.bind_eq_some_iff.mp hp
    refine ⟨⟨.bookIdentity h, marker⟩, Table.lookup_eq_some_iff.mp hmarker, id, ?_⟩
    rw [halias]
    exact congrArg some hl

lemma published_of_links (hlog : WellFormed log) {h x : String} (hx : Links log h x) :
    Published log x := by
  obtain ⟨op, hop, hkind, -, rfl⟩ := hx
  exact ⟨op, hop, hlog.identity op hop hkind⟩

namespace Folds

lemma pending (hfold : Folds l w d d') (h : String) : d'.pending h = d.pending h := by
  unfold Device.pending
  rw [hfold.identity]

/-- A root stays a root or becomes the winner. -/
lemma root (hfold : Folds l w d d') {x : String} (hx : d.mirror.merges.lookup x = none) :
    d'.mirror.merges.lookup (foldUid l w x) = none := by
  rw [hfold.merges, Table.lookup_insert']
  by_cases hxl : x = l
  · rw [hxl, foldUid_self, if_neg hfold.ne.symm]
    exact hfold.winner
  · rw [foldUid_of_ne hxl, if_neg hxl]
    exact hx

/-- What resolves to a uid other than the winner did so before. -/
lemma loud (hfold : Folds l w d d') (hrooted : d.mirror.RootedWithin n) (hn : n < 32) {x : String}
    (hx : x ≠ w) (h : Loud log d'.mirror x) : Loud log d.mirror x := by
  obtain ⟨op, hop, hbook⟩ := h
  obtain ⟨uid, huid, hcanonical⟩ := Option.map_eq_some_iff.mp hbook
  refine ⟨op, hop, ?_⟩
  rw [huid, Option.map_some]
  rw [hfold.canonical hrooted hn] at hcanonical
  unfold foldUid at hcanonical
  split_ifs at hcanonical
  · exact absurd hcanonical.symm hx
  · rw [hcanonical]

lemma waiting (hfold : Folds l w d d') (hrooted : d.mirror.RootedWithin n) (hn : n < 32)
    {x : String} (hx : x ≠ w) (h : d'.Waiting x) : d.Waiting x := by
  obtain ⟨k, k', p, hp, hcanonical⟩ := waiting_iff.mp h
  rw [hfold.pending] at hp
  rw [hfold.canonical hrooted hn] at hcanonical
  unfold foldUid at hcanonical
  split_ifs at hcanonical
  · exact absurd hcanonical.symm hx
  · exact waiting_iff.mpr ⟨k, k', p, hp, hcanonical⟩

end Folds

/-! ## Folding -/

/-- A fold that no published uid takes part in carries the ties along. -/
lemma ties_fold_of_silent (hlog : WellFormed log) (hrooted : d.mirror.RootedWithin n) (hn : n < 32)
    (hfold : Folds l w d d') (hsilent : ¬Loud log d.mirror l) (hE : ∀ h x, E h x → x ≠ l)
    (h x : String) (hx : Ties log E d h x) : Ties log E d' h (foldUid l w x) := by
  rcases hx with hx | ⟨p, hp, rfl⟩ | hx
  · have hne : x ≠ l := by
      rintro rfl
      have hloud := (published_of_links hlog hx).loud d.mirror
      rw [Mirror.canonical_of_root hfold.loser] at hloud
      exact hsilent hloud
    rw [foldUid_of_ne hne]
    exact Or.inl hx
  · refine Or.inr (Or.inl ⟨p, ?_, hfold.canonical hrooted hn p⟩)
    rw [hfold.pending]
    exact hp
  · rw [foldUid_of_ne (hE h x hx)]
    exact Or.inr (Or.inr hx)

/-- A fold of a uid that waits nowhere keeps the ties. -/
lemma ties_fold_of_quiet (hrooted : d.mirror.RootedWithin n) (hn : n < 32) (hfold : Folds l w d d')
    (hquiet : ¬d.Waiting l) (h x : String) (hx : Ties log E d h x) : Ties log E d' h x := by
  rcases hx with hx | ⟨p, hp, rfl⟩ | hx
  · exact Or.inl hx
  · refine Or.inr (Or.inl ⟨p, ?_, ?_⟩)
    · rw [hfold.pending]
      exact hp
    · have hne : d.mirror.canonicalBookUid p ≠ l := by
        intro hp'
        exact hquiet (waiting_iff.mpr ⟨h, h, p, hp, hp'⟩)
      rw [hfold.canonical hrooted hn, foldUid_of_ne hne]
  · exact Or.inr (Or.inr hx)

/-- The fold does not lose a tie that other devices see: no published uid resolves to the loser,
or the loser waits nowhere and is tied to the smaller winner. -/
def Harmless (log : List Op) (E : String → String → Prop) (d : Device) (l w : String) : Prop :=
  (¬Loud log d.mirror l ∧ ∀ h x, E h x → x ≠ l) ∨
    (¬d.Waiting l ∧ Linked (Ties log E d) l w ∧ w ≤ l)

namespace Consistent

lemma mono (h : Consistent n log E d) {k : ℕ} (hk : n ≤ k) : Consistent k log E d :=
  { h with rooted := h.rooted.mono hk }

/-- What a harmless fold does to links. -/
lemma linked_fold (h : Consistent n log E d) (hlog : WellFormed log) (hn : n < 32)
    (hfold : Folds l w d d') (hharmless : Harmless log E d l w) {x y : String}
    (hxy : Linked (Ties log E d) x y) (hx : x = foldUid l w x ∨ ¬(¬Loud log d.mirror l ∧
      ∀ h x, E h x → x ≠ l)) : Linked (Ties log E d') x (foldUid l w y) := by
  by_cases hsilent : ¬Loud log d.mirror l ∧ ∀ h x, E h x → x ≠ l
  · have hmap := hxy.map (f := foldUid l w)
      (ties_fold_of_silent hlog h.rooted hn hfold hsilent.1 hsilent.2)
    rcases hx with hx | hx
    · rwa [← hx] at hmap
    · exact absurd hsilent hx
  · obtain ⟨hquiet, hlw, -⟩ := hharmless.resolve_left hsilent
    have hmono : ∀ k x, Ties log E d k x → Ties log E d' k x :=
      ties_fold_of_quiet h.rooted hn hfold hquiet
    by_cases hy : y = l
    · rw [hy, foldUid_self]
      exact (hxy.mono hmono).trans (hy ▸ hlw.mono hmono)
    · rw [foldUid_of_ne hy]
      exact hxy.mono hmono

/-- **A harmless fold keeps a device consistent.** -/
theorem fold (h : Consistent n log E d) (hlog : WellFormed log) (hn : n < 32)
    (hfold : Folds l w d d') (hharmless : Harmless log E d l w) :
    Consistent (n + 1) log E d' where
  rooted := hfold.rootedWithin h.rooted
  noTrash uid := by
    rw [hfold.bookTrash]
    exact h.noTrash uid
  aliasRoot k x hx := by
    rw [hfold.lookup_aliases] at hx
    obtain ⟨x₀, hx₀, rfl⟩ := Option.map_eq_some_iff.mp hx
    exact hfold.root (h.aliasRoot k x₀ hx₀)
  bindingRoot i b hb := by
    rw [hfold.lookup_bindings] at hb
    obtain ⟨b₀, hb₀, rfl⟩ := Option.map_eq_some_iff.mp hb
    exact hfold.root (h.bindingRoot i b₀ hb₀)
  fileRoot i x hx := by
    rw [hfold.fileUid] at hx
    obtain ⟨x₀, hx₀, rfl⟩ := Option.map_eq_some_iff.mp hx
    exact hfold.root (h.fileRoot i x₀ hx₀)
  applied op hop hkind happlied k hk := by
    rw [hfold.appliedOps] at happlied
    rw [hfold.lookup_aliases, h.applied op hop hkind happlied k hk, hfold.canonical h.rooted hn]
    rfl
  marked k k' p hp := by
    rw [hfold.pending] at hp
    obtain ⟨hk, halias⟩ := h.marked k k' p hp
    rw [hfold.lookup_aliases, halias, hfold.canonical h.rooted hn]
    exact ⟨hk, rfl⟩
  tied k y hy := by
    rw [hfold.lookup_aliases] at hy
    obtain ⟨y₀, hy₀, rfl⟩ := Option.map_eq_some_iff.mp hy
    obtain ⟨z, hz, hzy⟩ := h.tied k y₀ hy₀
    by_cases hsilent : ¬Loud log d.mirror l ∧ ∀ h x, E h x → x ≠ l
    · have hmap := ties_fold_of_silent hlog h.rooted hn hfold hsilent.1 hsilent.2
      exact ⟨foldUid l w z, hmap k z hz, hzy.map hmap⟩
    · obtain ⟨hquiet, -, -⟩ := hharmless.resolve_left hsilent
      exact ⟨z, ties_fold_of_quiet h.rooted hn hfold hquiet k z hz,
        h.linked_fold hlog hn hfold hharmless hzy (Or.inr hsilent)⟩
  bound i b hb := by
    rw [hfold.lookup_bindings] at hb
    obtain ⟨b₀, hb₀, rfl⟩ := Option.map_eq_some_iff.mp hb
    rw [hfold.lookup_aliases, h.bound i b₀ hb₀]
    rfl
  linked x hx := by
    obtain ⟨hlinked, hle⟩ := h.linked x hx
    rw [hfold.canonical h.rooted hn]
    have hloud := hx.loud d.mirror
    by_cases hsilent : ¬Loud log d.mirror l ∧ ∀ h x, E h x → x ≠ l
    · have hne : d.mirror.canonicalBookUid x ≠ l := fun heq => hsilent.1 (heq ▸ hloud)
      have hxl : x ≠ l := by
        rintro rfl
        exact hne (Mirror.canonical_of_root hfold.loser)
      refine ⟨h.linked_fold hlog hn hfold hharmless hlinked (Or.inl (foldUid_of_ne hxl).symm), ?_⟩
      rw [foldUid_of_ne hne]
      exact hle
    · refine ⟨h.linked_fold hlog hn hfold hharmless hlinked (Or.inr hsilent), ?_⟩
      obtain ⟨-, -, hwl⟩ := hharmless.resolve_left hsilent
      by_cases heq : d.mirror.canonicalBookUid x = l
      · rw [heq] at hle
        rw [heq, foldUid_self]
        exact hwl.trans hle
      · rw [foldUid_of_ne heq]
        exact hle

end Consistent

end Device

end TuxBooks
