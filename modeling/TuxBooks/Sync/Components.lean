import TuxBooks.Lib.Tagging
import TuxBooks.Sync.Unify

set_option relaxedAutoImplicit false
set_option autoImplicit false

/-!
# Identity operations form components

`apply_identity` of `sidecar/src/sync/merge.rs` is an online union-find: an operation ties a book
uid to a content hash, the alias table holds one uid for each hash, and the merge table holds the
parent of each uid that lost. Merges go to the smaller uid, so a chain of merges descends inside
one component, and the bound of 32 hops is never reached in a component of at most 32 uids.

## Main definitions

* `TuxBooks.Names`, `TuxBooks.component` — the uids of a hash, and the uids linked to a uid.
* `TuxBooks.Mirror.applyIdentities` — a run of `apply_identity`.
* `TuxBooks.Resolved` — how the tables resolve after a run.

## Main results

* `TuxBooks.Resolved.applyIdentity` — one operation keeps the tables resolved.
* `TuxBooks.Resolved.applyIdentities` — so does a run.
* `TuxBooks.identities_resolve` — every hash and uid resolves to the least uid of its component.
-/

namespace TuxBooks

open Delivery Tagging

/-! ## Components -/

/-- Some operation of the set ties the uid to the hash. -/
def Names (S : Set Op) (hash uid : String) : Prop :=
  ∃ op ∈ S, op.hash = some hash ∧ op.entityUid = uid

/-- The uids that a chain of shared hashes links to the uid. -/
def component (S : Set Op) (uid : String) : Set String := {v | Linked (Names S) uid v}

lemma Names.mono {S T : Set Op} (hST : S ⊆ T) {hash uid : String} (h : Names S hash uid) :
    Names T hash uid := by
  obtain ⟨op, hop, hhash, huid⟩ := h
  exact ⟨op, hST hop, hhash, huid⟩

lemma component_mono {S T : Set Op} (hST : S ⊆ T) (uid : String) :
    component S uid ⊆ component T uid := fun _ h => h.mono fun _ _ => Names.mono hST

/-- One more operation adds the tie it names. -/
lemma names_insert {S : Set Op} {op : Op} {hash uid : String} :
    Names (insert op S) hash uid ↔ Names S hash uid ∨ op.hash = some hash ∧ op.entityUid = uid := by
  constructor
  · rintro ⟨o, rfl | ho, hhash, huid⟩
    · exact Or.inr ⟨hhash, huid⟩
    · exact Or.inl ⟨o, ho, hhash, huid⟩
  · rintro (h | ⟨hhash, huid⟩)
    · exact h.mono (Set.subset_insert op S)
    · exact ⟨op, Set.mem_insert op S, hhash, huid⟩

namespace Mirror

/-- Apply identity operations in the order they are received. -/
def applyIdentities (m : Mirror) (ops : List Op) : Mirror :=
  ops.foldl (fun m op => (m.applyIdentity op).1) m

end Mirror

/-! ## The tables after a run -/

/-- The tables resolve the ties `S`: merges go down inside a component, aliases are roots of the
component of their hash, and every tie is applied. -/
structure Resolved (S : Set Op) (m : Mirror) : Prop where
  noTrash : ∀ uid, m.bookTrash.lookup uid = none
  down : ∀ a b, m.merges.lookup a = some b → Linked (Names S) a b ∧ b < a
  aliasRoot : ∀ hash uid, m.aliases.lookup hash = some uid → m.merges.lookup uid = none
  aliasNamed : ∀ hash uid, m.aliases.lookup hash = some uid →
    ∃ v, Names S hash v ∧ Linked (Names S) v uid
  applied : ∀ hash uid, Names S hash uid →
    m.aliases.lookup hash = some (m.canonicalBookUid uid)

namespace Resolved

variable {S : Set Op} {m : Mirror} {op : Op}

lemma forgottenReplacement (h : Resolved S m) (uid : String) :
    m.forgottenReplacement uid = none := by
  unfold Mirror.forgottenReplacement
  rw [h.noTrash]

/-- In components of at most 32 uids no chain has more than 31 hops. -/
lemma rooted (h : Resolved S m) (hsize : ∀ uid, (component S uid).encard ≤ 32) :
    MergeForest.RootedWithin (fun u => m.merges.lookup u) 31 := fun a => by
  have hcard : (component S a).encard ≤ (31 : ℕ) + 1 :=
    (hsize a).trans (show (32 : ℕ∞) = (31 : ℕ) + 1 from rfl).le
  have hdown : ∀ x ∈ component S a, ∀ y, (fun u => m.merges.lookup u) x = some y →
      y ∈ component S a ∧ y < x := by
    intro x hx y hy
    obtain ⟨hlinked, hlt⟩ := h.down x y hy
    exact ⟨Linked.trans hx hlinked, hlt⟩
  exact MergeForest.root_of_down hcard hdown (Linked.refl a)

/-- A uid resolves inside its component. -/
lemma linked_canonical (h : Resolved S m) (uid : String) :
    Linked (Names S) uid (m.canonicalBookUid uid) :=
  MergeForest.find_rel Linked.refl (fun _ _ _ => Linked.trans) (fun a b hab => (h.down a b hab).1)
    32 uid

/-- A uid resolves to one that is not greater. -/
lemma canonical_le (h : Resolved S m) (uid : String) : m.canonicalBookUid uid ≤ uid :=
  MergeForest.find_rel (R := fun a b => b ≤ a) le_refl (fun _ _ _ hab hbc => hbc.trans hab)
    (fun a b hab => (h.down a b hab).2.le) 32 uid

/-- Linked uids resolve alike. -/
lemma canonical_eq (h : Resolved S m) {a b : String} (hab : Linked (Names S) a b) :
    m.canonicalBookUid a = m.canonicalBookUid b :=
  hab.const fun hash a b ha hb =>
    Option.some.inj ((h.applied hash a ha).symm.trans (h.applied hash b hb))

/-- **A uid resolves to the least uid of its component.** -/
theorem isLeast (h : Resolved S m) (uid : String) :
    IsLeast (component S uid) (m.canonicalBookUid uid) := by
  refine ⟨h.linked_canonical uid, ?_⟩
  intro v hv
  rw [h.canonical_eq hv]
  exact h.canonical_le v

/-- The empty tables resolve no ties. -/
lemma empty (haliases : m.aliases = ∅) (hmerges : m.merges = ∅)
    (htrash : ∀ uid, m.bookTrash.lookup uid = none) : Resolved ∅ m := by
  refine ⟨htrash, ?_, ?_, ?_, ?_⟩
  · intro a b hab
    rw [hmerges, AList.lookup_empty] at hab
    cases hab
  · intro hash uid hlookup
    rw [haliases, AList.lookup_empty] at hlookup
    cases hlookup
  · intro hash uid hlookup
    rw [haliases, AList.lookup_empty] at hlookup
    cases hlookup
  · rintro hash uid ⟨op, hop, -⟩
    exact hop.elim

/-- An operation without a hash names nothing. -/
lemma insert_of_hash_none (h : Resolved S m) (hh : op.hash = none) : Resolved (insert op S) m := by
  have hnames : Names (insert op S) = Names S := by
    funext hash uid
    refine propext (names_insert.trans (or_iff_left ?_))
    rintro ⟨hhash, -⟩
    rw [hh] at hhash
    cases hhash
  refine ⟨h.noTrash, ?_, h.aliasRoot, ?_, ?_⟩
  · rw [hnames]
    exact h.down
  · rw [hnames]
    exact h.aliasNamed
  · rw [hnames]
    exact h.applied

/-- An operation that finds no other uid for its hash points the hash at its own. -/
lemma insert_of_alias (h : Resolved S m) {hash : String} (hh : op.hash = some hash)
    (hroot : m.merges.lookup (m.canonicalBookUid op.entityUid) = none)
    (hsame : ∀ uid, m.aliases.lookup hash = some uid → uid = m.canonicalBookUid op.entityUid) :
    Resolved (insert op S)
      { m with aliases := m.aliases.insert hash (m.canonicalBookUid op.entityUid) } := by
  have hmono : ∀ {a b : String}, Linked (Names S) a b → Linked (Names (insert op S)) a b :=
    fun hab => hab.mono fun _ _ => Names.mono (Set.subset_insert op S)
  have hown : Names (insert op S) hash op.entityUid := names_insert.mpr (Or.inr ⟨hh, rfl⟩)
  refine ⟨h.noTrash, fun a b hab => ⟨hmono (h.down a b hab).1, (h.down a b hab).2⟩, ?_, ?_, ?_⟩
  · intro hash' uid hlookup
    rw [Table.lookup_insert'] at hlookup
    split_ifs at hlookup with heq
    · obtain rfl := Option.some.inj hlookup
      exact hroot
    · exact h.aliasRoot hash' uid hlookup
  · intro hash' uid hlookup
    rw [Table.lookup_insert'] at hlookup
    split_ifs at hlookup with heq
    · obtain rfl := Option.some.inj hlookup
      subst heq
      exact ⟨op.entityUid, hown, hmono (h.linked_canonical op.entityUid)⟩
    · obtain ⟨v, hv, hlinked⟩ := h.aliasNamed hash' uid hlookup
      exact ⟨v, hv.mono (Set.subset_insert op S), hmono hlinked⟩
  · intro hash' uid hnames
    show (m.aliases.insert hash (m.canonicalBookUid op.entityUid)).lookup hash' =
      some (m.canonicalBookUid uid)
    rw [Table.lookup_insert']
    rcases names_insert.mp hnames with hold | ⟨hhash, rfl⟩
    · have happlied := h.applied hash' uid hold
      split_ifs with heq
      · subst heq
        rw [hsame _ happlied]
      · exact happlied
    · rw [hh] at hhash
      rw [if_pos (Option.some.inj hhash).symm]

/-- The tables after the greater one of two linked roots is merged into the smaller one. -/
lemma insert_of_merge (h : Resolved S m) (hsize : ∀ uid, (component S uid).encard ≤ 32)
    {hash big small : String} (hh : op.hash = some hash) (hlt : small < big)
    (hbig : m.merges.lookup big = none) (hsmall : m.merges.lookup small = none)
    {existing : String} (halias : m.aliases.lookup hash = some existing)
    (hpair : existing = big ∧ m.canonicalBookUid op.entityUid = small ∨
      existing = small ∧ m.canonicalBookUid op.entityUid = big) :
    Resolved (insert op S) { m.mergeBookRows big small with
      aliases := (m.mergeBookRows big small).aliases.insert hash small } := by
  obtain ⟨-, -, hmerges, -, htrash, haliases, -⟩ := Mirror.mergeBookRows_tables m big small
  have hmono : ∀ {a b : String}, Linked (Names S) a b → Linked (Names (insert op S)) a b :=
    fun hab => hab.mono fun _ _ => Names.mono (Set.subset_insert op S)
  have hown : Names (insert op S) hash op.entityUid := names_insert.mpr (Or.inr ⟨hh, rfl⟩)
  -- The operation links the two roots.
  have hlink : Linked (Names (insert op S)) existing (m.canonicalBookUid op.entityUid) := by
    obtain ⟨v, hv, hlinked⟩ := h.aliasNamed hash existing halias
    refine (hmono hlinked).symm.trans (Linked.trans ?_ (hmono (h.linked_canonical op.entityUid)))
    exact Linked.of_share (hv.mono (Set.subset_insert op S)) hown
  have hroots : Linked (Names (insert op S)) big small := by
    rcases hpair with ⟨hb, hs⟩ | ⟨hs, hb⟩
    · rwa [hb, hs] at hlink
    · rw [hb, hs] at hlink
      exact hlink.symm
  have hnext : (fun u => (m.mergeBookRows big small).merges.lookup u) =
      MergeForest.link (fun u => m.merges.lookup u) big small := by
    funext u
    rw [hmerges, Table.lookup_insert']
    rfl
  have hcanonical : ∀ uid, (m.mergeBookRows big small).canonicalBookUid uid =
      if m.canonicalBookUid uid = big then small else m.canonicalBookUid uid := by
    intro uid
    have hforest := h.rooted hsize
    have h31 : m.canonicalBookUid uid = MergeForest.find (fun u => m.merges.lookup u) 31 uid :=
      hforest.find_eq (by omega) uid
    rw [h31]
    unfold Mirror.canonicalBookUid
    rw [hnext]
    exact MergeForest.find_link hbig hsmall hlt.ne' (hforest uid)
  have hpoint : ∀ uid, (if uid = big then small else uid) = small ∨
      (if uid = big then small else uid) = uid := by
    intro uid
    split
    · exact Or.inl rfl
    · exact Or.inr rfl
  have hroot : ∀ uid, m.merges.lookup uid = none →
      (m.mergeBookRows big small).merges.lookup (if uid = big then small else uid) = none := by
    intro uid huid
    rw [hmerges, Table.lookup_insert']
    by_cases heq : uid = big
    · rw [if_pos heq, if_neg hlt.ne, hsmall]
    · rw [if_neg heq, if_neg heq, huid]
  refine ⟨?_, ?_, ?_, ?_, ?_⟩
  · intro uid
    show (m.mergeBookRows big small).bookTrash.lookup uid = none
    rw [htrash]
    exact h.noTrash uid
  · intro a b hab
    change (m.mergeBookRows big small).merges.lookup a = some b at hab
    rw [hmerges, Table.lookup_insert'] at hab
    split_ifs at hab with heq
    · obtain rfl := Option.some.inj hab
      rw [heq]
      exact ⟨hroots, hlt⟩
    · exact ⟨hmono (h.down a b hab).1, (h.down a b hab).2⟩
  · intro hash' uid hlookup
    change ((m.mergeBookRows big small).aliases.insert hash small).lookup hash' = some uid
      at hlookup
    show (m.mergeBookRows big small).merges.lookup uid = none
    rw [Table.lookup_insert', haliases, Table.lookup_mapRows] at hlookup
    split_ifs at hlookup with heq
    · obtain rfl := Option.some.inj hlookup
      rw [hmerges, Table.lookup_insert', if_neg hlt.ne, hsmall]
    · obtain ⟨old, hold, rfl⟩ := Option.map_eq_some_iff.mp hlookup
      exact hroot old (h.aliasRoot hash' old hold)
  · intro hash' uid hlookup
    change ((m.mergeBookRows big small).aliases.insert hash small).lookup hash' = some uid
      at hlookup
    rw [Table.lookup_insert', haliases, Table.lookup_mapRows] at hlookup
    split_ifs at hlookup with heq
    · obtain rfl := Option.some.inj hlookup
      subst heq
      obtain ⟨v, hv, hlinked⟩ := h.aliasNamed hash' existing halias
      refine ⟨v, hv.mono (Set.subset_insert op S), (hmono hlinked).trans ?_⟩
      rcases hpair with ⟨rfl, -⟩ | ⟨rfl, -⟩
      · exact hroots
      · exact Linked.refl _
    · obtain ⟨old, hold, rfl⟩ := Option.map_eq_some_iff.mp hlookup
      obtain ⟨v, hv, hlinked⟩ := h.aliasNamed hash' old hold
      refine ⟨v, hv.mono (Set.subset_insert op S), (hmono hlinked).trans ?_⟩
      split
      · next heq => rw [heq]; exact hroots
      · exact Linked.refl _
  · intro hash' uid hnames
    show ((m.mergeBookRows big small).aliases.insert hash small).lookup hash' =
      some ((m.mergeBookRows big small).canonicalBookUid uid)
    rw [hcanonical, Table.lookup_insert', haliases, Table.lookup_mapRows]
    rcases names_insert.mp hnames with hold | ⟨hhash, rfl⟩
    · have happlied := h.applied hash' uid hold
      by_cases heq : hash' = hash
      · subst heq
        rw [halias] at happlied
        rw [if_pos rfl, ← Option.some.inj happlied]
        rcases hpair with ⟨hb, -⟩ | ⟨hs, -⟩
        · rw [if_pos hb]
        · rw [hs, if_neg hlt.ne]
      · rw [if_neg heq, happlied, Option.map_some]
    · rw [hh] at hhash
      rw [if_pos (Option.some.inj hhash).symm]
      rcases hpair with ⟨-, hs⟩ | ⟨-, hb⟩
      · rw [hs, if_neg hlt.ne]
      · rw [hb, if_pos rfl]

/-- Unifying the uids of a hash when one of them loses merges it into the other one. -/
lemma unifyAlias_of_ne (h : Resolved S m) {existing incoming : String} (hne : existing ≠ incoming)
    (he : m.merges.lookup existing = none) (hi : m.merges.lookup incoming = none) :
    m.unifyAlias (some existing) incoming =
      (m.mergeBookRows (max existing incoming) (min existing incoming), min existing incoming) := by
  have hroot : ∀ {uid : String}, m.merges.lookup uid = none → m.canonicalBookUid uid = uid :=
    fun hu => MergeForest.find_of_root hu 32
  unfold Mirror.unifyAlias
  dsimp only
  rcases lt_or_gt_of_ne hne with hlt | hlt
  · rw [min_eq_left hlt.le, max_eq_right hlt.le, if_neg (not_not.mpr rfl), if_pos hne,
      mergeBookIdentity_of_roots hne.symm (hroot hi) (hroot he) h.forgottenReplacement]
  · rw [min_eq_right hlt.le, max_eq_left hlt.le, if_pos hne, if_neg (not_not.mpr rfl),
      mergeBookIdentity_of_roots hne (hroot he) (hroot hi) h.forgottenReplacement]

/-- **One operation** keeps the tables resolved. -/
theorem applyIdentity (h : Resolved S m) (hsize : ∀ uid, (component S uid).encard ≤ 32)
    (op : Op) : Resolved (insert op S) (m.applyIdentity op).1 := by
  cases hh : op.hash with
  | none =>
    have happly : (m.applyIdentity op).1 = m := by
      unfold Mirror.applyIdentity
      change (op.fields.lookup "content_hash").bind Value.asStr = none at hh
      rw [hh]
    rw [happly]
    exact h.insert_of_hash_none hh
  | some hash =>
    have hrooted := (h.rooted hsize).mono (show 31 ≤ 32 by omega)
    have hincoming : m.merges.lookup (m.canonicalBookUid op.entityUid) = none :=
      hrooted op.entityUid
    have hexisting : m.existingAlias hash = m.aliases.lookup hash := by
      unfold Mirror.existingAlias
      cases halias : m.aliases.lookup hash with
      | none => rfl
      | some existing =>
        dsimp only
        rw [h.forgottenReplacement]
        exact congrArg some (MergeForest.find_of_root (h.aliasRoot hash existing halias) 32)
    have happly : (m.applyIdentity op).1 =
        let u := m.unifyAlias (m.aliases.lookup hash) (m.canonicalBookUid op.entityUid)
        { u.1 with aliases := u.1.aliases.insert hash u.2 } := by
      unfold Mirror.applyIdentity
      change (op.fields.lookup "content_hash").bind Value.asStr = some hash at hh
      rw [hh]
      dsimp only
      rw [h.forgottenReplacement]
      dsimp only
      rw [hexisting]
    rw [happly]
    cases halias : m.aliases.lookup hash with
    | none => exact h.insert_of_alias hh hincoming (by rw [halias]; simp)
    | some existing =>
      have hroot := h.aliasRoot hash existing halias
      by_cases heq : existing = m.canonicalBookUid op.entityUid
      · subst heq
        have hunify : m.unifyAlias (some (m.canonicalBookUid op.entityUid))
            (m.canonicalBookUid op.entityUid) = (m, m.canonicalBookUid op.entityUid) := by
          simp [Mirror.unifyAlias]
        rw [hunify]
        refine h.insert_of_alias hh hincoming fun uid huid => ?_
        rw [halias] at huid
        exact (Option.some.inj huid).symm
      · rw [h.unifyAlias_of_ne heq hroot hincoming]
        rcases lt_or_gt_of_ne heq with hlt | hlt
        · rw [max_eq_right hlt.le, min_eq_left hlt.le]
          exact h.insert_of_merge hsize hh hlt hincoming hroot halias (Or.inr ⟨rfl, rfl⟩)
        · rw [max_eq_left hlt.le, min_eq_right hlt.le]
          exact h.insert_of_merge hsize hh hlt hroot hincoming halias (Or.inl ⟨rfl, rfl⟩)

/-- **A run** keeps the tables resolved. -/
theorem applyIdentities {l : List Op} (h : Resolved S m)
    (hsize : ∀ uid, (component (S ∪ {op | op ∈ l}) uid).encard ≤ 32) :
    Resolved (S ∪ {op | op ∈ l}) (m.applyIdentities l) := by
  induction l generalizing S m with
  | nil =>
    have hset : S ∪ {o | o ∈ ([] : List Op)} = S := by simp
    rw [hset]
    exact h
  | cons op l ih =>
    have hset : insert op S ∪ {o | o ∈ l} = S ∪ {o | o ∈ op :: l} := by
      ext o
      simp only [Set.mem_union, Set.mem_insert_iff, Set.mem_ofPred_eq, List.mem_cons]
      tauto
    have hstep := h.applyIdentity (fun uid =>
      (Set.encard_le_encard (component_mono Set.subset_union_left uid)).trans (hsize uid)) op
    rw [← hset] at hsize ⊢
    exact ih hstep hsize

end Resolved

/-- A component has no uids but its own and those of the operations. -/
lemma encard_component_le (l : List Op) (uid : String) :
    (component {op | op ∈ l} uid).encard ≤ l.length + 1 := by
  have hsub : component {op | op ∈ l} uid ⊆ {v | v ∈ uid :: l.map Op.entityUid} := by
    intro v hv
    rcases Linked.eq_or_tag hv with rfl | ⟨-, hash, op, hop, -, rfl⟩
    · exact List.mem_cons_self
    · exact List.mem_cons_of_mem uid (List.mem_map_of_mem hop)
  refine (Set.encard_le_encard hsub).trans ?_
  have hlen : (uid :: l.map Op.entityUid).length = l.length + 1 := by
    rw [List.length_cons, List.length_map]
  have hcard : ∀ k : List String, {v | v ∈ k}.encard ≤ k.length := by
    intro k
    induction k with
    | nil => simp
    | cons a k ih =>
      have hset : {v | v ∈ a :: k} = insert a {v | v ∈ k} := by
        ext v
        simp
      rw [hset, List.length_cons, Nat.cast_add, Nat.cast_one]
      exact (Set.encard_insert_le _ a).trans (add_le_add_left ih 1)
  exact_mod_cast (hcard _).trans (by rw [hlen])

/-- **Identity operations are order-independent.** After any run that delivers `S`, starting from
empty alias and merge tables and without tombstones, every uid resolves to the least uid of its
component and every hash of the component points at it. So runs that deliver the same operations
resolve alike, and what resolves alike is of one component. -/
theorem identities_resolve {S : Set Op} (hsize : ∀ uid, (component S uid).encard ≤ 32) {m : Mirror}
    (haliases : m.aliases = ∅) (hmerges : m.merges = ∅)
    (htrash : ∀ uid, m.bookTrash.lookup uid = none) {l : List Op} (hl : Delivers S l) :
    let m' := m.applyIdentities l
    (∀ uid, IsLeast (component S uid) (m'.canonicalBookUid uid)) ∧
      (∀ hash uid, Names S hash uid →
        m'.aliases.lookup hash = some (m'.canonicalBookUid uid)) ∧
      (∀ hash, (∀ uid, ¬Names S hash uid) → m'.aliases.lookup hash = none) ∧
      (∀ uid uid', m'.canonicalBookUid uid = m'.canonicalBookUid uid' →
        component S uid = component S uid') := by
  intro m'
  have hset : ∅ ∪ {op | op ∈ l} = S := by
    ext op
    rw [Set.empty_union]
    exact hl op
  have hrun := (Resolved.empty haliases hmerges htrash).applyIdentities (l := l)
    (by rw [hset]; exact hsize)
  rw [hset] at hrun
  have hclass : ∀ {a b : String}, Linked (Names S) a b → component S a ⊆ component S b :=
    fun hab _ hv => Linked.trans hab.symm hv
  refine ⟨hrun.isLeast, hrun.applied, ?_, ?_⟩
  · intro hash hno
    cases hlookup : m'.aliases.lookup hash with
    | none => rfl
    | some uid =>
      obtain ⟨v, hv, -⟩ := hrun.aliasNamed hash uid hlookup
      exact absurd hv (hno v)
  · intro uid uid' heq
    have hlinked : Linked (Names S) uid uid' := by
      have huid := hrun.linked_canonical uid
      rw [show (m.applyIdentities l).canonicalBookUid uid =
        (m.applyIdentities l).canonicalBookUid uid' from heq] at huid
      exact huid.trans (hrun.linked_canonical uid').symm
    exact Set.Subset.antisymm (hclass hlinked) (hclass hlinked.symm)

/-- An operation that ties a book uid to a content hash. -/
def tieOp (opId uid : String) (hash : Char) : Op :=
  { sampleOp .bookIdentity 1000 opId false false
      ((∅ : Fields).insert "content_hash" (.str (String.ofList (List.replicate 64 hash)))) with
    entityUid := uid
    bookUid := some uid }

/-- Two hashes that share a uid, and a third one. -/
def tieOps : List Op :=
  [tieOp "00000000000000000000000000000001" "m" 'a',
    tieOp "00000000000000000000000000000002" "b" 'a',
    tieOp "00000000000000000000000000000003" "m" 'c',
    tieOp "00000000000000000000000000000004" "z" 'c']

/-- Four uids of which the least is met second. -/
theorem identities_resolve_sample :
    (∀ op ∈ tieOps, validateOp op = .ok ()) ∧
      let m' := ({} : Mirror).applyIdentities tieOps
      (∀ uid, IsLeast (component {op | op ∈ tieOps} uid) (m'.canonicalBookUid uid)) ∧
        (∀ hash uid, Names {op | op ∈ tieOps} hash uid →
          m'.aliases.lookup hash = some (m'.canonicalBookUid uid)) ∧
        (∀ hash, (∀ uid, ¬Names {op | op ∈ tieOps} hash uid) → m'.aliases.lookup hash = none) ∧
        (∀ uid uid', m'.canonicalBookUid uid = m'.canonicalBookUid uid' →
          component {op | op ∈ tieOps} uid = component {op | op ∈ tieOps} uid') := by
  refine ⟨by decide, ?_⟩
  refine identities_resolve (fun uid => ?_) rfl rfl (fun _ => rfl) fun _ => Iff.rfl
  refine (encard_component_le tieOps uid).trans ?_
  show (4 : ℕ∞) + 1 ≤ 32
  exact_mod_cast (by decide : 4 + 1 ≤ 32)

end TuxBooks
