import TuxBooks.Sync.RowSpec

set_option relaxedAutoImplicit false
set_option autoImplicit false

/-!
# Identity operations over two book uids

Two devices can import the same bytes under two book uids before they meet; an identity
operation that links the second uid to the same content hash then unifies them. This file
follows the merge table and the aliases through a run of identity operations over two uids,
mixed with upserts on the self-keyed entities of the book.

## Main definitions

* `TuxBooks.Unified` — the identity operations of a run link the two uids to one hash.
* `TuxBooks.AliasRun` — runs of identity operations and upserts over two book uids.
* `TuxBooks.IdentityInv` — the identity tables after such a run.

## Main results

* `TuxBooks.IdentityInv.step_identity` — an identity operation keeps the rows or merges them.
* `TuxBooks.IdentityInv.step_state` — an upsert writes the row it is addressed to.
* `TuxBooks.AliasRun.identityInv` — the identity tables of a whole run.
-/

namespace TuxBooks

/-! ## Runs over two uids -/

/-- The content hash an identity operation carries. -/
def Op.hash (op : Op) : Option String := (op.fields.lookup "content_hash").bind Value.asStr

/-- Some identity operation of the run links `hash` to `uid`. -/
def Links (p : List Op) (hash uid : String) : Prop :=
  ∃ op ∈ p, op.kind = .bookIdentity ∧ op.hash = some hash ∧ op.entityUid = uid

/-- The identity operations of the run link both uids to one hash. -/
def Unified (p : List Op) (a b : String) : Prop := ∃ hash, Links p hash a ∧ Links p hash b

/-- Each operation is an identity operation or an upsert on a self-keyed entity, addressed to
one of two book uids, of which `a` is the smaller. -/
structure AliasRun (a b : String) (l : List Op) : Prop where
  lt : a < b
  accepted : ∀ op ∈ l, validateOp op = .ok ()
  uid_mem : ∀ op ∈ l, op.entityUid = a ∨ op.entityUid = b
  kind_mem : ∀ op ∈ l, op.kind = .bookIdentity ∨ op.kind.IsSelfKeyed ∧ op.deleted = false
  nodup : (l.map Op.opId).Nodup
  hlc_injOn : Set.InjOn Op.hlc {op | op ∈ l ∧ op.kind ≠ .bookIdentity}

/-- The identity tables after a run over two uids. -/
structure IdentityInv (a b : String) (p : List Op) (m : Mirror) : Prop where
  merged : Unified p a b → ∀ uid, m.merges.lookup uid = if uid = b then some a else none
  unmerged : ¬Unified p a b → ∀ uid, m.merges.lookup uid = none
  aliased : Unified p a b → ∀ hash uid, m.aliases.lookup hash = some uid → uid = a
  unaliased : ¬Unified p a b → ∀ hash uid, m.aliases.lookup hash = some uid ↔ Links p hash uid
  noTrash : ∀ uid, m.bookTrash.lookup uid = none
  log : ∀ id ∈ m.appliedOps, ∃ op ∈ p, op.opId = id

section Identity

variable {a b : String} {p l : List Op} {m : Mirror} {op : Op}

lemma links_concat {hash uid : String} :
    Links (p ++ [op]) hash uid ↔ Links p hash uid ∨
      op.kind = .bookIdentity ∧ op.hash = some hash ∧ op.entityUid = uid := by
  unfold Links
  constructor
  · rintro ⟨o, ho, h⟩
    rcases List.mem_append.mp ho with ho | ho
    · exact Or.inl ⟨o, ho, h⟩
    · exact Or.inr (List.mem_singleton.mp ho ▸ h)
  · rintro (⟨o, ho, h⟩ | h)
    · exact ⟨o, List.mem_append_left _ ho, h⟩
    · exact ⟨op, by simp, h⟩

lemma Unified.concat (h : Unified p a b) (op : Op) : Unified (p ++ [op]) a b := by
  obtain ⟨hash, ha, hb⟩ := h
  exact ⟨hash, links_concat.mpr (Or.inl ha), links_concat.mpr (Or.inl hb)⟩

/-- An operation that is no identity operation with a hash links nothing. -/
lemma links_concat_of_not (h : ¬(op.kind = .bookIdentity ∧ op.hash.isSome)) (hash uid : String) :
    Links (p ++ [op]) hash uid ↔ Links p hash uid := by
  rw [links_concat]
  refine or_iff_left ?_
  rintro ⟨hk, hh, -⟩
  exact h ⟨hk, by rw [hh]; rfl⟩

lemma unified_concat_of_not (h : ¬(op.kind = .bookIdentity ∧ op.hash.isSome)) :
    Unified (p ++ [op]) a b ↔ Unified p a b := by
  unfold Unified
  simp only [links_concat_of_not h]

lemma AliasRun.ne (h : AliasRun a b l) : a ≠ b := h.lt.ne

lemma AliasRun.of_append {s : List Op} (h : AliasRun a b (p ++ s)) : AliasRun a b p where
  lt := h.lt
  accepted := fun op hop => h.accepted op (List.mem_append_left _ hop)
  uid_mem := fun op hop => h.uid_mem op (List.mem_append_left _ hop)
  kind_mem := fun op hop => h.kind_mem op (List.mem_append_left _ hop)
  nodup := by
    have hnodup := h.nodup
    rw [List.map_append] at hnodup
    exact (List.nodup_append.mp hnodup).1
  hlc_injOn := by
    refine h.hlc_injOn.mono ?_
    rintro op ⟨hop, hkind⟩
    exact ⟨List.mem_append_left _ hop, hkind⟩

lemma AliasRun.fresh (h : AliasRun a b (p ++ [op])) (hm : IdentityInv a b p m) :
    op.opId ∉ m.appliedOps := by
  intro hin
  obtain ⟨o, ho, hid⟩ := hm.log _ hin
  have hnodup := h.nodup
  rw [List.map_append] at hnodup
  exact (List.nodup_append.mp hnodup).2.2 _ (List.mem_map_of_mem ho) op.opId (by simp) hid

/-! ### Lookups -/

lemma IdentityInv.forgottenReplacement (h : IdentityInv a b p m) (uid : String) :
    m.forgottenReplacement uid = none := by
  unfold Mirror.forgottenReplacement
  rw [h.noTrash]

lemma IdentityInv.drops (h : IdentityInv a b p m) (op : Op) : m.drops op = false := by
  unfold Mirror.drops
  cases op.bookUid with
  | none => rfl
  | some uid => simp [h.forgottenReplacement]

lemma IdentityInv.canonical_of_not (h : IdentityInv a b p m) (hu : ¬Unified p a b)
    (uid : String) : m.canonicalBookUid uid = uid :=
  MergeForest.find_of_root (h.unmerged hu uid) 32

lemma IdentityInv.canonical_of_unified (h : IdentityInv a b p m) (hne : a ≠ b)
    (hu : Unified p a b) {uid : String} (huid : uid = a ∨ uid = b) :
    m.canonicalBookUid uid = a := by
  have hroot : m.merges.lookup a = none := by rw [h.merged hu, if_neg hne]
  rcases huid with rfl | rfl
  · exact MergeForest.find_of_root hroot 32
  · exact MergeForest.find_of_edge (by rw [h.merged hu, if_pos rfl]) hroot 31

/-! ### One operation -/

variable (fromStr : String → Option Value)

/-- An identity operation without a hash fails and leaves the tables. -/
lemma applyOp_of_hash_none (hnew : op.opId ∉ m.appliedOps) (hk : op.kind = .bookIdentity)
    (hh : op.hash = none) : (m.applyOp fromStr op).1 = m.observeHlc op.hlc := by
  rw [Mirror.applyOp, if_neg hnew]
  dsimp only
  rw [if_pos hk, Mirror.applyIdentity]
  change (op.fields.lookup "content_hash").bind Value.asStr = none at hh
  rw [hh]

/-- An identity operation on a mirror without forgotten books unifies the uid the hash has with
its own, and points the hash at the result. -/
lemma applyOp_of_hash {hash : String} (hnew : op.opId ∉ m.appliedOps)
    (hk : op.kind = .bookIdentity) (hh : op.hash = some hash)
    (hlive : ∀ uid, m.forgottenReplacement uid = none) :
    let u := (m.observeHlc op.hlc).unifyAlias
      ((m.aliases.lookup hash).map m.canonicalBookUid) (m.canonicalBookUid op.entityUid)
    (m.applyOp fromStr op).1 =
      Mirror.markApplied { u.1 with aliases := u.1.aliases.insert hash u.2 } op := by
  intro u
  have hlive' : ∀ uid, (m.observeHlc op.hlc).forgottenReplacement uid = none := hlive
  have hexisting : (m.observeHlc op.hlc).existingAlias hash =
      (m.aliases.lookup hash).map m.canonicalBookUid := by
    have halias : (m.observeHlc op.hlc).aliases = m.aliases := rfl
    rw [Mirror.existingAlias, halias]
    cases m.aliases.lookup hash with
    | none => rfl
    | some existing =>
      dsimp only
      rw [hlive']
      rfl
  change (op.fields.lookup "content_hash").bind Value.asStr = some hash at hh
  rw [Mirror.applyOp, if_neg hnew]
  dsimp only
  rw [if_pos hk, Mirror.applyIdentity, hh]
  dsimp only
  rw [hlive']
  dsimp only
  rw [hexisting]
  rfl

/-- Merging two live roots re-keys the rows. -/
lemma mergeBookIdentity_of_roots {loser winner : String} (hne : loser ≠ winner)
    (hl : m.canonicalBookUid loser = loser) (hw : m.canonicalBookUid winner = winner)
    (hlive : ∀ uid, m.forgottenReplacement uid = none) :
    m.mergeBookIdentity loser winner = m.mergeBookRows loser winner := by
  unfold Mirror.mergeBookIdentity
  dsimp only
  rw [hl, hw, if_neg hne, hlive, hlive, if_neg (by simp)]

/-- The identity tables after an operation that leaves merges, aliases and book trash. -/
lemma IdentityInv.concat_of_not {m' : Mirror} (h : IdentityInv a b p m)
    (hop : ¬(op.kind = .bookIdentity ∧ op.hash.isSome)) (hmerges : m'.merges = m.merges)
    (haliases : m'.aliases = m.aliases) (htrash : m'.bookTrash = m.bookTrash)
    (hlog : ∀ id ∈ m'.appliedOps, id = op.opId ∨ id ∈ m.appliedOps) :
    IdentityInv a b (p ++ [op]) m' where
  merged := by
    rw [unified_concat_of_not hop, hmerges]
    exact h.merged
  unmerged := by
    rw [unified_concat_of_not hop, hmerges]
    exact h.unmerged
  aliased := by
    rw [unified_concat_of_not hop, haliases]
    exact h.aliased
  unaliased := by
    rw [unified_concat_of_not hop, haliases]
    simp only [links_concat_of_not hop]
    exact h.unaliased
  noTrash := htrash ▸ h.noTrash
  log := fun id hid => by
    rcases hlog id hid with rfl | hid
    · exact ⟨op, by simp, rfl⟩
    · obtain ⟨o, ho, hoid⟩ := h.log id hid
      exact ⟨o, List.mem_append_left _ ho, hoid⟩

/-- The identity tables after an identity operation that merges nothing. -/
lemma IdentityInv.concat_of_alias {m' : Mirror} {hash uid : String} (h : IdentityInv a b p m)
    (hk : op.kind = .bookIdentity) (hh : op.hash = some hash)
    (huid : ¬Unified p a b → uid = op.entityUid) (huid' : Unified p a b → uid = a)
    (hsame : Unified (p ++ [op]) a b ↔ Unified p a b)
    (hmatch : ∀ uid', m.aliases.lookup hash = some uid' → uid' = uid)
    (hmerges : m'.merges = m.merges) (haliases : m'.aliases = m.aliases.insert hash uid)
    (htrash : m'.bookTrash = m.bookTrash)
    (hlog : ∀ id ∈ m'.appliedOps, id = op.opId ∨ id ∈ m.appliedOps) :
    IdentityInv a b (p ++ [op]) m' where
  merged := by
    rw [hsame, hmerges]
    exact h.merged
  unmerged := by
    rw [hsame, hmerges]
    exact h.unmerged
  aliased := by
    rw [hsame, haliases]
    intro hu hash' uid' hlookup
    rw [Table.lookup_insert'] at hlookup
    split_ifs at hlookup with heq
    · exact (Option.some_inj.mp hlookup).symm.trans (huid' hu)
    · exact h.aliased hu hash' uid' hlookup
  unaliased := by
    rw [hsame, haliases]
    intro hu hash' uid'
    rw [Table.lookup_insert', links_concat]
    by_cases heq : hash' = hash
    · subst heq
      rw [if_pos rfl, Option.some_inj, hh]
      constructor
      · intro heq
        exact Or.inr ⟨hk, rfl, (huid hu).symm.trans heq⟩
      · rintro (hlinks | ⟨-, -, heq⟩)
        · exact (hmatch uid' ((h.unaliased hu hash' uid').mpr hlinks)).symm
        · exact (huid hu).trans heq
    · rw [if_neg heq, h.unaliased hu]
      refine (or_iff_left ?_).symm
      rintro ⟨-, hhash, -⟩
      rw [hh] at hhash
      exact heq (Option.some_inj.mp hhash).symm
  noTrash := htrash ▸ h.noTrash
  log := fun id hid => by
    rcases hlog id hid with rfl | hid
    · exact ⟨op, by simp, rfl⟩
    · obtain ⟨o, ho, hoid⟩ := h.log id hid
      exact ⟨o, List.mem_append_left _ ho, hoid⟩

lemma AliasRun.links_uid (hl : AliasRun a b p) {hash uid : String} (h : Links p hash uid) :
    uid = a ∨ uid = b := by
  obtain ⟨o, ho, -, -, rfl⟩ := h
  exact hl.uid_mem o ho

/-- A new link to a hash that so far names at most the same uid unifies nothing. -/
lemma unified_concat_of_same {hash : String} (hne : a ≠ b) (hh : op.hash = some hash)
    (hsame : ∀ uid, Links p hash uid → uid = op.entityUid) :
    Unified (p ++ [op]) a b ↔ Unified p a b := by
  refine ⟨?_, fun h => h.concat op⟩
  rintro ⟨hash', ha, hb⟩
  rw [links_concat] at ha hb
  by_cases heq : hash' = hash
  · subst heq
    have hone : ∀ uid, (Links p hash' uid ∨ op.kind = .bookIdentity ∧ op.hash = some hash' ∧
        op.entityUid = uid) → uid = op.entityUid := by
      rintro uid (h | ⟨-, -, h⟩)
      · exact hsame uid h
      · exact h.symm
    exact absurd ((hone a ha).trans (hone b hb).symm) hne
  · have hold : ∀ uid, ¬(op.kind = .bookIdentity ∧ op.hash = some hash' ∧ op.entityUid = uid) := by
      rintro uid ⟨-, h, -⟩
      rw [hh] at h
      exact heq (Option.some_inj.mp h).symm
    exact ⟨hash', ha.resolve_right (hold a), hb.resolve_right (hold b)⟩

/-- The merge of the two uids, when an identity operation first links both to one hash. -/
lemma IdentityInv.concat_of_merge {hash : String} (h : IdentityInv a b p m)
    (hl : AliasRun a b p) (hu : ¬Unified p a b) (hunified : Unified (p ++ [op]) a b)
    {m' : Mirror} (hm' : m' = Mirror.markApplied
      { (m.observeHlc op.hlc).mergeBookRows b a with
        aliases := ((m.observeHlc op.hlc).mergeBookRows b a).aliases.insert hash a } op) :
    IdentityInv a b (p ++ [op]) m' := by
  obtain ⟨-, hlog, hmerges, -, htrash, haliases, -⟩ :=
    Mirror.mergeBookRows_tables (m.observeHlc op.hlc) b a
  subst hm'
  refine ⟨fun _ uid => ?_, fun hno => absurd hunified hno, fun _ hash' uid hlookup => ?_,
    fun hno => absurd hunified hno, fun uid => ?_, fun id hid => ?_⟩
  · change ((m.observeHlc op.hlc).mergeBookRows b a).merges.lookup uid = _
    rw [hmerges, Table.lookup_insert']
    split_ifs
    · rfl
    · exact h.unmerged hu uid
  · change (((m.observeHlc op.hlc).mergeBookRows b a).aliases.insert hash a).lookup hash' = _
      at hlookup
    rw [Table.lookup_insert', haliases, Table.lookup_mapRows] at hlookup
    split_ifs at hlookup with heq
    · exact (Option.some_inj.mp hlookup).symm
    · obtain ⟨old, hold, rfl⟩ := Option.map_eq_some_iff.mp hlookup
      split_ifs with hb
      · rfl
      · exact (hl.links_uid ((h.unaliased hu hash' old).mp hold)).resolve_right hb
  · change ((m.observeHlc op.hlc).mergeBookRows b a).bookTrash.lookup uid = none
    rw [htrash]
    exact h.noTrash uid
  · rcases (Mirror.mem_markApplied _ op id).mp hid with rfl | hid
    · exact ⟨op, by simp, rfl⟩
    · change id ∈ ((m.observeHlc op.hlc).mergeBookRows b a).appliedOps at hid
      rw [hlog] at hid
      obtain ⟨o, ho, hoid⟩ := h.log id hid
      exact ⟨o, List.mem_append_left _ ho, hoid⟩

/-- **One identity operation**: it keeps the rows, or it is the one that merges the two uids. -/
theorem IdentityInv.step_identity (h : IdentityInv a b p m) (hl : AliasRun a b (p ++ [op]))
    (hk : op.kind = .bookIdentity) :
    let m' := (m.applyOp fromStr op).1
    IdentityInv a b (p ++ [op]) m' ∧
      ((Unified (p ++ [op]) a b ↔ Unified p a b) ∧ m'.entities = m.entities ∨
        ¬Unified p a b ∧ Unified (p ++ [op]) a b ∧
          m'.entities = ((m.observeHlc op.hlc).mergeBookRows b a).entities) := by
  intro m'
  have hnew := hl.fresh h
  have hlp := hl.of_append
  have huid : op.entityUid = a ∨ op.entityUid = b := hl.uid_mem op (by simp)
  have hlive := h.forgottenReplacement
  cases hh : op.hash with
  | none =>
    have hm' : m' = m.observeHlc op.hlc := applyOp_of_hash_none fromStr hnew hk hh
    have hop : ¬(op.kind = .bookIdentity ∧ op.hash.isSome) := by simp [hh]
    rw [hm']
    exact ⟨h.concat_of_not hop rfl rfl rfl fun id hid => Or.inr hid,
      Or.inl ⟨unified_concat_of_not hop, rfl⟩⟩
  | some hash =>
    have hm' := applyOp_of_hash fromStr hnew hk hh hlive
    -- without a merge only the alias changes
    have hkeep : ∀ uid, ((m.observeHlc op.hlc).unifyAlias
        ((m.aliases.lookup hash).map m.canonicalBookUid) (m.canonicalBookUid op.entityUid)) =
          (m.observeHlc op.hlc, uid) →
        (¬Unified p a b → uid = op.entityUid) → (Unified p a b → uid = a) →
        (Unified (p ++ [op]) a b ↔ Unified p a b) →
        (∀ uid', m.aliases.lookup hash = some uid' → uid' = uid) →
        IdentityInv a b (p ++ [op]) m' ∧
          ((Unified (p ++ [op]) a b ↔ Unified p a b) ∧ m'.entities = m.entities ∨
            ¬Unified p a b ∧ Unified (p ++ [op]) a b ∧
              m'.entities = ((m.observeHlc op.hlc).mergeBookRows b a).entities) := by
      intro uid hunify hbefore hafter hsame hmatch
      rw [hunify] at hm'
      have hentities : m'.entities = m.entities := by
        change (m.applyOp fromStr op).1.entities = _
        rw [hm']
        rfl
      refine ⟨h.concat_of_alias hk hh hbefore hafter hsame hmatch ?_ ?_ ?_ fun id hid => ?_,
        Or.inl ⟨hsame, hentities⟩⟩
      · change (m.applyOp fromStr op).1.merges = _
        rw [hm']
        rfl
      · change (m.applyOp fromStr op).1.aliases = _
        rw [hm']
        rfl
      · change (m.applyOp fromStr op).1.bookTrash = _
        rw [hm']
        rfl
      · change id ∈ (m.applyOp fromStr op).1.appliedOps at hid
        rw [hm'] at hid
        exact (Mirror.mem_markApplied _ op id).mp hid
    by_cases hu : Unified p a b
    · have hincoming := h.canonical_of_unified hl.ne hu huid
      have ha : m.canonicalBookUid a = a := h.canonical_of_unified hl.ne hu (Or.inl rfl)
      refine hkeep a ?_ (absurd hu) (fun _ => rfl)
        ⟨fun _ => hu, fun _ => hu.concat op⟩ (h.aliased hu hash)
      rw [hincoming]
      cases hlookup : m.aliases.lookup hash with
      | none => rfl
      | some existing =>
        rw [h.aliased hu hash existing hlookup]
        simp [Mirror.unifyAlias, ha]
    · rw [h.canonical_of_not hu] at hkeep hm'
      have hlinks : ∀ uid, m.aliases.lookup hash = some uid ↔ Links p hash uid :=
        h.unaliased hu hash
      cases hlookup : m.aliases.lookup hash with
      | none =>
        refine hkeep op.entityUid ?_ (fun _ => rfl) (fun h => absurd h hu)
          (unified_concat_of_same hl.ne hh fun uid hlink => ?_) fun uid' h => ?_
        · rw [hlookup]
          rfl
        · have := (hlinks uid).mpr hlink
          simp [hlookup] at this
        · simp [hlookup] at h
      | some existing =>
        have hexisting := (hlinks existing).mp hlookup
        by_cases heq : existing = op.entityUid
        · refine hkeep op.entityUid ?_ (fun _ => rfl) (fun h => absurd h hu)
            (unified_concat_of_same hl.ne hh fun uid hlink => ?_) fun uid' h => ?_
          · rw [hlookup, Option.map_some, h.canonical_of_not hu, heq]
            simp [Mirror.unifyAlias]
          · have hlink' := (hlinks uid).mpr hlink
            rw [hlookup, Option.some_inj] at hlink'
            exact hlink'.symm.trans heq
          · rw [hlookup, Option.some_inj] at h
            exact h.symm.trans heq
        · have hunified : Unified (p ++ [op]) a b := by
            have hold : Links (p ++ [op]) hash existing := links_concat.mpr (Or.inl hexisting)
            have hnow : Links (p ++ [op]) hash op.entityUid :=
              links_concat.mpr (Or.inr ⟨hk, hh, rfl⟩)
            rcases hlp.links_uid hexisting with rfl | rfl
            · exact ⟨hash, hold, huid.resolve_left (Ne.symm heq) ▸ hnow⟩
            · exact ⟨hash, huid.resolve_right (Ne.symm heq) ▸ hnow, hold⟩
          have hroots : ∀ uid, (m.observeHlc op.hlc).canonicalBookUid uid = uid :=
            h.canonical_of_not hu
          have hmerge : (m.observeHlc op.hlc).mergeBookIdentity b a =
              (m.observeHlc op.hlc).mergeBookRows b a :=
            mergeBookIdentity_of_roots hl.ne.symm (hroots b) (hroots a) hlive
          have hunify : (m.observeHlc op.hlc).unifyAlias
              ((m.aliases.lookup hash).map m.canonicalBookUid) op.entityUid =
                ((m.observeHlc op.hlc).mergeBookRows b a, a) := by
            rw [hlookup, Option.map_some, h.canonical_of_not hu, ← hmerge]
            rcases hlp.links_uid hexisting with rfl | rfl
            · rw [huid.resolve_left (Ne.symm heq)]
              simp [Mirror.unifyAlias, min_eq_left hl.lt.le, hl.ne]
            · rw [huid.resolve_right (Ne.symm heq)]
              simp [Mirror.unifyAlias, min_eq_right hl.lt.le, hl.ne.symm]
          rw [hunify] at hm'
          refine ⟨h.concat_of_merge hlp hu hunified hm', Or.inr ⟨hu, hunified, ?_⟩⟩
          change (m.applyOp fromStr op).1.entities = _
          rw [hm']
          rfl

lemma EntityKind.IsSelfKeyed.isState {kind : EntityKind} (h : kind.IsSelfKeyed) :
    kind.IsState := by
  rcases h with rfl | rfl | rfl <;> decide

/-- **One upsert on a self-keyed entity** writes the row of the uid it is addressed to, whatever
that uid was merged into. -/
theorem IdentityInv.step_state (h : IdentityInv a b p m) (hl : AliasRun a b (p ++ [op]))
    (hself : op.kind.IsSelfKeyed) :
    let m' := (m.applyOp fromStr op).1
    IdentityInv a b (p ++ [op]) m' ∧ ∀ k, m'.entities.lookup k =
      if k = (op.kind, op.entityUid) then
        some (((m.entities.lookup (op.kind, op.entityUid)).getD {}).step op
          (op.bookUid.map m.canonicalBookUid))
      else m.entities.lookup k := by
  intro m'
  have hkey : (m.observeHlc op.hlc).stateKey op = .ok op.entityUid := by
    unfold Mirror.stateKey
    rcases hself with hk | hk | hk <;> rw [hk]
  have hwrote := Mirror.wrote_applyStateOp _ hkey
  have hm' : m' = ((m.observeHlc op.hlc).applyStateOp op).1.markApplied op :=
    Mirror.applyOp_of_state fromStr (hl.fresh h) hself.isState (h.drops op) hkey
  have hop : ¬(op.kind = .bookIdentity ∧ op.hash.isSome) := fun hk => hself.isState.1 hk.1
  rw [hm']
  refine ⟨h.concat_of_not hop hwrote.merges hwrote.aliases hwrote.bookTrash fun id hid => ?_,
    hwrote.lookup⟩
  rw [Mirror.mem_markApplied, hwrote.appliedOps] at hid
  exact hid

lemma identityInv_empty : IdentityInv a b [] {} := by
  have hno : ¬Unified [] a b := by
    rintro ⟨hash, ⟨o, ho, -⟩, -⟩
    simp at ho
  refine ⟨fun h => absurd h hno, fun _ _ => rfl, fun h => absurd h hno, fun _ hash uid => ?_,
    fun _ => rfl, fun id hid => ?_⟩
  · constructor
    · intro hlookup
      cases hlookup
    · rintro ⟨o, ho, -⟩
      simp at ho
  · simp at hid

lemma applyAll_concat (m : Mirror) (l : List Op) (op : Op) :
    m.applyAll fromStr (l ++ [op]) = ((m.applyAll fromStr l).applyOp fromStr op).1 := by
  unfold Mirror.applyAll
  rw [List.foldl_append]
  rfl

/-- The identity tables of a whole run. -/
lemma AliasRun.identityInv (hl : AliasRun a b l) :
    IdentityInv a b l (({} : Mirror).applyAll fromStr l) := by
  induction l using List.reverseRecOn with
  | nil => exact identityInv_empty
  | append_singleton l op ih =>
    have h := ih hl.of_append
    rw [applyAll_concat]
    rcases hl.kind_mem op (by simp) with hk | ⟨hself, -⟩
    · exact (h.step_identity fromStr hl hk).1
    · exact (h.step_state fromStr hl hself).1

end Identity

end TuxBooks
