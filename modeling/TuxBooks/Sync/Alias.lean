import TuxBooks.Sync.Unify

set_option relaxedAutoImplicit false
set_option autoImplicit false

/-!
# Alias transparency

This file compares a run in which the operations on the self-keyed entities of a book
(progress, metadata, last-opened) are addressed to either of two unified uids with the run in
which all of them are addressed to the surviving one.

The runs agree exactly when no operation addressed to the losing uid is received after the two
uids are unified: the state path canonicalizes the book uid of an operation, but not the entity
uid of a self-keyed entity.

## Main definitions

* `TuxBooks.RowInv` — the rows after a run over two uids.
* `TuxBooks.NoLateLoser` — no late operation is addressed to the losing uid.
* `TuxBooks.Transparent` — the rows are those of the run with one address.

## Main results

* `TuxBooks.AliasRun.rowInv` — the rows of a whole run.
* `TuxBooks.alias_transparent_iff` — the exact condition for transparency.
-/

namespace TuxBooks

/-! ## The rows of a run over two uids -/

/-- The upserts of a run on one kind. -/
def upserts (p : List Op) (kind : EntityKind) : List Op := p.filter fun op => op.kind = kind

/-- The upserts of a run on one kind that are addressed to `uid`. -/
def upsertsAt (p : List Op) (kind : EntityKind) (uid : String) : List Op :=
  p.filter fun op => op.kind = kind ∧ op.entityUid = uid

/-- The self-keyed rows after a run: before the uids are unified each row holds the upserts
addressed to it, afterwards the row of `a` holds all of them and `b` has none. -/
structure RowInv (a b : String) (p : List Op) (m : Mirror) : Prop where
  noMembership : ∀ uid, m.entities.lookup (.membership, uid) = none
  before : ¬Unified p a b → ∀ kind : EntityKind, kind.IsSelfKeyed → ∀ uid, uid = a ∨ uid = b →
    RowSpec kind (upsertsAt p kind uid) (m.entities.lookup (kind, uid))
  after : Unified p a b → ∀ kind : EntityKind, kind.IsSelfKeyed →
    RowSpec kind (upserts p kind) (m.entities.lookup (kind, a)) ∧
      m.entities.lookup (kind, b) = none

/-- No upsert addressed to `b` is received once the operations before it unify the uids. -/
def NoLateLoser (a b : String) (l : List Op) : Prop :=
  ∀ p op s, l = p ++ op :: s → op.kind ≠ .bookIdentity → op.entityUid = b → ¬Unified p a b

section Rows

variable {a b : String} {p l : List Op} {m : Mirror} {op : Op}

lemma upserts_concat_of_ne {kind : EntityKind} (h : op.kind ≠ kind) :
    upserts (p ++ [op]) kind = upserts p kind := by
  simp [upserts, h]

lemma upserts_concat_of_eq : upserts (p ++ [op]) op.kind = upserts p op.kind ++ [op] := by
  simp [upserts]

lemma upsertsAt_concat_of_ne {kind : EntityKind} {uid : String}
    (h : ¬(op.kind = kind ∧ op.entityUid = uid)) :
    upsertsAt (p ++ [op]) kind uid = upsertsAt p kind uid := by
  simp [upsertsAt, h]

lemma upsertsAt_concat_of_eq :
    upsertsAt (p ++ [op]) op.kind op.entityUid = upsertsAt p op.kind op.entityUid ++ [op] := by
  simp [upsertsAt]

/-- The upserts on a kind are those addressed to either uid. -/
lemma AliasRun.mem_upserts (hl : AliasRun a b p) (kind : EntityKind) (o : Op) :
    o ∈ upsertsAt p kind a ++ upsertsAt p kind b ↔ o ∈ upserts p kind := by
  have huid := hl.uid_mem o
  simp only [upsertsAt, upserts, List.mem_append, List.mem_filter, decide_eq_true_eq]
  tauto

/-- The rows after an identity operation. -/
lemma RowInv.step_identity (h : RowInv a b p m) (hm : IdentityInv a b p m)
    (hl : AliasRun a b (p ++ [op])) (hk : op.kind = .bookIdentity)
    (fromStr : String → Option Value) : RowInv a b (p ++ [op]) (m.applyOp fromStr op).1 := by
  have hups : ∀ kind : EntityKind, kind.IsSelfKeyed → op.kind ≠ kind := by
    rintro kind hself rfl
    exact hself.isState.1 hk
  have hupsAt : ∀ kind : EntityKind, kind.IsSelfKeyed → ∀ uid,
      ¬(op.kind = kind ∧ op.entityUid = uid) := fun kind hself uid h => hups kind hself h.1
  rcases (hm.step_identity fromStr hl hk).2 with ⟨hsame, hentities⟩ | ⟨hu, hunified, hentities⟩
  · refine ⟨fun uid => hentities ▸ h.noMembership uid, ?_, ?_⟩
    · rw [hsame, hentities]
      intro hu kind hself uid huid
      rw [upsertsAt_concat_of_ne (hupsAt kind hself uid)]
      exact h.before hu kind hself uid huid
    · rw [hsame, hentities]
      intro hu kind hself
      rw [upserts_concat_of_ne (hups kind hself)]
      exact h.after hu kind hself
  · have hlookup := Mirror.lookup_mergeBookRows (m := m.observeHlc op.hlc) hl.ne.symm
      h.noMembership
    refine ⟨fun uid => ?_, fun hno => absurd hunified hno, fun _ kind hself => ?_⟩
    · have hself : ¬EntityKind.membership.IsSelfKeyed := by decide
      rw [hentities, hlookup, if_neg fun h => hself h.1, if_neg fun h => hself h.1]
      change Option.map _ (m.entities.lookup (.membership, uid)) = none
      rw [h.noMembership]
      rfl
    · rw [hentities, hlookup, hlookup, if_neg fun h => hl.ne h.2, if_pos ⟨hself, rfl⟩,
        if_pos ⟨hself, rfl⟩]
      refine ⟨?_, rfl⟩
      rw [upserts_concat_of_ne (hups kind hself)]
      have hmerge := (h.before hu kind hself a (Or.inl rfl)).merge
        (h.before hu kind hself b (Or.inr rfl)) a
      refine (hmerge.congr ?_ (hl.of_append.mem_upserts kind)).map_bookUid _
      refine hl.of_append.hlc_injOn.mono ?_
      intro o ho
      have ho' := (hl.of_append.mem_upserts kind o).mp ho
      simp only [upserts, List.mem_filter, decide_eq_true_eq] at ho'
      exact ⟨ho'.1, ho'.2 ▸ hself.isState.1⟩

/-- The rows after an upsert that is not addressed to the loser of a merge. -/
lemma RowInv.step_state (h : RowInv a b p m) (hm : IdentityInv a b p m)
    (hl : AliasRun a b (p ++ [op])) (hself : op.kind.IsSelfKeyed) (hup : op.deleted = false)
    (hgood : op.entityUid = b → ¬Unified p a b) (fromStr : String → Option Value) :
    RowInv a b (p ++ [op]) (m.applyOp fromStr op).1 := by
  have hop : ¬(op.kind = .bookIdentity ∧ op.hash.isSome) := fun hk => hself.isState.1 hk.1
  have hpos : Hlc.zero < op.hlc := (accepted_of_validateOp (hl.accepted op (by simp))).zero_lt
  obtain ⟨-, hlookup⟩ := hm.step_state fromStr hl hself
  refine ⟨fun uid => ?_, ?_, ?_⟩
  · have hne : (EntityKind.membership, uid) ≠ (op.kind, op.entityUid) := by
      intro heq
      have hk := (Prod.mk.inj heq).1
      rw [← hk] at hself
      exact absurd hself (by decide)
    rw [hlookup, if_neg hne]
    exact h.noMembership uid
  · rw [unified_concat_of_not hop]
    intro hu kind hself' uid huid
    rw [hlookup]
    by_cases heq : op.kind = kind ∧ op.entityUid = uid
    · obtain ⟨rfl, rfl⟩ := heq
      rw [if_pos rfl, upsertsAt_concat_of_eq]
      exact (h.before hu _ hself' _ huid).step rfl hup hpos _
    · rw [if_neg fun h => heq ⟨(Prod.mk.inj h).1.symm, (Prod.mk.inj h).2.symm⟩,
        upsertsAt_concat_of_ne heq]
      exact h.before hu kind hself' uid huid
  · rw [unified_concat_of_not hop]
    intro hu kind hself'
    have huid : op.entityUid = a := (hl.uid_mem op (by simp)).resolve_right fun hb => hgood hb hu
    obtain ⟨hrow, hnone⟩ := h.after hu kind hself'
    rw [hlookup, hlookup, huid]
    have hb : (kind, b) ≠ (op.kind, a) := fun heq => hl.ne (Prod.mk.inj heq).2.symm
    rw [if_neg hb]
    refine ⟨?_, hnone⟩
    by_cases heq : op.kind = kind
    · subst heq
      rw [if_pos rfl, upserts_concat_of_eq]
      exact hrow.step rfl hup hpos _
    · rw [if_neg fun h => heq (Prod.mk.inj h).1.symm, upserts_concat_of_ne heq]
      exact hrow

lemma NoLateLoser.of_append {s : List Op} (h : NoLateLoser a b (p ++ s)) :
    NoLateLoser a b p := by
  intro q o t hp
  refine h q o (t ++ s) ?_
  rw [hp]
  simp

lemma rowInv_empty : RowInv a b [] {} := by
  refine ⟨fun _ => rfl, fun _ kind _ uid _ => .absent, ?_⟩
  rintro ⟨hash, ⟨o, ho, -⟩, -⟩
  simp at ho

/-- **The rows of a whole run** in which no late upsert is addressed to the loser. -/
theorem AliasRun.rowInv (hl : AliasRun a b l) (hgood : NoLateLoser a b l)
    (fromStr : String → Option Value) : RowInv a b l (({} : Mirror).applyAll fromStr l) := by
  induction l using List.reverseRecOn with
  | nil => exact rowInv_empty
  | append_singleton l op ih =>
    have hm := hl.of_append.identityInv fromStr
    have h := ih hl.of_append hgood.of_append
    rw [applyAll_concat]
    rcases hl.kind_mem op (by simp) with hk | ⟨hself, hup⟩
    · exact h.step_identity hm hl hk fromStr
    · exact h.step_state hm hl hself hup (hgood l op [] rfl hself.isState.1) fromStr

end Rows

/-! ## Transparency -/

/-- The same operation with an upsert addressed to `uid`. -/
def Op.readdress (uid : String) (op : Op) : Op :=
  if op.kind = .bookIdentity then op else { op with entityUid := uid, bookUid := some uid }

/-- The self-keyed rows of `a` are those of the reference mirror, in value and clock, and `b` has
none. -/
structure Transparent (a b : String) (m reference : Mirror) : Prop where
  same : ∀ kind : EntityKind, kind.IsSelfKeyed →
    SameContent (m.entities.lookup (kind, a)) (reference.entities.lookup (kind, a))
  gone : ∀ kind : EntityKind, kind.IsSelfKeyed → m.entities.lookup (kind, b) = none

section Transparent

variable {a b : String} {l : List Op} {op : Op}

lemma Op.readdress_of_identity (hk : op.kind = .bookIdentity) (uid : String) :
    op.readdress uid = op := if_pos hk

lemma Op.readdress_of_ne (hk : op.kind ≠ .bookIdentity) (uid : String) :
    op.readdress uid = { op with entityUid := uid, bookUid := some uid } := if_neg hk

@[simp] lemma Op.kind_readdress (uid : String) (op : Op) :
    (op.readdress uid).kind = op.kind := by
  unfold Op.readdress
  split_ifs <;> rfl

@[simp] lemma Op.opId_readdress (uid : String) (op : Op) :
    (op.readdress uid).opId = op.opId := by
  unfold Op.readdress
  split_ifs <;> rfl

@[simp] lemma Op.hlc_readdress (uid : String) (op : Op) : (op.readdress uid).hlc = op.hlc := by
  unfold Op.readdress
  split_ifs <;> rfl

@[simp] lemma Op.fields_readdress (uid : String) (op : Op) :
    (op.readdress uid).fields = op.fields := by
  unfold Op.readdress
  split_ifs <;> rfl

@[simp] lemma Op.deleted_readdress (uid : String) (op : Op) :
    (op.readdress uid).deleted = op.deleted := by
  unfold Op.readdress
  split_ifs <;> rfl

/-- An accepted upsert on a self-keyed entity is accepted at every safe uid. -/
lemma validateOp_readdress {uid : String} (huid : isSafeUid uid = true)
    (hself : op.kind.IsSelfKeyed) (h : validateOp op = .ok ()) :
    validateOp (op.readdress uid) = .ok () := by
  rw [Op.readdress_of_ne hself.isState.1]
  simp only [validateOp, except_bind_eq_ok, reject_eq_ok] at h ⊢
  obtain ⟨h₁, h₂, h₃, h₄, h₅, -, -, h₆, h₇, -, h₈, h₉, -⟩ := h
  refine ⟨h₁, h₂, h₃, h₄, h₅, by simp [huid], by simp [huid], h₆, h₇, ?_, h₈, h₉, ?_⟩
  · rcases hself with hk | hk | hk <;> simp [validateScope, hk]
  · rcases hself with hk | hk | hk <;> simp [validateMembership, hk]

lemma Links.readdress {hash uid : String} (target : String) :
    Links (l.map (·.readdress target)) hash uid ↔ Links l hash uid := by
  constructor
  · rintro ⟨o, ho, hk, hh, huid⟩
    obtain ⟨o', ho', rfl⟩ := List.mem_map.mp ho
    rw [Op.kind_readdress] at hk
    rw [Op.readdress_of_identity hk] at hh huid
    exact ⟨o', ho', hk, hh, huid⟩
  · rintro ⟨o, ho, hk, hh, huid⟩
    refine ⟨o, List.mem_map.mpr ⟨o, ho, Op.readdress_of_identity hk _⟩, hk, hh, huid⟩

/-- The run with every upsert addressed to `a` is a run over the same uids. -/
lemma AliasRun.readdress (hl : AliasRun a b l) (hu : Unified l a b) :
    AliasRun a b (l.map (·.readdress a)) where
  lt := hl.lt
  accepted := by
    obtain ⟨hash, ⟨o, ho, -, -, huid⟩, -⟩ := hu
    have hsafe : isSafeUid a = true :=
      huid ▸ (accepted_of_validateOp (hl.accepted o ho)).entityUid
    intro op hop
    obtain ⟨op', hop', rfl⟩ := List.mem_map.mp hop
    rcases hl.kind_mem op' hop' with hk | ⟨hself, -⟩
    · rw [Op.readdress_of_identity hk]
      exact hl.accepted op' hop'
    · exact validateOp_readdress hsafe hself (hl.accepted op' hop')
  uid_mem := fun op hop => by
    obtain ⟨op', hop', rfl⟩ := List.mem_map.mp hop
    by_cases hk : op'.kind = .bookIdentity
    · rw [Op.readdress_of_identity hk]
      exact hl.uid_mem op' hop'
    · rw [Op.readdress_of_ne hk]
      exact Or.inl rfl
  kind_mem := fun op hop => by
    obtain ⟨op', hop', rfl⟩ := List.mem_map.mp hop
    rw [Op.kind_readdress, Op.deleted_readdress]
    exact hl.kind_mem op' hop'
  nodup := by
    have hids : (l.map (·.readdress a)).map Op.opId = l.map Op.opId := by
      simp [Function.comp_def]
    rw [hids]
    exact hl.nodup
  hlc_injOn := by
    rintro op ⟨hop, hk⟩ op' ⟨hop', hk'⟩ heq
    obtain ⟨x, hx, rfl⟩ := List.mem_map.mp hop
    obtain ⟨x', hx', rfl⟩ := List.mem_map.mp hop'
    rw [Op.kind_readdress] at hk hk'
    rw [Op.hlc_readdress, Op.hlc_readdress] at heq
    rw [hl.hlc_injOn ⟨hx, hk⟩ ⟨hx', hk'⟩ heq]

lemma noLateLoser_readdress (hne : a ≠ b) : NoLateLoser a b (l.map (·.readdress a)) := by
  intro p op s heq hk huid
  have hop : op ∈ l.map (·.readdress a) := by
    rw [heq]
    simp
  obtain ⟨op', -, rfl⟩ := List.mem_map.mp hop
  rw [Op.kind_readdress] at hk
  rw [Op.readdress_of_ne hk] at huid
  exact absurd huid hne

lemma upserts_readdress (kind : EntityKind) :
    upserts (l.map (·.readdress a)) kind = (upserts l kind).map (·.readdress a) := by
  unfold upserts
  rw [List.filter_map]
  simp [Function.comp_def]

variable (fromStr : String → Option Value)

/-- The row that a late upsert leaves under the losing uid is never removed. -/
lemma late_row_stays {p s : List Op} (hl : AliasRun a b (p ++ op :: s))
    (hk : op.kind ≠ .bookIdentity) (huid : op.entityUid = b) (hu : Unified p a b) :
    (({} : Mirror).applyAll fromStr (p ++ op :: s)).entities.lookup (op.kind, b) ≠ none := by
  induction s using List.reverseRecOn with
  | nil =>
    have hself := ((hl.kind_mem op (by simp)).resolve_left hk).1
    have hm := hl.of_append.identityInv fromStr
    rw [applyAll_concat, (hm.step_state fromStr hl hself).2, if_pos (by rw [huid])]
    simp
  | append_singleton s o ih =>
    have hassoc : p ++ op :: (s ++ [o]) = (p ++ op :: s) ++ [o] := by simp
    rw [hassoc] at hl ⊢
    have hlookup := ih hl.of_append
    have hm := hl.of_append.identityInv fromStr
    have hu' : Unified (p ++ op :: s) a b := by
      obtain ⟨hash, ⟨x, hx, hxa⟩, ⟨y, hy, hyb⟩⟩ := hu
      exact ⟨hash, ⟨x, List.mem_append_left _ hx, hxa⟩, ⟨y, List.mem_append_left _ hy, hyb⟩⟩
    rw [applyAll_concat]
    rcases hl.kind_mem o (by simp) with ho | ⟨hself, -⟩
    · rcases (hm.step_identity fromStr hl ho).2 with ⟨-, hentities⟩ | ⟨hno, -⟩
      · rw [hentities]
        exact hlookup
      · exact absurd hu' hno
    · rw [(hm.step_state fromStr hl hself).2]
      split_ifs
      · simp
      · exact hlookup

/-- **Alias transparency.** The rows of the two uids end as if every upsert had been addressed
to the surviving uid exactly when no upsert addressed to the losing one is received after the
identity operations unify them: `apply_state_op` does not redirect such an operation. -/
theorem alias_transparent_iff (hl : AliasRun a b l) (hu : Unified l a b) :
    Transparent a b (({} : Mirror).applyAll fromStr l)
      (({} : Mirror).applyAll fromStr (l.map (·.readdress a))) ↔ NoLateLoser a b l := by
  constructor
  · rintro htrans p op s rfl hk huid hlate
    have hself := ((hl.kind_mem op (by simp)).resolve_left hk).1
    exact late_row_stays fromStr hl hk huid hlate (htrans.gone op.kind hself)
  · intro hgood
    have hrows := hl.rowInv hgood fromStr
    have hrows' := (hl.readdress hu).rowInv (noLateLoser_readdress hl.ne) fromStr
    have hu' : Unified (l.map (·.readdress a)) a b := by
      obtain ⟨hash, ha, hb⟩ := hu
      exact ⟨hash, (Links.readdress a).mpr ha, (Links.readdress a).mpr hb⟩
    refine ⟨fun kind hself => ?_, fun kind hself => (hrows.after hu kind hself).2⟩
    have hspec := (hrows'.after hu' kind hself).1
    rw [upserts_readdress] at hspec
    refine (hrows.after hu kind hself).1.sameContent hspec (fun f => ?_) ?_
    · simp [List.filterMap_map, Op.write]
    · simp [Function.comp_def, Op.content]

/-! ## Sample runs -/

/-- One content hash is linked to the uid `uid`. -/
def sampleLink (opId uid : String) (wall : ℤ) : Op :=
  { sampleOp .bookIdentity wall opId false false ((∅ : Fields).insert "content_hash"
      (.str "00000000000000000000000000000000ffffffffffffffffffffffffffffffff")) with
    entityUid := uid
    bookUid := some uid }

/-- The link of the surviving uid. -/
def sampleLinkA : Op := sampleLink "aaaaaaaaaaaaaaaaaaaaaaaaaaaaaaaa" "a" 1

/-- The link of the losing uid. -/
def sampleLinkB : Op := sampleLink "bbbbbbbbbbbbbbbbbbbbbbbbbbbbbbbb" "b" 2

/-- A reading position saved under the losing uid. -/
def samplePosition : Op :=
  { sampleSave with
    entityUid := "b"
    bookUid := some "b" }

/-- The run of the three operations in the given order is a run over the two uids. -/
lemma aliasRun_sample {l : List Op} (h : l.Perm [samplePosition, sampleLinkA, sampleLinkB]) :
    AliasRun "a" "b" l ∧ Unified l "a" "b" := by
  have hmem : ∀ op ∈ l, op ∈ [samplePosition, sampleLinkA, sampleLinkB] := fun op hop =>
    h.mem_iff.mp hop
  have haccepted : ∀ op ∈ [samplePosition, sampleLinkA, sampleLinkB],
      validateOp op = .ok () := by decide
  have huid : ∀ op ∈ [samplePosition, sampleLinkA, sampleLinkB],
      op.entityUid = "a" ∨ op.entityUid = "b" := by decide
  have hkind : ∀ op ∈ [samplePosition, sampleLinkA, sampleLinkB],
      op.kind = .bookIdentity ∨ op.kind.IsSelfKeyed ∧ op.deleted = false := by decide
  have hids : ([samplePosition, sampleLinkA, sampleLinkB].map Op.opId).Nodup := by decide
  refine ⟨⟨by decide, fun op hop => haccepted op (hmem op hop),
    fun op hop => huid op (hmem op hop), fun op hop => hkind op (hmem op hop),
    ((h.map Op.opId).nodup_iff).mpr hids, ?_⟩, ?_⟩
  · rintro op ⟨hop, hk⟩ op' ⟨hop', hk'⟩ -
    have hposition : ∀ o ∈ l, o.kind ≠ .bookIdentity → o = samplePosition := by
      intro o ho hk
      have ho' := hmem o ho
      simp only [List.mem_cons, List.not_mem_nil, or_false] at ho'
      rcases ho' with rfl | rfl | rfl
      · rfl
      · exact absurd rfl hk
      · exact absurd rfl hk
    rw [hposition op hop hk, hposition op' hop' hk']
  · exact ⟨"00000000000000000000000000000000ffffffffffffffffffffffffffffffff",
      ⟨sampleLinkA, h.mem_iff.mpr (by simp), rfl, by decide, rfl⟩,
      ⟨sampleLinkB, h.mem_iff.mpr (by simp), rfl, by decide, rfl⟩⟩

/-- A position saved before the uids meet moves to the surviving uid. -/
theorem alias_transparent_sample :
    Transparent "a" "b"
      (({} : Mirror).applyAll (fun _ => none) [samplePosition, sampleLinkA, sampleLinkB])
      (({} : Mirror).applyAll (fun _ => none)
        ([samplePosition, sampleLinkA, sampleLinkB].map (·.readdress "a"))) := by
  have hrun := aliasRun_sample (List.Perm.refl _)
  refine (alias_transparent_iff (fun _ => none) hrun.1 hrun.2).mpr ?_
  rintro p op s heq hk huid ⟨hash, -, ⟨o, ho, hok, -⟩⟩
  -- the position is the first operation, so nothing before it links a hash
  match p, heq with
  | [], _ => simp at ho
  | [_], heq =>
    simp only [List.cons_append, List.nil_append, List.cons.injEq] at heq
    exact hk (heq.2.1 ▸ rfl)
  | [_, _], heq =>
    simp only [List.cons_append, List.nil_append, List.cons.injEq] at heq
    exact hk (heq.2.2.1 ▸ rfl)
  | _ :: _ :: _ :: p, heq => simp at heq

/-- A position that arrives under the losing uid after the uids met stays there. -/
theorem alias_not_transparent :
    AliasRun "a" "b" [sampleLinkA, sampleLinkB, samplePosition] ∧
    Unified [sampleLinkA, sampleLinkB, samplePosition] "a" "b" ∧
    ¬Transparent "a" "b"
      (({} : Mirror).applyAll (fun _ => none) [sampleLinkA, sampleLinkB, samplePosition])
      (({} : Mirror).applyAll (fun _ => none)
        ([sampleLinkA, sampleLinkB, samplePosition].map (·.readdress "a"))) := by
  have hrun := aliasRun_sample (l := [sampleLinkA, sampleLinkB, samplePosition])
    (@List.perm_append_comm _ [sampleLinkA, sampleLinkB] [samplePosition])
  refine ⟨hrun.1, hrun.2, fun htrans => ?_⟩
  have hstays : ((({} : Mirror).applyAll (fun _ => none)
      [sampleLinkA, sampleLinkB, samplePosition]).entities.lookup (.progress, "b")).isSome =
        true := by decide
  rw [htrans.gone .progress (by decide)] at hstays
  exact absurd hstays (by decide)

end Transparent

end TuxBooks
