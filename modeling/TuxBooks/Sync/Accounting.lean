import TuxBooks.Sync.Run

set_option relaxedAutoImplicit false
set_option autoImplicit false

/-!
# Where the values of an upsert end up

Every branch of `apply_upsert` either writes a value, finds it there already, or keeps it in the
losing side of a conflict.

## Main definitions

* `TuxBooks.ConflictRow.Keeps` — the losing side of a conflict carries a value.
* `TuxBooks.Mirror.Accounted` — a value is in force or in a new conflict.

## Main results

* `TuxBooks.Mirror.upsert_accounted` — no value of an upsert is lost silently.
-/

namespace TuxBooks

/-! ## Objects -/

/-- The object of a map has the values of the map. -/
lemma get_toValue (fields : Fields) (field : String) :
    fields.toValue.get field = fields.lookup field := by
  have hperm := List.perm_insertionSort (fun a b : String × Value => a.1 ≤ b.1)
    (fields.entries.map fun e => (e.1, e.2))
  refine Option.ext fun value => ?_
  rw [Fields.toValue, Value.get, Option.map_eq_some_iff]
  generalize (fields.entries.map fun e => (e.1, e.2)).insertionSort
    (fun a b : String × Value => a.1 ≤ b.1) = sorted at hperm ⊢
  have hmem (e : String × Value) : e ∈ sorted ↔ fields.lookup e.1 = some e.2 := by
    rw [hperm.mem_iff, List.mem_map, Table.lookup_eq_some_iff]
    constructor
    · rintro ⟨entry, hentry, rfl⟩
      exact hentry
    · intro hentry
      exact ⟨_, hentry, rfl⟩
  constructor
  · rintro ⟨e, hfind, rfl⟩
    have hkey : e.1 = field := by simpa using List.find?_some hfind
    rw [← hkey, ← hmem]
    exact List.mem_of_find?_eq_some hfind
  · intro hvalue
    have hentry := (hmem (field, value)).2 hvalue
    cases hfind : sorted.find? fun e => e.1 == field with
    | none =>
      have hnone := List.find?_eq_none.1 hfind _ hentry
      simp at hnone
    | some e =>
      have hkey : e.1 = field := by simpa using List.find?_some hfind
      have hlookup := (hmem e).1 (List.mem_of_find?_eq_some hfind)
      rw [hkey, hvalue] at hlookup
      exact ⟨e, rfl, (Option.some.inj hlookup).symm⟩

/-- The values of the full state of an entity. -/
lemma lookup_loadStateTx {m : Mirror} {kind : EntityKind} {uid field : String}
    (hfield : field ∈ fieldNames kind) :
    (m.loadStateTx kind uid).lookup field =
      some (((m.row kind uid).fields.lookup field).elim .null FieldRow.value) := by
  rw [Mirror.loadStateTx, Table.lookup_ofKeys, if_pos hfield]
  cases (m.row kind uid).fields.lookup field with
  | none => rfl
  | some row => rfl

/-! ## Conflicts that keep a value -/

/-- The fields of conflicts that are about a whole entity. -/
def pseudoFields : List String := ["__deleted__", "__restore__", "__entity__"]

/-- The losing side of a conflict carries a value of a field. -/
def ConflictRow.Keeps (c : ConflictRow) (field : String) (value : Value) : Prop :=
  c.field = field ∧ c.loser = value ∨ c.field ∈ pseudoFields ∧ c.loser.get field = some value

namespace Mirror

/-- A value is in force in a live entity, or one of the new conflicts of the entity keeps it. -/
def Accounted (m : Mirror) (added : List ConflictRow) (kind : EntityKind) (uid field : String)
    (value : Value) : Prop :=
  ((m.row kind uid).deleted = false ∧ (m.loadStateTx kind uid).lookup field = some value) ∨
    ∃ c ∈ added, c.kind = kind ∧ c.entityUid = uid ∧ c.Keeps field value

/-- Conflicts are only added. -/
lemma conflicts_recordConflict (m : Mirror) (kind : EntityKind) (uid field : String)
    {winner loser : Value} (hne : winner ≠ loser) (winnerHlc loserHlc : Hlc) :
    (m.recordConflict kind uid field winner loser winnerHlc loserHlc).conflicts =
      m.conflicts ++ [⟨kind, uid, field, winner, loser, winnerHlc, loserHlc, false⟩] := by
  rw [recordConflict, if_neg hne]
  dsimp only
  split_ifs
  · rfl
  · rw [recordIssue]
    split_ifs <;> rfl

/-- Some fields of an operation are accounted for, and the other fields are as before. -/
structure AccountsFor (m m' : Mirror) (kind : EntityKind) (uid : String)
    (entries : List (Sigma fun _ : String => Value)) (added : List ConflictRow) : Prop where
  conflicts : m'.conflicts = m.conflicts ++ added
  live : (m'.row kind uid).deleted = false
  accounted : ∀ e ∈ entries, m'.Accounted added kind uid e.1 e.2
  others : ∀ field, field ∉ entries.map Sigma.fst →
    (m'.row kind uid).fields.lookup field = (m.row kind uid).fields.lookup field

section Upsert

variable {m m' m'' : Mirror} {op : Op} {uid : String}

/-! ## One field after the other -/

/-- What is accounted for after one field stays so after the others. -/
lemma AccountsFor.cons {kind : EntityKind} {e : Sigma fun _ : String => Value}
    {entries : List (Sigma fun _ : String => Value)} {added added' : List ConflictRow}
    (h : AccountsFor m m' kind uid [e] added) (h' : AccountsFor m' m'' kind uid entries added')
    (hfresh : e.1 ∉ entries.map Sigma.fst) :
    AccountsFor m m'' kind uid (e :: entries) (added ++ added') := by
  refine ⟨by rw [h'.conflicts, h.conflicts, List.append_assoc], h'.live, fun other hother => ?_,
    fun field hfield => ?_⟩
  · obtain rfl | hother := List.mem_cons.1 hother
    · obtain ⟨-, hvalue⟩ | ⟨c, hc, hkeeps⟩ := h.accounted other List.mem_cons_self
      · refine .inl ⟨h'.live, ?_⟩
        rw [loadStateTx, Table.lookup_ofKeys] at hvalue ⊢
        rw [h'.others other.1 hfresh]
        exact hvalue
      · exact .inr ⟨c, List.mem_append_left _ hc, hkeeps⟩
    · obtain hforce | ⟨c, hc, hkeeps⟩ := h'.accounted other hother
      · exact .inl hforce
      · exact .inr ⟨c, List.mem_append_right _ hc, hkeeps⟩
  · rw [List.map_cons, List.mem_cons, not_or] at hfield
    rw [h'.others field hfield.2, h.others field (by simpa using hfield.1)]

/-- A field that is written. -/
lemma accountsFor_setRow {field : String} {value : Value} {hlc : Hlc} {kind : EntityKind}
    (hlive : (m.row kind uid).deleted = false) (hfield : field ∈ fieldNames kind) :
    AccountsFor m (m.setRow kind uid { m.row kind uid with
      fields := (m.row kind uid).fields.insert field ⟨value, hlc⟩ }) kind uid [⟨field, value⟩]
        [] := by
  refine ⟨(List.append_nil _).symm, ?_, fun e he => .inl ⟨?_, ?_⟩, fun other hother => ?_⟩
  · rwa [row_setRow]
  · rwa [row_setRow]
  · obtain rfl := List.mem_singleton.1 he
    rw [lookup_loadStateTx hfield, row_setRow]
    simp
  · rw [row_setRow]
    exact AList.lookup_insert_ne (by simpa using hother)

/-- One field of `apply_fields`. -/
lemma accountsFor_applyField {field : String} (value : Value)
    (hlive : (m.row op.kind uid).deleted = false) (hfield : field ∈ fieldNames op.kind) :
    ∃ added, AccountsFor m (m.applyField op uid field value) op.kind uid [⟨field, value⟩]
      added := by
  rw [applyField]
  cases hexisting : (m.row op.kind uid).fields.lookup field with
  | none => exact ⟨_, accountsFor_setRow hlive hfield⟩
  | some existing =>
    dsimp only
    split_ifs with hlate hdiffers
    · refine ⟨_, conflicts_recordConflict m op.kind uid field hdiffers existing.hlc op.hlc, ?_,
        fun e he => .inr ⟨_, List.mem_singleton_self _, rfl, rfl, .inl ?_⟩, fun _ _ => ?_⟩
      · rwa [row_recordConflict]
      · obtain rfl := List.mem_singleton.1 he
        exact ⟨rfl, rfl⟩
      · rw [row_recordConflict]
    · -- the value is there already
      refine ⟨[], (List.append_nil _).symm, hlive, fun e he => .inl ⟨hlive, ?_⟩, fun _ _ => rfl⟩
      obtain rfl := List.mem_singleton.1 he
      rw [lookup_loadStateTx hfield, hexisting, ← not_not.1 hdiffers]
      rfl
    · exact ⟨_, accountsFor_setRow hlive hfield⟩

/-- All fields, one after the other. -/
lemma accountsFor_foldl (entries : List (Sigma fun _ : String => Value))
    (hnodup : (entries.map Sigma.fst).Nodup)
    (hfields : ∀ e ∈ entries, e.1 ∈ fieldNames op.kind)
    (hlive : (m.row op.kind uid).deleted = false) :
    ∃ added, AccountsFor m (entries.foldl (fun m e => m.applyField op uid e.1 e.2) m) op.kind uid
      entries added := by
  induction entries generalizing m with
  | nil => exact ⟨[], (List.append_nil _).symm, hlive, nofun, fun _ _ => rfl⟩
  | cons e entries ih =>
    obtain ⟨hfresh, hnodup⟩ := List.nodup_cons.1 hnodup
    obtain ⟨added, hfirst⟩ := accountsFor_applyField e.2 hlive (hfields e List.mem_cons_self)
    obtain ⟨added', hrest⟩ := ih hnodup (fun e he => hfields e (List.mem_cons_of_mem _ he))
      hfirst.live
    exact ⟨_, hfirst.cons hrest hfresh⟩

/-! ## A whole operation -/

/-- Every value of an operation is accounted for. -/
def AccountsForAll (m m' : Mirror) (op : Op) (uid : String) : Prop :=
  ∃ added, m'.conflicts = m.conflicts ++ added ∧
    ∀ field value, op.fields.lookup field = some value →
      m'.Accounted added op.kind uid field value

/-- A conflict about the entity keeps every value. -/
lemma accountsForAll_recordConflict {pseudo : String} {winner : Value} (winnerHlc : Hlc)
    (hpseudo : pseudo ∈ pseudoFields) (hne : winner ≠ op.fields.toValue) :
    m.AccountsForAll (m.recordConflict op.kind uid pseudo winner op.fields.toValue winnerHlc
      op.hlc) op uid := by
  refine ⟨_, conflicts_recordConflict m op.kind uid pseudo hne winnerHlc op.hlc,
    fun field value hvalue => .inr ⟨_, List.mem_singleton_self _, rfl, rfl, .inr ⟨hpseudo, ?_⟩⟩⟩
  rw [get_toValue, hvalue]

/-- `apply_fields` on a live entity. -/
lemma accountsForAll_applyFields (haccepted : op.Accepted)
    (hlive : (m.row op.kind uid).deleted = false) :
    m.AccountsForAll (m.applyFields op uid) op uid := by
  have hfields : ∀ e ∈ op.fields.entries, e.1 ∈ fieldNames op.kind := fun e he =>
    haccepted.mem_fieldNames (Table.lookup_eq_some_iff.2 he)
  obtain ⟨added, h⟩ := accountsFor_foldl op.fields.entries op.fields.nodupKeys hfields hlive
  exact ⟨added, h.conflicts, fun field value hvalue =>
    h.accounted ⟨field, value⟩ (Table.lookup_eq_some_iff.1 hvalue)⟩

/-- `apply_entity` on a live entity. -/
lemma accountsForAll_applyEntity (haccepted : op.Accepted)
    (hlive : (m.row op.kind uid).deleted = false) (entityHlc : Hlc) :
    m.AccountsForAll (m.applyEntity op uid entityHlc) op uid := by
  rw [applyEntity]
  split_ifs with hlate
  · by_cases hsame : (m.loadStateTx op.kind uid).toValue = op.fields.toValue
    · -- both sides say the same, so every value is there already
      refine ⟨[], ?_, fun field value hvalue => .inl ?_⟩
      · rw [recordConflict, if_pos hsame, List.append_nil]
      · rw [recordConflict, if_pos hsame, ← get_toValue, hsame, get_toValue]
        exact ⟨hlive, hvalue⟩
    · exact accountsForAll_recordConflict entityHlc (by decide) hsame
  · refine ⟨[], (List.append_nil _).symm, fun field value hvalue => .inl ⟨?_, ?_⟩⟩
    · rwa [row_setRow]
    · rw [lookup_loadStateTx (haccepted.mem_fieldNames hvalue), row_setRow,
        Table.lookup_mapRows, hvalue]
      rfl

lemma accountsForAll_mergeByMode (haccepted : op.Accepted)
    (hlive : (m.row op.kind uid).deleted = false) (entityHlc : Hlc) :
    m.AccountsForAll (m.mergeByMode op uid entityHlc) op uid := by
  rw [mergeByMode]
  cases op.kind.mergeMode with
  | field => exact accountsForAll_applyFields haccepted hlive
  | entity => exact accountsForAll_applyEntity haccepted hlive entityHlc

/-- `apply_upsert`, in all its branches. -/
theorem accountsForAll_applyUpsert (haccepted : op.Accepted) :
    m.AccountsForAll (m.applyUpsert op uid) op uid := by
  have hdead : Value.str "deleted" ≠ op.fields.toValue := nofun
  rw [applyUpsert]
  dsimp only
  split_ifs with hdeleted hrestore hstale
  · exact accountsForAll_recordConflict _ (by decide) hdead
  · -- the restore revives the entity, and its values are merged into it
    have hrevived : (((m.setRow op.kind uid { m.row op.kind uid with
        deleted := false
        restoredClock := some op.hlc }).closeTrash op.kind uid).row op.kind uid).deleted =
          false := by
      change ((m.setRow op.kind uid _).row op.kind uid).deleted = false
      rw [row_setRow]
    exact accountsForAll_mergeByMode haccepted hrevived _
  · exact accountsForAll_recordConflict _ (by decide) hdead
  · exact accountsForAll_mergeByMode haccepted (by simpa using hdeleted) _

/-- **No upsert loses a value silently**: in any mirror, every value of an accepted upsert that is
not applied yet and whose book is not forgotten is afterwards in force in its live entity, or kept
by a conflict that the operation added. A value that was there already is in force too. -/
theorem upsert_accounted (fromStr : String → Option Value) (m : Mirror) {op : Op}
    (hvalid : validateOp op = .ok ()) (hstate : op.kind.IsState) (hupsert : op.deleted = false)
    (hnew : op.opId ∉ m.appliedOps) (hbook : m.drops op = false) :
    ∃ uid, m.stateKey op = .ok uid ∧ m.AccountsForAll (m.applyOp fromStr op).1 op uid := by
  have haccepted := accepted_of_validateOp hvalid
  obtain ⟨uid, hkey⟩ := haccepted.exists_stateKey m
  refine ⟨uid, hkey, ?_⟩
  have hkey' : (m.observeHlc op.hlc).stateKey op = .ok uid := hkey
  rw [applyOp_of_state fromStr hnew hstate hbook hkey, applyStateOp, hkey']
  dsimp only
  rw [hupsert, if_neg Bool.false_ne_true]
  exact accountsForAll_applyUpsert (m := (m.observeHlc op.hlc).touchRow op.kind uid _) haccepted

/-- An edit that arrives after the entity was deleted. -/
theorem upsert_accounted_late :
    let created := sampleOp EntityKind.annotation 2000 "22222222222222222222222222222222" false
      false ((∅ : Fields).insert "color" (.str "red"))
    let deleted := sampleOp EntityKind.annotation 3000 "33333333333333333333333333333333" true
      false ∅
    let edited := sampleOp EntityKind.annotation 4000 "44444444444444444444444444444444" false
      false ((∅ : Fields).insert "note" (.str "late"))
    let m := ({} : Mirror).applyAll (fun _ => none) [created, deleted]
    ∃ uid, m.stateKey edited = .ok uid ∧
      m.AccountsForAll (m.applyOp (fun _ => none) edited).1 edited uid :=
  upsert_accounted _ _ (by decide +kernel) ⟨by decide, by decide⟩ rfl (by decide +kernel)
    (by decide +kernel)

end Upsert

end Mirror

end TuxBooks
