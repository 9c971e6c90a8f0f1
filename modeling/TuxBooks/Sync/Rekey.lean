import TuxBooks.Lib.Lww
import TuxBooks.Sync.Identity

set_option relaxedAutoImplicit false
set_option autoImplicit false

/-!
# What a merge of two identities does to the tables

Re-keying touches the entity rows, the merge table, the bindings, the aliases and the trash.
Row by row, merging two self-keyed entities folds the register of the loser into that of the
winner: per field for metadata, as a whole for progress and last-opened.

## Main definitions

* `TuxBooks.Mirror.OnlyEntities` — a mirror that differs from another in entity rows only.
* `TuxBooks.mergedRow`, `TuxBooks.mergedFields` — the row that a merge leaves at the winner.

## Main results

* `TuxBooks.lookup_mergeFieldRows` — merging field rows joins their registers.
* `TuxBooks.Mirror.lookup_mergeSelfKeyed` — the rows after a merge of a self-keyed kind.
* `TuxBooks.Mirror.mergeBookRows_tables` — the tables other than the rows after a book merge.
-/

namespace TuxBooks

lemma lookup_mergeFieldRow (fields : Table String FieldRow) (field : String) (row : FieldRow)
    (f : String) :
    (mergeFieldRow fields field row).lookup f =
      if f = field then Lww.put FieldRow.hlc (fields.lookup f) row else fields.lookup f := by
  unfold mergeFieldRow
  cases hrow : fields.lookup field with
  | none =>
    dsimp only
    rw [Table.lookup_insert']
    split_ifs with hf
    · rw [hf, hrow, Lww.put_none]
    · rfl
  | some current =>
    dsimp only
    by_cases hlt : current.hlc < row.hlc
    · rw [if_pos hlt, Table.lookup_insert']
      split_ifs with hf
      · rw [hf, hrow, Lww.put_of_lt hlt]
      · rfl
    · rw [if_neg hlt]
      split_ifs with hf
      · rw [hf, hrow, Lww.put_of_le (not_lt.mp hlt)]
      · rfl

/-- **Merging field rows joins their registers.** -/
theorem lookup_mergeFieldRows (loser winner : Table String FieldRow) (f : String) :
    (mergeFieldRows loser winner).lookup f =
      Lww.join FieldRow.hlc (winner.lookup f) (loser.lookup f) := by
  have hfold := Table.foldl_update_lookup loser (fun (t : Table String FieldRow) f => t.lookup f)
    mergeFieldRow (fun _ row current => Lww.put FieldRow.hlc current row)
    (fun fields field row => by rw [lookup_mergeFieldRow, if_pos rfl])
    (fun fields field row f hne => by rw [lookup_mergeFieldRow, if_neg hne]) winner f
  unfold mergeFieldRows
  rw [hfold]
  cases loser.lookup f <;> rfl

/-- What an entity-mode merge leaves at the winner: the newer row, a tie keeping the winner. -/
def mergedRow (bookUid : String) (loser winner : Option EntityRow) : Option EntityRow :=
  match loser, winner with
  | some l, some w => some (if l.hlc > w.hlc then { l with bookUid := some bookUid } else w)
  | some l, none => some { l with bookUid := some bookUid }
  | none, w => w

/-- What a field-mode merge leaves at the winner. -/
def mergedFields (winnerUid : String) (loser winner : Option EntityRow) : Option EntityRow :=
  match loser with
  | none => winner
  | some l =>
    let w := winner.getD { l with bookUid := some winnerUid, fields := ∅ }
    some { w with fields := mergeFieldRows l.fields w.fields }

/-- What a merge leaves at the winner, by the merge mode of the kind. -/
def mergedByMode (kind : EntityKind) (winnerUid : String) (loser winner : Option EntityRow) :
    Option EntityRow :=
  match kind.mergeMode with
  | .entity => mergedRow winnerUid loser winner
  | .field => mergedFields winnerUid loser winner

/-- The kinds whose rows are keyed by their book. -/
def EntityKind.IsSelfKeyed (kind : EntityKind) : Prop :=
  kind = .progress ∨ kind = .metadata ∨ kind = .opened

instance (kind : EntityKind) : Decidable kind.IsSelfKeyed :=
  inferInstanceAs (Decidable (_ ∨ _ ∨ _))

namespace Mirror

/-! ## Functions that only touch entity rows -/

/-- `m'` differs from `m` in entity rows only. -/
structure OnlyEntities (m m' : Mirror) : Prop where
  clock : m'.clock = m.clock
  appliedOps : m'.appliedOps = m.appliedOps
  aliases : m'.aliases = m.aliases
  bindings : m'.bindings = m.bindings
  merges : m'.merges = m.merges
  entityMerges : m'.entityMerges = m.entityMerges
  bookTrash : m'.bookTrash = m.bookTrash
  trash : m'.trash = m.trash

section Frame

variable {m m' m'' : Mirror} {kind : EntityKind}

lemma OnlyEntities.refl (m : Mirror) : m.OnlyEntities m := ⟨rfl, rfl, rfl, rfl, rfl, rfl, rfl, rfl⟩

lemma OnlyEntities.trans (h : m.OnlyEntities m') (h' : m'.OnlyEntities m'') :
    m.OnlyEntities m'' :=
  ⟨h'.clock.trans h.clock, h'.appliedOps.trans h.appliedOps, h'.aliases.trans h.aliases,
    h'.bindings.trans h.bindings, h'.merges.trans h.merges, h'.entityMerges.trans h.entityMerges,
    h'.bookTrash.trans h.bookTrash, h'.trash.trans h.trash⟩

lemma onlyEntities_rekeyEntityUid (m : Mirror) (kind : EntityKind) (src dst : String)
    (bookUid : Option String) : m.OnlyEntities (m.rekeyEntityUid kind src dst bookUid) := by
  unfold rekeyEntityUid
  split <;> exact ⟨rfl, rfl, rfl, rfl, rfl, rfl, rfl, rfl⟩

lemma onlyEntities_mergeEntityUid (m : Mirror) (kind : EntityKind) (src dst bookUid : String) :
    m.OnlyEntities (m.mergeEntityUid kind src dst bookUid) := by
  unfold mergeEntityUid
  split_ifs
  · exact .refl m
  · split
    · split_ifs
      · have herase : m.OnlyEntities (m.eraseRow kind dst) :=
          ⟨rfl, rfl, rfl, rfl, rfl, rfl, rfl, rfl⟩
        exact herase.trans (onlyEntities_rekeyEntityUid ..)
      · exact ⟨rfl, rfl, rfl, rfl, rfl, rfl, rfl, rfl⟩
    · exact onlyEntities_rekeyEntityUid ..
    · exact .refl m

lemma onlyEntities_mergeSelfKeyed (m : Mirror) (kind : EntityKind) (loser winner : String) :
    m.OnlyEntities (m.mergeSelfKeyed kind loser winner) := by
  unfold mergeSelfKeyed mergeSelfKeyedFields
  split
  · exact onlyEntities_mergeEntityUid ..
  · split
    · exact .refl m
    · exact ⟨rfl, rfl, rfl, rfl, rfl, rfl, rfl, rfl⟩

lemma onlyEntities_rekeyMembershipBook (winner : String) (m : Mirror) (uid : String) :
    m.OnlyEntities (m.rekeyMembershipBook winner uid) := by
  unfold rekeyMembershipBook
  split
  · exact onlyEntities_mergeEntityUid ..
  · exact .refl m

lemma onlyEntities_rekeyMemberships (m : Mirror) (winner : String) :
    m.OnlyEntities (m.rekeyMemberships winner) := by
  unfold rekeyMemberships
  generalize m.membershipsOfBook winner = uids
  induction uids generalizing m with
  | nil => exact .refl m
  | cons uid uids ih => exact (onlyEntities_rekeyMembershipBook winner m uid).trans (ih _)

end Frame

/-! ## Rows after a merge -/

section Rows

variable {m : Mirror} {kind : EntityKind} {loser winner bookUid : String}

lemma lookup_eraseRow (m : Mirror) (kind : EntityKind) (uid : String) (k : EntityKind × String) :
    (m.eraseRow kind uid).entities.lookup k =
      if k = (kind, uid) then none else m.entities.lookup k := Table.lookup_erase' ..

lemma lookup_setRow (m : Mirror) (kind : EntityKind) (uid : String) (r : EntityRow)
    (k : EntityKind × String) :
    (m.setRow kind uid r).entities.lookup k =
      if k = (kind, uid) then some r else m.entities.lookup k := Table.lookup_insert' ..

/-- The rows after an entity-mode merge of two uids. -/
lemma lookup_mergeEntityUid (hne : loser ≠ winner) (k : EntityKind × String) :
    (m.mergeEntityUid kind loser winner bookUid).entities.lookup k =
      if k = (kind, loser) then none
      else if k = (kind, winner) then
        mergedRow bookUid (m.entities.lookup (kind, loser)) (m.entities.lookup (kind, winner))
      else m.entities.lookup k := by
  have hkeys : (kind, loser) ≠ (kind, winner) := fun h => hne (Prod.mk.inj h).2
  unfold mergeEntityUid
  rw [if_neg hne]
  cases hl : m.entities.lookup (kind, loser) with
  | none =>
    dsimp only [mergedRow]
    split_ifs with hk hk'
    · rw [hk, hl]
    · rw [hk']
    · rfl
  | some l =>
    cases hw : m.entities.lookup (kind, winner) with
    | none =>
      simp only [rekeyEntityUid, hl, lookup_setRow, lookup_eraseRow, mergedRow, Option.some_or]
      split_ifs with h₁ h₂ <;> simp_all
    | some w =>
      dsimp only [mergedRow]
      by_cases hlt : l.hlc > w.hlc
      · have hl' : (m.eraseRow kind winner).entities.lookup (kind, loser) = some l := by
          rw [lookup_eraseRow, if_neg hkeys, hl]
        simp only [if_pos hlt, rekeyEntityUid, hl', lookup_setRow, lookup_eraseRow,
          Option.some_or]
        split_ifs with h₁ h₂ <;> simp_all
      · simp only [if_neg hlt, lookup_eraseRow]
        split_ifs with h₁ h₂
        · rfl
        · rw [h₂, hw]
        · rfl

/-- The rows after a field-mode merge of two uids. -/
lemma lookup_mergeSelfKeyedFields (k : EntityKind × String) :
    (m.mergeSelfKeyedFields kind loser winner).entities.lookup k =
      if k = (kind, loser) then none
      else if k = (kind, winner) then
        mergedFields winner (m.entities.lookup (kind, loser)) (m.entities.lookup (kind, winner))
      else m.entities.lookup k := by
  unfold mergeSelfKeyedFields
  cases hl : m.entities.lookup (kind, loser) with
  | none =>
    dsimp only [mergedFields]
    split_ifs with hk hk'
    · rw [hk, hl]
    · rw [hk']
    · rfl
  | some l => simp only [lookup_eraseRow, lookup_setRow, mergedFields]

/-- **The rows after a merge of a self-keyed kind**: the loser's is gone, the winner's is the
merged one, every other row is as before. -/
theorem lookup_mergeSelfKeyed (hne : loser ≠ winner) (k : EntityKind × String) :
    (m.mergeSelfKeyed kind loser winner).entities.lookup k =
      if k = (kind, loser) then none
      else if k = (kind, winner) then
        mergedByMode kind winner (m.entities.lookup (kind, loser))
          (m.entities.lookup (kind, winner))
      else m.entities.lookup k := by
  unfold mergeSelfKeyed mergedByMode
  cases kind.mergeMode with
  | entity => exact lookup_mergeEntityUid hne k
  | field => exact lookup_mergeSelfKeyedFields k

end Rows

/-! ## A book merge -/

section Book

variable {m : Mirror} {loser winner : String}

lemma onlyEntities_mergeBookSelfKeyed (m : Mirror) (loser winner : String) :
    m.OnlyEntities (m.mergeBookSelfKeyed loser winner) := by
  have hself := ((onlyEntities_mergeSelfKeyed m .progress loser winner).trans
    (onlyEntities_mergeSelfKeyed _ .metadata loser winner)).trans
      (onlyEntities_mergeSelfKeyed _ .opened loser winner)
  exact ⟨hself.clock, hself.appliedOps, hself.aliases, hself.bindings, hself.merges,
    hself.entityMerges, hself.bookTrash, hself.trash⟩

/-- **The tables other than the rows after a book merge.** -/
theorem mergeBookRows_tables (m : Mirror) (loser winner : String) :
    let m' := m.mergeBookRows loser winner
    m'.clock = m.clock ∧ m'.appliedOps = m.appliedOps ∧
      m'.merges = m.merges.insert loser winner ∧ m'.entityMerges = m.entityMerges ∧
      m'.bookTrash = m.bookTrash ∧
      (m'.aliases = m.aliases.mapRows fun _ (uid : String) =>
        if uid = loser then winner else uid) ∧
      (m'.bindings = m.bindings.mapRows fun _ (b : BindingRow) =>
        if b.bookUid = loser then { b with bookUid := winner } else b) := by
  have hmoved := (onlyEntities_mergeBookSelfKeyed (m.mergeBookStart loser winner) loser
    winner).trans (onlyEntities_rekeyMemberships _ winner)
  exact ⟨hmoved.clock, hmoved.appliedOps, hmoved.merges, hmoved.entityMerges, hmoved.bookTrash,
    hmoved.aliases, hmoved.bindings⟩

/-- The rows of self-keyed kinds before the memberships are walked over. -/
lemma lookup_mergeBookSelfKeyed (hne : loser ≠ winner) (kind : EntityKind) (uid : String) :
    (m.mergeBookSelfKeyed loser winner).entities.lookup (kind, uid) =
      Option.map (fun r => { r with bookUid := replaceUid loser winner r.bookUid })
        (if kind.IsSelfKeyed ∧ uid = loser then none
        else if kind.IsSelfKeyed ∧ uid = winner then
          mergedByMode kind winner (m.entities.lookup (kind, loser))
            (m.entities.lookup (kind, winner))
        else m.entities.lookup (kind, uid)) := by
  unfold mergeBookSelfKeyed EntityKind.IsSelfKeyed
  rw [Table.lookup_mapRows]
  refine congrArg _ ?_
  simp only [lookup_mergeSelfKeyed hne, Prod.mk.injEq]
  cases kind <;> simp

/-- **The rows after a book merge** on a mirror without memberships. -/
theorem lookup_mergeBookRows (hne : loser ≠ winner)
    (hmem : ∀ uid, m.entities.lookup (.membership, uid) = none) (kind : EntityKind)
    (uid : String) :
    (m.mergeBookRows loser winner).entities.lookup (kind, uid) =
      Option.map (fun r => { r with bookUid := replaceUid loser winner r.bookUid })
        (if kind.IsSelfKeyed ∧ uid = loser then none
        else if kind.IsSelfKeyed ∧ uid = winner then
          mergedByMode kind winner (m.entities.lookup (kind, loser))
            (m.entities.lookup (kind, winner))
        else m.entities.lookup (kind, uid)) := by
  have hnone : ((m.mergeBookStart loser winner).mergeBookSelfKeyed loser
      winner).membershipsOfBook winner = [] := by
    unfold membershipsOfBook
    rw [List.map_eq_nil_iff, List.filter_eq_nil_iff]
    rintro ⟨⟨kind, uid⟩, r⟩ hentry hcond
    have hkind : kind = .membership := by
      simp only [Bool.and_eq_true, beq_iff_eq] at hcond
      exact hcond.1
    have hlookup := Table.lookup_eq_some_iff.mpr hentry
    rw [lookup_mergeBookSelfKeyed hne, hkind] at hlookup
    have hself : ¬EntityKind.membership.IsSelfKeyed := by decide
    rw [if_neg fun h => hself h.1, if_neg fun h => hself h.1] at hlookup
    change Option.map _ (m.entities.lookup (.membership, uid)) = _ at hlookup
    rw [hmem] at hlookup
    cases hlookup
  unfold mergeBookRows rekeyMemberships
  rw [hnone]
  exact lookup_mergeBookSelfKeyed (m := m.mergeBookStart loser winner) hne kind uid

end Book

/-! ## A collection merge -/

/-- The edge that merging two collections writes first. -/
def joinCollections (m : Mirror) (loser winner : String) : Mirror :=
  { m with entityMerges := m.entityMerges.insert (.collection, loser) winner }

/-- The rows of the two collections after the merge. -/
def mergeCollectionFields (m : Mirror) (loser winner : String) : Mirror :=
  let w := m.row .collection winner
  let l := m.row .collection loser
  (m.setRow .collection winner
    { w with fields := mergeFieldRows l.fields w.fields }).eraseRow .collection loser

/-- A collection merge, part by part. -/
lemma mergeCollectionIdentity_of_ne {m : Mirror} {loser winner : String} (hne : loser ≠ winner) :
    m.mergeCollectionIdentity loser winner =
      let start := (m.joinCollections loser winner).mergeCollectionFields loser winner
      let moved := (start.membershipsLike loser).foldl (rekeyMembershipCollection winner) start
      { moved with trash := moved.trash.map fun (t : TrashRow) =>
          if t.kind = .collection ∧ t.entityUid = loser then { t with entityUid := winner }
          else t } :=
  if_neg hne

/-- The memberships are as before when the rows of the collections are merged. -/
lemma lookup_mergeCollectionFields (m : Mirror) (loser winner uid : String) :
    ((m.joinCollections loser winner).mergeCollectionFields loser winner).entities.lookup
      (.membership, uid) = m.entities.lookup (.membership, uid) := by
  rw [mergeCollectionFields, lookup_eraseRow, if_neg (by simp), lookup_setRow, if_neg (by simp)]
  rfl

end Mirror

end TuxBooks
