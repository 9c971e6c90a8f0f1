import TuxBooks.Sync.Rekey
import TuxBooks.Sync.Review
import TuxBooks.Sync.Row

set_option relaxedAutoImplicit false
set_option autoImplicit false

/-!
# What a conflict lets the user choose between

A row of `sync_conflicts` names a register of an entity: one field, the entity as a whole, or its
tombstone. It is a choice as long as the register still has the recorded winner, and a dead one
when a newer write has taken the register. This file says what operations and identity merges do
to the registers behind the open conflicts.

## Main definitions

* `TuxBooks.EntityRow.Shows` — the row has the winner of the conflict.
* `TuxBooks.EntityRow.Newer` — the row holds a newer write to what the conflict is about.
* `TuxBooks.Mirror.Sound` — behind every open conflict is one of the two, or it is dead already.
* `TuxBooks.Mirror.Spares` — moving a row does not take it away from an open choice.

## Main results

* `TuxBooks.Mirror.Sound.applyStateOp` — a state operation kills a choice only by a newer write.
* `TuxBooks.Mirror.Sound.mergeBookRows`, `TuxBooks.Mirror.Sound.mergeCollectionIdentity` — so
  does a merge that spares the open choices.
-/

namespace TuxBooks

/-! ## Registers -/

/-- The conflict is about a tombstone. -/
def ConflictRow.OnTombstone (c : ConflictRow) : Prop :=
  c.field = "__deleted__" ∨ c.field = "__restore__"

instance (c : ConflictRow) : Decidable c.OnTombstone := inferInstanceAs (Decidable (_ ∨ _))

lemma ConflictRow.OnTombstone.ne_entity {c : ConflictRow} (h : c.OnTombstone) :
    c.field ≠ "__entity__" := by
  rcases h with h | h <;> rw [h] <;> decide

/-- The conflict is one that the merge records: of a state kind, and on a single field only where
fields merge on their own. -/
structure ConflictRow.IsChoice (c : ConflictRow) : Prop where
  state : c.kind.IsState
  plain : c.field = "__entity__" ∨ c.OnTombstone ∨ c.kind.mergeMode = .field

namespace EntityRow

/-- The row has what the conflict recorded as its winner. -/
def Shows (r : EntityRow) (c : ConflictRow) : Prop :=
  if c.field = "__entity__" then r.hlc = c.winnerHlc
  else if c.OnTombstone then r.deleted = true ∧ r.deletedClock = some c.winnerHlc
  else r.fields.lookup c.field = some ⟨c.winner, c.winnerHlc⟩

/-- The row holds a write, to what the conflict is about, that is newer than the winner. -/
def Newer (r : EntityRow) (c : ConflictRow) : Prop :=
  if c.field = "__entity__" then c.winnerHlc < r.hlc
  else if c.OnTombstone then
    c.winnerHlc < r.hlc ∨ (∃ d ∈ r.deletedClock, c.winnerHlc < d) ∨
      ∃ d ∈ r.restoredClock, c.winnerHlc < d
  else ∃ f ∈ r.fields.lookup c.field, c.winnerHlc < f.hlc

instance (r : EntityRow) (c : ConflictRow) : Decidable (r.Shows c) := by
  delta Shows
  infer_instance

instance (r : EntityRow) (c : ConflictRow) : Decidable (r.Newer c) := by
  delta Newer
  infer_instance

lemma Shows.of_entity {r : EntityRow} {c : ConflictRow} (hfield : c.field = "__entity__")
    (h : r.hlc = c.winnerHlc) : r.Shows c := (if_pos hfield).mpr h

lemma Shows.of_tombstone {r : EntityRow} {c : ConflictRow} (hon : c.OnTombstone)
    (hdel : r.deleted = true) (h : r.deletedClock = some c.winnerHlc) : r.Shows c := by
  unfold Shows
  rw [if_neg hon.ne_entity, if_pos hon]
  exact ⟨hdel, h⟩

lemma Shows.of_field {r : EntityRow} {c : ConflictRow} (hentity : c.field ≠ "__entity__")
    (hon : ¬c.OnTombstone) (h : r.fields.lookup c.field = some ⟨c.winner, c.winnerHlc⟩) :
    r.Shows c := by
  unfold Shows
  rw [if_neg hentity, if_neg hon]
  exact h

/-- The register of the conflict has the winner, or something newer. -/
def Stands (r : EntityRow) (c : ConflictRow) : Prop := r.Shows c ∨ r.Newer c

/-- A tombstone has a clock that a reader of the column sees. -/
def ClockSet (r : EntityRow) : Prop := r.deleted = true → ∃ d ∈ r.deletedClock, d.wall ≠ 0

variable {r r' : EntityRow} {c : ConflictRow} {op : Op}

lemma ClockSet.deletedClock (h : r.ClockSet) (hdel : r.deleted = true) :
    r.deletedClock = some r.deleteClock ∧ r.deletedHlc.getD Hlc.zero = r.deleteClock := by
  obtain ⟨d, hd, hwall⟩ := h hdel
  have hd : r.deletedClock = some d := hd
  have hclock : r.deleteClock = d := by
    simp [deleteClock, deletedHlc, hd, Hlc.stored, hwall]
  exact ⟨by rw [hclock, hd], rfl⟩

/-- What stands in a row stands in one with the same flags and clock and newer fields. -/
lemma Stands.of_fields (h : r.Stands c) (hflags : SameFlags r r') (hhlc : r'.hlc = r.hlc)
    (hfields : ∀ f, r.fields.lookup c.field = some f →
      ∃ f', r'.fields.lookup c.field = some f' ∧ (f' = f ∨ f.hlc < f'.hlc)) : r'.Stands c := by
  unfold Stands Shows Newer at h ⊢
  rw [hflags.deleted, hflags.deletedClock, hflags.restoredClock, hhlc]
  split_ifs at h ⊢
  · exact h
  · exact h
  · rcases h with hshows | ⟨f, hf, hnewer⟩
    · obtain ⟨f', hf', rfl | hlt⟩ := hfields _ hshows
      · exact .inl hf'
      · exact .inr ⟨f', hf', hlt⟩
    · obtain ⟨f', hf', rfl | hlt⟩ := hfields f hf
      · exact .inr ⟨f', hf', hnewer⟩
      · exact .inr ⟨f', hf', hnewer.trans hlt⟩

/-- What stands in a row stands in one that takes the entity with a newer clock. -/
lemma Stands.of_newer (h : r.Stands c) (hc : c.IsChoice) (hmode : c.kind.mergeMode = .entity)
    (hnewer : r.hlc < r'.hlc) (htomb : c.OnTombstone → r'.Stands c) : r'.Stands c := by
  by_cases hentity : c.field = "__entity__"
  · unfold Stands Shows Newer at h ⊢
    rw [if_pos hentity, if_pos hentity] at h ⊢
    rcases h with hshows | hlt
    · exact .inr (hshows ▸ hnewer)
    · exact .inr (hlt.trans hnewer)
  · rcases hc.plain.resolve_left hentity with hon | hfield
    · exact htomb hon
    · rw [hmode] at hfield
      cases hfield

/-- One field write keeps or replaces what stands. -/
lemma Stands.putField (h : r.Stands c) (field : String) (value : Value) :
    (r.putField op field value).Stands c := by
  refine h.of_fields (sameFlags_putField op r field value) ?_ fun f hf => ?_
  · unfold EntityRow.putField
    split
    · split_ifs <;> rfl
    · rfl
  · rw [lookup_putField, hf]
    split_ifs
    · rcases le_or_gt op.hlc f.hlc with hle | hlt
      · exact ⟨f, Lww.put_of_le hle, .inl rfl⟩
      · exact ⟨_, Lww.put_of_lt hlt, .inr hlt⟩
    · exact ⟨f, rfl, .inl rfl⟩

/-- Writing an entity as a whole keeps or replaces what stands. -/
lemma Stands.put (h : r.Stands c) (hc : c.IsChoice) (hkind : c.kind = op.kind)
    (hmode : op.kind.mergeMode = .entity) : (r.put op).Stands c := by
  have hflags := sameFlags_put op r
  unfold EntityRow.put at hflags ⊢
  rw [hmode] at hflags ⊢
  dsimp only at hflags ⊢
  split_ifs at hflags ⊢ with hle
  · exact h
  · have hnewer : r.hlc < op.hlc := not_le.mp hle
    refine h.of_newer hc (hkind ▸ hmode) hnewer fun hon => ?_
    unfold Stands Shows Newer at h ⊢
    rw [if_neg hon.ne_entity, if_neg hon.ne_entity, if_pos hon, if_pos hon] at h ⊢
    rcases h with hshows | hlt | hclocks
    · exact .inl hshows
    · exact .inr (.inl (hlt.trans hnewer))
    · exact .inr (.inr hclocks)

/-- A restore is newer than the tombstone it ends. -/
lemma Shows.revive (h : r.Shows c) (hset : r.ClockSet) (hlt : r.deleteClock < op.hlc) :
    (r.revive op).Stands c := by
  unfold Stands Shows Newer EntityRow.revive at *
  split_ifs at h ⊢
  · exact .inl h
  · have hclock : c.winnerHlc = r.deleteClock :=
      Option.some.inj (h.2.symm.trans (hset.deletedClock h.1).1)
    exact .inr (.inr (.inr ⟨op.hlc, rfl, hclock ▸ hlt⟩))
  · exact .inl h

/-- A delete leaves the fields and the clock of a live row. -/
lemma Shows.kill (h : r.Shows c) (hlive : ¬r.deleted = true) : (r.kill op).Shows c := by
  unfold Shows EntityRow.kill at *
  split_ifs at h ⊢
  · exact h
  · exact absurd h.1 hlive
  · exact h

end EntityRow

namespace Mirror

/-! ## Open choices -/

/-- Behind every open conflict that is not dead already, as `dead` says, is a register with the
winner or with something newer. Tombstones have clocks that readers see. -/
structure Sound (dead : ConflictRow → Prop) (m : Mirror) : Prop where
  choices : ∀ c ∈ m.conflicts, c.resolvedAt = false →
    dead c ∨ c.IsChoice ∧ ∃ r ∈ m.entities.lookup (c.kind, c.entityUid), r.Stands c
  clocks : ∀ kind uid, kind.IsState → ∀ r ∈ m.entities.lookup (kind, uid), r.ClockSet

/-- The newer writes that are there make their conflicts dead. -/
def Heeds (dead : ConflictRow → Prop) (m : Mirror) : Prop :=
  ∀ c ∈ m.conflicts, c.resolvedAt = false →
    ∀ r ∈ m.entities.lookup (c.kind, c.entityUid), r.Newer c → dead c

/-- The conflicts, and the rows that they can be about, are as before. -/
structure SameChoices (m m' : Mirror) : Prop where
  conflicts : m'.conflicts = m.conflicts
  rows : ∀ kind uid, kind.IsState →
    m'.entities.lookup (kind, uid) = m.entities.lookup (kind, uid)

variable {dead dead' : ConflictRow → Prop} {m m' m'' : Mirror} {kind : EntityKind} {uid : String}
  {r r' : EntityRow} {op : Op}

lemma SameChoices.trans (h : m.SameChoices m') (h' : m'.SameChoices m'') : m.SameChoices m'' :=
  ⟨h'.conflicts.trans h.conflicts, fun kind uid hstate =>
    (h'.rows kind uid hstate).trans (h.rows kind uid hstate)⟩

lemma Sound.same (h : m.Sound dead) (hsame : m.SameChoices m') : m'.Sound dead := by
  refine ⟨fun c hc hopen => ?_, fun kind uid hstate r hr => ?_⟩
  · rw [hsame.conflicts] at hc
    refine (h.choices c hc hopen).imp id fun ⟨hchoice, hstands⟩ => ⟨hchoice, ?_⟩
    rwa [hsame.rows _ _ hchoice.state]
  · rw [hsame.rows kind uid hstate] at hr
    exact h.clocks kind uid hstate r hr

lemma Sound.mono (h : m.Sound dead) (hdead : ∀ c, dead c → dead' c) : m.Sound dead' :=
  ⟨fun c hc hopen => (h.choices c hc hopen).imp (hdead c) id, h.clocks⟩

/-- Closing or dropping conflicts leaves the others as they are. -/
lemma Sound.shrink (h : m.Sound dead) (hrows : m'.entities = m.entities)
    (hsub : ∀ c ∈ m'.conflicts, c.resolvedAt = false → c ∈ m.conflicts) : m'.Sound dead := by
  refine ⟨fun c hc hopen => ?_, hrows ▸ h.clocks⟩
  rw [hrows]
  exact h.choices c (hsub c hc hopen) hopen

/-- A row may be replaced by one in which every open choice stands. -/
lemma Sound.setRow (h : m.Sound dead) (r' : EntityRow) (hset : r'.ClockSet)
    (hstands : ∀ c ∈ m.conflicts, c.resolvedAt = false → c.IsChoice → c.kind = kind →
      c.entityUid = uid → ∀ r ∈ m.entities.lookup (kind, uid), r.Stands c →
        dead c ∨ r'.Stands c) :
    (m.setRow kind uid r').Sound dead := by
  refine ⟨fun c hc hopen => ?_, fun kind' uid' hstate r hr => ?_⟩
  · rcases h.choices c hc hopen with hdead | ⟨hchoice, r, hr, hold⟩
    · exact .inl hdead
    · rw [lookup_setRow]
      split_ifs with hkey
      · obtain ⟨hkind, huid⟩ := Prod.mk.inj hkey
        refine (hstands c hc hopen hchoice hkind huid r (hkey ▸ hr) hold).imp id fun hnew => ?_
        exact ⟨hchoice, r', rfl, hnew⟩
      · exact .inr ⟨hchoice, r, hr, hold⟩
  · rw [lookup_setRow] at hr
    split_ifs at hr
    · exact Option.some.inj hr ▸ hset
    · exact h.clocks kind' uid' hstate r hr

lemma mem_conflicts_recordConflict {c : ConflictRow} {field : String} {winner loser : Value}
    {winnerHlc loserHlc : Hlc}
    (hc : c ∈ (m.recordConflict kind uid field winner loser winnerHlc loserHlc).conflicts) :
    c ∈ m.conflicts ∨ c = ⟨kind, uid, field, winner, loser, winnerHlc, loserHlc, false⟩ := by
  unfold Mirror.recordConflict Mirror.recordIssue at hc
  dsimp only at hc
  split_ifs at hc
  · exact .inl hc
  all_goals exact (List.mem_append.mp hc).imp id List.mem_singleton.mp

/-- A conflict is recorded with the winner that its register has. -/
lemma Sound.recordConflict (h : m.Sound dead) {field : String} {winner loser : Value}
    {winnerHlc loserHlc : Hlc} (hrow : m.entities.lookup (kind, uid) = some r)
    (hchoice : ConflictRow.IsChoice
      ⟨kind, uid, field, winner, loser, winnerHlc, loserHlc, false⟩)
    (hshows : r.Shows ⟨kind, uid, field, winner, loser, winnerHlc, loserHlc, false⟩) :
    (m.recordConflict kind uid field winner loser winnerHlc loserHlc).Sound dead := by
  refine ⟨fun c hc hopen => ?_, ?_⟩
  · rw [entities_recordConflict]
    rcases mem_conflicts_recordConflict hc with hold | rfl
    · exact h.choices c hold hopen
    · exact .inr ⟨hchoice, r, hrow, .inl hshows⟩
  · rw [entities_recordConflict]
    exact h.clocks

/-! ## State operations -/

lemma row_of_lookup (hrow : m.entities.lookup (kind, uid) = some r) : m.row kind uid = r := by
  rw [Mirror.row, hrow, Option.getD_some]

/-- The pseudo-fields are no fields of any kind. -/
lemma plain_of_mem_fieldNames {field : String} (h : field ∈ fieldNames kind) :
    field ≠ "__entity__" ∧ ¬(field = "__deleted__" ∨ field = "__restore__") := by
  have hplain : ∀ field ∈ fieldNames kind,
      field ≠ "__entity__" ∧ ¬(field = "__deleted__" ∨ field = "__restore__") := by
    cases kind <;> decide
  exact hplain field h

/-- **One field of an upsert**: the register is replaced by a newer write, or the conflict shows
what it has. -/
lemma Sound.applyField (h : m.Sound dead) (hstate : op.kind.IsState)
    (hmode : op.kind.mergeMode = .field) {field : String} (hfield : field ∈ fieldNames op.kind)
    (hrow : m.entities.lookup (op.kind, uid) = some r) (value : Value) :
    (m.applyField op uid field value).Sound dead := by
  obtain ⟨hentity, htomb⟩ := plain_of_mem_fieldNames hfield
  have hwrite : (m.setRow op.kind uid (r.putField op field value)).Sound dead := by
    refine h.setRow _ ?_ fun c _ _ _ _ _ r' hr' hold => .inr ?_
    · have hflags := EntityRow.sameFlags_putField op r field value
      have hset := h.clocks op.kind uid hstate r hrow
      unfold EntityRow.ClockSet at hset ⊢
      rw [hflags.deleted, hflags.deletedClock]
      exact hset
    · have hsame : r' = r := Option.some.inj (hr'.symm.trans hrow)
      exact hsame ▸ hold.putField field value
  unfold Mirror.applyField EntityRow.putField at *
  rw [row_of_lookup hrow]
  cases hold : r.fields.lookup field with
  | none => simpa only [hold] using hwrite
  | some existing =>
    simp only [hold] at hwrite ⊢
    split_ifs at hwrite ⊢
    · exact h.recordConflict hrow ⟨hstate, .inr (.inr hmode)⟩ (.of_field hentity htomb hold)
    · exact h
    · exact hwrite

lemma Sound.applyFields (h : m'.Sound dead) (hstate : op.kind.IsState)
    (hmode : op.kind.mergeMode = .field)
    (hfields : ∀ e ∈ op.fields.entries, e.1 ∈ fieldNames op.kind)
    (hwrote : m.Wrote (op.kind, uid) r m') : (m'.applyFields op uid).Sound dead := by
  unfold Mirror.applyFields
  generalize op.fields.entries = entries at hfields
  induction entries generalizing m' r with
  | nil => exact h
  | cons e entries ih =>
    have hrow : m'.entities.lookup (op.kind, uid) = some r := by rw [hwrote.lookup, if_pos rfl]
    obtain ⟨hfield, hrest⟩ := List.forall_mem_cons.mp hfields
    exact ih (h.applyField hstate hmode hfield hrow e.2) (hwrote.applyField e.1 e.2) hrest

/-- An upsert of an entity as a whole. -/
lemma Sound.applyEntity (h : m.Sound dead) (hstate : op.kind.IsState)
    (hmode : op.kind.mergeMode = .entity) (hrow : m.entities.lookup (op.kind, uid) = some r) :
    (m.applyEntity op uid r.hlc).Sound dead := by
  have hwrite : (m.setRow op.kind uid (r.put op)).Sound dead := by
    refine h.setRow _ ?_ fun c _ _ hchoice hkind _ r' hr' hold => .inr ?_
    · have hflags := EntityRow.sameFlags_put op r
      have hset := h.clocks op.kind uid hstate r hrow
      unfold EntityRow.ClockSet at hset ⊢
      rw [hflags.deleted, hflags.deletedClock]
      exact hset
    · have hsame : r' = r := Option.some.inj (hr'.symm.trans hrow)
      exact hsame ▸ hold.put hchoice hkind hmode
  unfold Mirror.applyEntity EntityRow.put at *
  rw [row_of_lookup hrow]
  simp only [hmode] at hwrite
  split_ifs at hwrite ⊢
  · exact h.recordConflict hrow ⟨hstate, .inl rfl⟩ (.of_entity rfl rfl)
  · exact hwrite

lemma Sound.mergeByMode (h : m.Sound dead) (hstate : op.kind.IsState) (hfields : ∀ e ∈
    op.fields.entries, e.1 ∈ fieldNames op.kind)
    (hrow : m.entities.lookup (op.kind, uid) = some r) :
    (m.mergeByMode op uid r.hlc).Sound dead := by
  unfold Mirror.mergeByMode
  cases hmode : op.kind.mergeMode with
  | field => exact h.applyFields hstate hmode hfields (wrote_self hrow)
  | entity => exact h.applyEntity hstate hmode hrow

/-- **An upsert**: on a tombstone it is recorded as the loser, or it is newer and restores. -/
lemma Sound.applyUpsert (h : m.Sound dead) (hheeds : m.Heeds dead) (hstate : op.kind.IsState)
    (hfields : ∀ e ∈ op.fields.entries, e.1 ∈ fieldNames op.kind)
    (hrow : m.entities.lookup (op.kind, uid) = some r) : (m.applyUpsert op uid).Sound dead := by
  unfold Mirror.applyUpsert
  simp only [row_of_lookup hrow]
  by_cases hdel : r.deleted = true
  · have hset := h.clocks op.kind uid hstate r hrow
    obtain ⟨hclock, hread⟩ := hset.deletedClock hdel
    rw [if_pos hdel, hread]
    by_cases hrestore : ¬op.restore = true
    · rw [if_pos hrestore]
      exact h.recordConflict hrow ⟨hstate, .inr (.inl (.inl rfl))⟩
        (.of_tombstone (.inl rfl) hdel hclock)
    rw [if_neg hrestore]
    split_ifs with hlate
    · exact h.recordConflict hrow ⟨hstate, .inr (.inl (.inr rfl))⟩
        (.of_tombstone (.inr rfl) hdel hclock)
    · have hlt : r.deleteClock < op.hlc := not_le.mp fun hle => hlate (.inr hle)
      have hrevived : (m.setRow op.kind uid (r.revive op)).Sound dead := by
        refine h.setRow _ (fun hdead => by cases hdead) ?_
        intro c hc hopen _ hkind huid r' hr' hold
        have hsame : r' = r := Option.some.inj (hr'.symm.trans hrow)
        rcases hold with hshows | hnewer
        · exact .inr ((hsame ▸ hshows).revive hset hlt)
        · exact .inl (hheeds c hc hopen r' (by rw [hkind, huid]; exact hr') hnewer)
      have hclosed : ((m.setRow op.kind uid (r.revive op)).closeTrash op.kind uid).Sound dead :=
        hrevived.same ⟨rfl, fun _ _ _ => rfl⟩
      have hrow' : ((m.setRow op.kind uid (r.revive op)).closeTrash op.kind uid).entities.lookup
          (op.kind, uid) = some (r.revive op) := (lookup_setRow ..).trans (if_pos rfl)
      have hmerged := hclosed.mergeByMode hstate hfields hrow'
      exact hmerged
  · rw [if_neg hdel]
    exact h.mergeByMode hstate hfields hrow

/-- **A delete** buries a live row, which no tombstone conflict can show. -/
lemma Sound.applyDelete (h : m.Sound dead) (hheeds : m.Heeds dead) (hclock : op.hlc.wall ≠ 0)
    (hrow : m.entities.lookup (op.kind, uid) = some r) (bookUid : Option String) :
    (m.applyDelete op uid bookUid).Sound dead := by
  unfold Mirror.applyDelete
  simp only [row_of_lookup hrow]
  by_cases hdel : r.deleted = true
  · rw [if_pos hdel]
    exact h
  rw [if_neg hdel]
  have hkilled : (m.setRow op.kind uid (r.kill op)).Sound dead := by
    refine h.setRow _ (fun _ => ⟨op.hlc, rfl, hclock⟩) ?_
    intro c hc hopen _ hkind huid r' hr' hold
    have hsame : r' = r := Option.some.inj (hr'.symm.trans hrow)
    rcases hold with hshows | hnewer
    · exact .inr (.inl ((hsame ▸ hshows).kill hdel))
    · exact .inl (hheeds c hc hopen r' (by rw [hkind, huid]; exact hr') hnewer)
  by_cases hrestored : r.restoredHlc.getD Hlc.zero > op.hlc
  · rw [if_pos hrestored]
    exact h
  rw [if_neg hrestored]
  cases op.kind.mergeMode with
  | entity =>
    dsimp only
    split_ifs
    · exact h
    · exact hkilled
  | field =>
    unfold Mirror.insertTrash
    dsimp only
    split_ifs
    · exact hkilled
    · exact hkilled.same ⟨rfl, fun _ _ _ => rfl⟩

/-- Refreshing the book of a row, or creating it, changes no register. -/
lemma Sound.touchRow (h : m.Sound dead) (hheeds : m.Heeds dead) (hstate : kind.IsState)
    (bookUid : Option String) :
    (m.touchRow kind uid bookUid).Sound dead ∧ (m.touchRow kind uid bookUid).Heeds dead := by
  constructor
  · refine h.setRow _ ?_ fun c _ _ _ _ _ r hr hold => .inr ?_
    · unfold Mirror.row
      cases hr : m.entities.lookup (kind, uid) with
      | none => exact fun hdead => by cases hdead
      | some r => exact h.clocks kind uid hstate r hr
    · rw [row_of_lookup hr]
      exact hold
  · intro c hc hopen r hr hnewer
    unfold Mirror.touchRow at hr
    rw [lookup_setRow] at hr
    split_ifs at hr with hkey
    · rcases h.choices c hc hopen with hdead | ⟨-, r₀, hr₀, -⟩
      · exact hdead
      · rw [row_of_lookup (hkey ▸ hr₀)] at hr
        have htouched : r₀.touch bookUid = r := Option.some.inj hr
        subst htouched
        exact hheeds c hc hopen r₀ hr₀ hnewer
    · exact hheeds c hc hopen r hr hnewer

/-- **A state operation** leaves every open conflict with its winner or with a newer write, and
records conflicts that show the winner. -/
theorem Sound.applyStateOp (h : m.Sound dead) (hheeds : m.Heeds dead) (hstate : op.kind.IsState)
    (hop : op.Accepted) (hclock : op.deleted = true → op.hlc.wall ≠ 0) :
    (m.applyStateOp op).1.Sound dead := by
  unfold Mirror.applyStateOp
  dsimp only
  cases hkey : m.stateKey op with
  | error e => exact h
  | ok uid =>
    obtain ⟨htouch, htouched⟩ :
        (m.touchRow op.kind uid (op.bookUid.map m.canonicalBookUid)).Sound dead ∧
        (m.touchRow op.kind uid (op.bookUid.map m.canonicalBookUid)).Heeds dead :=
      h.touchRow hheeds hstate _
    have hrow := lookup_setRow m op.kind uid ((m.row op.kind uid).touch
      (op.bookUid.map m.canonicalBookUid)) (op.kind, uid)
    rw [if_pos rfl] at hrow
    dsimp only
    split_ifs with hdel
    · exact htouch.applyDelete htouched (hclock hdel) hrow _
    · refine htouch.applyUpsert htouched hstate (fun e he => ?_) hrow
      exact hop.mem_fieldNames (Table.lookup_eq_some_iff.mpr he)

/-! ## Moving rows -/

/-- The row at `src` has a newer clock than the one at `dst`, so an entity-mode merge puts it
there. -/
def Outranks (m : Mirror) (kind : EntityKind) (src dst : String) : Prop :=
  kind.mergeMode = .entity ∧ ∃ s ∈ m.entities.lookup (kind, src),
    ∃ d ∈ m.entities.lookup (kind, dst), d.hlc < s.hlc

/-- Moving the row at `src` to `dst` takes no open choice away: the open conflicts that name `src`
are dead already, and so are those on a tombstone at `dst` that the row replaces. -/
def Spares (dead : ConflictRow → Prop) (m : Mirror) (kind : EntityKind) (src dst : String) :
    Prop :=
  ∀ c ∈ m.conflicts, c.resolvedAt = false → c.kind = kind →
    (c.entityUid = src ∨ c.entityUid = dst ∧ c.OnTombstone ∧ m.Outranks kind src dst) → dead c

/-- `Spares` depends on the conflicts and on the rows of one kind. -/
lemma Spares.congr {src dst : String} (h : m.Spares dead kind src dst)
    (hconflicts : m'.conflicts = m.conflicts)
    (hrows : ∀ uid, m'.entities.lookup (kind, uid) = m.entities.lookup (kind, uid)) :
    m'.Spares dead kind src dst := by
  intro c hc hopen hkind hcase
  rw [hconflicts] at hc
  refine h c hc hopen hkind (hcase.imp id fun ⟨hdst, hon, hrank⟩ => ⟨hdst, hon, ?_⟩)
  unfold Outranks at hrank ⊢
  rwa [hrows, hrows] at hrank

lemma conflicts_rekeyEntityUid (m : Mirror) (kind : EntityKind) (src dst : String)
    (bookUid : Option String) :
    (m.rekeyEntityUid kind src dst bookUid).conflicts = m.conflicts := by
  unfold rekeyEntityUid
  split <;> rfl

lemma conflicts_mergeEntityUid (m : Mirror) (kind : EntityKind) (src dst bookUid : String) :
    (m.mergeEntityUid kind src dst bookUid).conflicts = m.conflicts := by
  unfold mergeEntityUid
  split_ifs
  · rfl
  · split
    · split_ifs
      · exact conflicts_rekeyEntityUid ..
      · rfl
    · exact conflicts_rekeyEntityUid ..
    · rfl

lemma conflicts_mergeSelfKeyed (m : Mirror) (kind : EntityKind) (loser winner : String) :
    (m.mergeSelfKeyed kind loser winner).conflicts = m.conflicts := by
  unfold mergeSelfKeyed mergeSelfKeyedFields
  split
  · exact conflicts_mergeEntityUid ..
  · split <;> rfl

/-- What a merge leaves at the winner of the rows at two uids keeps what stands there. -/
lemma stands_mergedRow {c : ConflictRow} {src dst bookUid : String}
    (hmode : kind.mergeMode = .entity) (hspares : m.Spares dead kind src dst)
    (hc : c ∈ m.conflicts) (hopen : c.resolvedAt = false) (hkey : (c.kind, c.entityUid) =
    (kind, dst)) (hchoice : c.IsChoice) (hr : m.entities.lookup (kind, dst) = some r)
    (hold : r.Stands c) : dead c ∨ ∃ r' ∈ mergedRow bookUid (m.entities.lookup (kind, src))
      (m.entities.lookup (kind, dst)), r'.Stands c := by
  obtain ⟨hkind, huid⟩ := Prod.mk.inj hkey
  cases hs : m.entities.lookup (kind, src) with
  | none => exact .inr ⟨r, hr, hold⟩
  | some s =>
    rw [hr]
    dsimp only [mergedRow]
    by_cases hlt : s.hlc > r.hlc
    · simp only [if_pos hlt]
      by_cases hon : c.OnTombstone
      · exact .inl (hspares c hc hopen hkind (.inr ⟨huid, hon, hmode, s, hs, r, hr, hlt⟩))
      · refine .inr ⟨_, rfl, ?_⟩
        exact hold.of_newer hchoice (hkind ▸ hmode) hlt fun h => absurd h hon
    · simp only [if_neg hlt]
      exact .inr ⟨r, rfl, hold⟩

/-- Fields that are merged keep what stands at the winner. -/
lemma stands_mergedFields {c : ConflictRow} (dst : String) (l : Option EntityRow)
    (hold : r.Stands c) : ∃ r' ∈ mergedFields dst l (some r), r'.Stands c := by
  cases l with
  | none => exact ⟨r, rfl, hold⟩
  | some l =>
    refine ⟨_, rfl, hold.of_fields ⟨rfl, rfl, rfl⟩ rfl fun f hf => ?_⟩
    dsimp only [Option.getD_some]
    rw [lookup_mergeFieldRows, hf]
    cases l.fields.lookup c.field with
    | none => exact ⟨f, rfl, .inl rfl⟩
    | some g =>
      rcases le_or_gt g.hlc f.hlc with hle | hlt
      · exact ⟨f, Lww.put_of_le hle, .inl rfl⟩
      · exact ⟨g, Lww.put_of_lt hlt, .inr hlt⟩

/-- A merged row is a tombstone with a clock if it is one. -/
lemma clockSet_mergedByMode (h : m.Sound dead) (hstate : kind.IsState)
    (src dst bookUid : String) :
    (∀ r ∈ mergedRow bookUid (m.entities.lookup (kind, src)) (m.entities.lookup (kind, dst)),
      r.ClockSet) ∧
    ∀ r ∈ mergedFields bookUid (m.entities.lookup (kind, src)) (m.entities.lookup (kind, dst)),
      r.ClockSet := by
  have hsrc := h.clocks kind src hstate
  have hdst := h.clocks kind dst hstate
  cases hs : m.entities.lookup (kind, src) with
  | none =>
    rw [hs] at hsrc
    exact ⟨hdst, hdst⟩
  | some s =>
    have hs' : s.ClockSet := hsrc s hs
    cases hd : m.entities.lookup (kind, dst) with
    | none =>
      constructor
      · rintro _ ⟨⟩
        exact hs'
      · rintro _ ⟨⟩
        exact hs'
    | some d =>
      have hd' : d.ClockSet := hdst d hd
      constructor
      · intro r hr
        have hrow := Option.some.inj hr
        split_ifs at hrow
        · subst hrow
          exact hs'
        · subst hrow
          exact hd'
      · rintro _ ⟨⟩
        exact hd'

/-- **Moving one row.** The row at `src` is folded into the one at `dst`, and nothing else that
open conflicts are about changes. -/
lemma Sound.moved {src dst : String} {merged : Option EntityRow} (h : m.Sound dead)
    (hspares : m.Spares dead kind src dst) (hconflicts : m'.conflicts = m.conflicts)
    (hrows : ∀ k, m'.entities.lookup k = if k = (kind, src) then none
      else if k = (kind, dst) then merged else m.entities.lookup k)
    (hset : kind.IsState → ∀ r ∈ merged, r.ClockSet)
    (hstands : ∀ c ∈ m.conflicts, c.resolvedAt = false → c.IsChoice →
      (c.kind, c.entityUid) = (kind, dst) → ∀ r, m.entities.lookup (kind, dst) = some r →
        r.Stands c → dead c ∨ ∃ r' ∈ merged, r'.Stands c) : m'.Sound dead := by
  refine ⟨fun c hc hopen => ?_, fun kind' uid hstate r hr => ?_⟩
  · rw [hconflicts] at hc
    rcases h.choices c hc hopen with hdead | ⟨hchoice, r, hr, hold⟩
    · exact .inl hdead
    · rw [hrows]
      split_ifs with hsrc hdst
      · obtain ⟨hkind, huid⟩ := Prod.mk.inj hsrc
        exact .inl (hspares c hc hopen hkind (.inl huid))
      · refine (hstands c hc hopen hchoice hdst r (hdst ▸ hr) hold).imp id fun hnew => ?_
        exact ⟨hchoice, hnew⟩
      · exact .inr ⟨hchoice, r, hr, hold⟩
  · rw [hrows] at hr
    split_ifs at hr with hsrc hdst
    · cases hr
    · exact hset ((Prod.mk.inj hdst).1 ▸ hstate) r hr
    · exact h.clocks kind' uid hstate r hr

lemma Sound.mergeEntityUid {src dst : String} (h : m.Sound dead)
    (hmode : kind.mergeMode = .entity) (hspares : src ≠ dst → m.Spares dead kind src dst)
    (bookUid : String) : (m.mergeEntityUid kind src dst bookUid).Sound dead := by
  by_cases hsame : src = dst
  · unfold Mirror.mergeEntityUid
    rw [if_pos hsame]
    exact h
  · refine h.moved (hspares hsame) (conflicts_mergeEntityUid ..)
      (fun k => lookup_mergeEntityUid hsame k)
      (fun hstate => (clockSet_mergedByMode h hstate ..).1) ?_
    intro c hc hopen hchoice hkey r hr hold
    exact stands_mergedRow hmode (hspares hsame) hc hopen hkey hchoice hr hold

lemma Sound.mergeSelfKeyed {loser winner : String} (h : m.Sound dead) (hne : loser ≠ winner)
    (hspares : m.Spares dead kind loser winner) :
    (m.mergeSelfKeyed kind loser winner).Sound dead := by
  refine h.moved hspares (conflicts_mergeSelfKeyed ..) (fun k => lookup_mergeSelfKeyed hne k) ?_ ?_
  · intro hstate
    have hset := clockSet_mergedByMode h hstate loser winner winner
    unfold mergedByMode
    cases kind.mergeMode with
    | entity => exact hset.1
    | field => exact hset.2
  · intro c hc hopen hchoice hkey r hr hold
    unfold mergedByMode
    cases hmode : kind.mergeMode with
    | entity => exact stands_mergedRow hmode hspares hc hopen hkey hchoice hr hold
    | field =>
      dsimp only
      rw [hr]
      exact .inr (stands_mergedFields _ _ hold)

/-- The book that a row names is part of no register. -/
lemma Sound.mapBookUid (h : m.Sound dead) (f : Option String → Option String) :
    ({ m with entities := m.entities.mapRows fun _ (r : EntityRow) =>
      { r with bookUid := f r.bookUid } } : Mirror).Sound dead := by
  refine ⟨fun c hc hopen => ?_, fun kind uid hstate r hr => ?_⟩
  · refine (h.choices c hc hopen).imp id fun ⟨hchoice, r, hr, hold⟩ => ⟨hchoice, ?_⟩
    refine ⟨{ r with bookUid := f r.bookUid }, ?_, hold⟩
    rw [Table.lookup_mapRows, show m.entities.lookup _ = some r from hr]
    rfl
  · rw [Table.lookup_mapRows] at hr
    obtain ⟨r₀, hr₀, rfl⟩ := Option.map_eq_some_iff.mp hr
    exact h.clocks kind uid hstate r₀ hr₀

/-! ## Identity merges -/

/-- The uid that `rekeyMembershipBook` moves a membership to. -/
def underBook (winner uid : String) : String :=
  match rsplitOnce ':' uid with
  | some (collection, _) => collection ++ ":" ++ winner
  | none => uid

/-- The uid that `rekeyMembershipCollection` moves a membership to. -/
def underCollection (winner uid : String) : String :=
  match rsplitOnce ':' uid with
  | some (_, book) => winner ++ ":" ++ book
  | none => uid

/-- Each of the memberships that `move` takes to its target, one after the other, is spared. -/
def SparesEach (dead : ConflictRow → Prop) (target : String → String)
    (move : Mirror → String → Mirror) : Mirror → List String → Prop
  | _, [] => True
  | m, uid :: uids => (uid ≠ target uid → m.Spares dead .membership uid (target uid)) ∧
      SparesEach dead target move (move m uid) uids

/-- Merging the rows of two books spares the open choices. -/
def SparesBook (dead : ConflictRow → Prop) (m : Mirror) (loser winner : String) : Prop :=
  let moved := m.mergeBookSelfKeyed loser winner
  (∀ kind, kind.IsSelfKeyed → m.Spares dead kind loser winner) ∧
    SparesEach dead (underBook winner) (rekeyMembershipBook winner) moved
      (moved.membershipsOfBook winner)

/-- Merging the rows of two collections spares the open choices. -/
def SparesCollection (dead : ConflictRow → Prop) (m : Mirror) (loser winner : String) : Prop :=
  let moved := m.mergeCollectionFields loser winner
  m.Spares dead .collection loser winner ∧
    SparesEach dead (underCollection winner) (rekeyMembershipCollection winner) moved
      (moved.membershipsLike loser)

lemma Sound.foldl_move {target : String → String} {move : Mirror → String → Mirror}
    (hmove : ∀ (m : Mirror) uid, m.Sound dead →
      (uid ≠ target uid → m.Spares dead .membership uid (target uid)) → (move m uid).Sound dead)
    {uids : List String} (h : m.Sound dead) (hspares : SparesEach dead target move m uids) :
    (uids.foldl move m).Sound dead := by
  induction uids generalizing m with
  | nil => exact h
  | cons uid uids ih => exact ih (hmove m uid h hspares.1) hspares.2

lemma Sound.rekeyMembershipBook {winner : String} (h : m.Sound dead)
    (hspares : uid ≠ underBook winner uid → m.Spares dead .membership uid (underBook winner uid)) :
    (m.rekeyMembershipBook winner uid).Sound dead := by
  unfold underBook at hspares
  unfold Mirror.rekeyMembershipBook
  cases hsplit : rsplitOnce ':' uid with
  | none => exact h
  | some parts =>
    rw [hsplit] at hspares
    exact h.mergeEntityUid rfl hspares _

lemma Sound.rekeyMembershipCollection {winner : String} (h : m.Sound dead)
    (hspares : uid ≠ underCollection winner uid →
      m.Spares dead .membership uid (underCollection winner uid)) :
    (m.rekeyMembershipCollection winner uid).Sound dead := by
  unfold underCollection at hspares
  unfold Mirror.rekeyMembershipCollection
  cases hsplit : rsplitOnce ':' uid with
  | none => exact h
  | some parts =>
    rw [hsplit] at hspares
    exact h.mergeEntityUid rfl hspares _

lemma Sound.mergeBookSelfKeyed {loser winner : String} (h : m.Sound dead) (hne : loser ≠ winner)
    (hspares : ∀ kind, kind.IsSelfKeyed → m.Spares dead kind loser winner) :
    (m.mergeBookSelfKeyed loser winner).Sound dead := by
  have hother : ∀ (m : Mirror) (kind kind' : EntityKind), kind' ≠ kind → ∀ uid,
      (m.mergeSelfKeyed kind loser winner).entities.lookup (kind', uid) =
        m.entities.lookup (kind', uid) := by
    intro m kind kind' hkind uid
    have hkey : ∀ uid', (kind', uid) ≠ (kind, uid') := fun _ h => hkind (Prod.mk.inj h).1
    rw [lookup_mergeSelfKeyed hne, if_neg (hkey _), if_neg (hkey _)]
  have hprogress := h.mergeSelfKeyed hne (hspares .progress (by decide))
  have hmetadata := hprogress.mergeSelfKeyed hne ((hspares .metadata (by decide)).congr
    (conflicts_mergeSelfKeyed ..) (hother m .progress .metadata (by decide)))
  have hopened := hmetadata.mergeSelfKeyed hne (((hspares .opened (by decide)).congr
    (conflicts_mergeSelfKeyed ..) (hother m .progress .opened (by decide))).congr
    (conflicts_mergeSelfKeyed ..) (hother _ .metadata .opened (by decide)))
  exact hopened.mapBookUid (replaceUid loser winner)

/-- **Merging two books** keeps a choice behind every open conflict that it spares. -/
theorem Sound.mergeBookRows {loser winner : String} (h : m.Sound dead) (hne : loser ≠ winner)
    (hspares : (m.mergeBookStart loser winner).SparesBook dead loser winner) :
    (m.mergeBookRows loser winner).Sound dead := by
  obtain ⟨hself, heach⟩ := hspares
  have hstart : (m.mergeBookStart loser winner).Sound dead := h.same ⟨rfl, fun _ _ _ => rfl⟩
  have hmoved := (hstart.mergeBookSelfKeyed hne hself).foldl_move
    (fun m uid hm hspares => hm.rekeyMembershipBook hspares) heach
  exact hmoved.same ⟨rfl, fun _ _ _ => rfl⟩

lemma Sound.mergeCollectionFields {loser winner : String} (h : m.Sound dead)
    (hne : loser ≠ winner) (hspares : m.Spares dead .collection loser winner) :
    (m.mergeCollectionFields loser winner).Sound dead := by
  have hkeys : (EntityKind.collection, winner) ≠ (EntityKind.collection, loser) :=
    fun h => hne (Prod.mk.inj h).2.symm
  have hrows : ∀ k, (m.mergeCollectionFields loser winner).entities.lookup k =
      if k = (.collection, loser) then none
      else if k = (.collection, winner) then
        some { m.row .collection winner with
          fields := mergeFieldRows (m.row .collection loser).fields
            (m.row .collection winner).fields }
      else m.entities.lookup k := by
    intro k
    unfold Mirror.mergeCollectionFields
    dsimp only
    rw [lookup_eraseRow, lookup_setRow]
  refine h.moved hspares rfl hrows (fun hstate r hr => ?_) fun c _ _ _ _ r hr hold => .inr ?_
  · rw [← Option.some.inj hr]
    unfold Mirror.row
    cases hw : m.entities.lookup (.collection, winner) with
    | none => exact fun hdead => by cases hdead
    | some w => exact h.clocks .collection winner hstate w hw
  · rw [row_of_lookup hr]
    exact stands_mergedFields winner (some (m.row .collection loser)) hold

/-- **Merging two collections** keeps a choice behind every open conflict that it spares. -/
theorem Sound.mergeCollectionIdentity {loser winner : String} (h : m.Sound dead)
    (hspares : loser ≠ winner → (m.joinCollections loser winner).SparesCollection dead loser
      winner) : (m.mergeCollectionIdentity loser winner).Sound dead := by
  unfold Mirror.mergeCollectionIdentity
  by_cases hsame : loser = winner
  · rw [if_pos hsame]
    exact h
  obtain ⟨hspared, heach⟩ := hspares hsame
  have hjoin : (m.joinCollections loser winner).Sound dead := h.same ⟨rfl, fun _ _ _ => rfl⟩
  have hmoved := (hjoin.mergeCollectionFields hsame hspared).foldl_move
    (fun m uid hm hspares => hm.rekeyMembershipCollection hspares) heach
  rw [if_neg hsame]
  exact hmoved.same ⟨rfl, fun _ _ _ => rfl⟩

end Mirror

end TuxBooks
