import TuxBooks.Device.Emit
import TuxBooks.Sync.DeadChoices

set_option relaxedAutoImplicit false
set_option autoImplicit false

/-!
# The clocks of the mirror

Every clock in an entity row is that of an operation that was applied, and applying it moved the
stored clock past it. So whatever a device has received, a clock that it draws next is newer than
all of them, and an operation under that clock takes effect in any row that is not deleted.

## Main definitions

* `TuxBooks.EntityRow.ClocksIn`, `TuxBooks.Mirror.ClocksIn` — the clocks of a row, and of all rows,
  are in a set.
* `TuxBooks.EntityRow.Shines` — a live row that has the fields of an operation under its clock.

## Main results

* `TuxBooks.EntityRow.shines_upsert` — an operation under a newer clock takes effect.
* `TuxBooks.Mirror.ClocksIn.applyOp`, `TuxBooks.Mirror.ClocksIn.mergeBookIdentity`,
  `TuxBooks.Mirror.ClocksIn.mergeCollectionIdentity` — the clocks of the rows are old ones or that
  of the operation.
-/

namespace TuxBooks

/-! ## One row -/

namespace EntityRow

/-- Every clock of the row is in `S`. -/
structure ClocksIn (S : Set Hlc) (r : EntityRow) : Prop where
  hlc : r.hlc ∈ S
  deleted : ∀ d ∈ r.deletedClock, d ∈ S
  restored : ∀ d ∈ r.restoredClock, d ∈ S
  fields : ∀ f w, r.fields.lookup f = some w → w.hlc ∈ S

variable {S : Set Hlc} {r w : EntityRow} {op : Op}

lemma clocksIn_default (hzero : Hlc.zero ∈ S) : ({} : EntityRow).ClocksIn S where
  hlc := hzero
  deleted _ hd := nomatch hd
  restored _ hd := nomatch hd
  fields f w hw := by simp at hw

lemma ClocksIn.mono {T : Set Hlc} (h : r.ClocksIn S) (hST : S ⊆ T) : r.ClocksIn T :=
  ⟨hST h.hlc, fun d hd => hST (h.deleted d hd), fun d hd => hST (h.restored d hd),
    fun f w hw => hST (h.fields f w hw)⟩

lemma ClocksIn.touch (h : r.ClocksIn S) (bookUid : Option String) :
    (r.touch bookUid).ClocksIn S := ⟨h.hlc, h.deleted, h.restored, h.fields⟩

lemma ClocksIn.putField (h : r.ClocksIn S) (hop : op.hlc ∈ S) (field : String) (value : Value) :
    (r.putField op field value).ClocksIn S := by
  have hflags := sameFlags_putField op r field value
  refine ⟨?_, ?_, ?_, fun f w hw => ?_⟩
  · unfold EntityRow.putField
    split
    · split_ifs <;> exact h.hlc
    · exact h.hlc
  · rw [hflags.deletedClock]
    exact h.deleted
  · rw [hflags.restoredClock]
    exact h.restored
  · rw [lookup_putField] at hw
    split_ifs at hw
    · rcases Lww.eq_or_eq_of_put hw with hold | rfl
      · exact h.fields f w hold
      · exact hop
    · exact h.fields f w hw

lemma ClocksIn.put (h : r.ClocksIn S) (hop : op.hlc ∈ S) : (r.put op).ClocksIn S := by
  unfold EntityRow.put
  split
  · generalize op.fields.entries = entries
    induction entries generalizing r with
    | nil => exact h
    | cons e entries ih => exact ih (h.putField hop e.1 e.2)
  · split_ifs
    · exact h
    · refine ⟨hop, h.deleted, h.restored, fun f w hw => ?_⟩
      rw [Table.lookup_mapRows] at hw
      obtain ⟨value, -, rfl⟩ := Option.map_eq_some_iff.mp hw
      exact hop

lemma ClocksIn.revive (h : r.ClocksIn S) (hop : op.hlc ∈ S) : (r.revive op).ClocksIn S :=
  ⟨h.hlc, h.deleted, fun _ hd => Option.some.inj hd ▸ hop, h.fields⟩

lemma ClocksIn.kill (h : r.ClocksIn S) (hop : op.hlc ∈ S) : (r.kill op).ClocksIn S :=
  ⟨h.hlc, fun _ hd => Option.some.inj hd ▸ hop, h.restored, h.fields⟩

/-- **A state operation puts no clock but its own into the row.** -/
theorem ClocksIn.step (h : r.ClocksIn S) (hop : op.hlc ∈ S) (bookUid : Option String) :
    (r.step op bookUid).ClocksIn S := by
  have htouch := h.touch bookUid
  unfold EntityRow.step EntityRow.delete EntityRow.upsert
  split_ifs
  · exact htouch
  · exact htouch
  · exact htouch
  · exact htouch.kill hop
  · exact htouch
  · exact (htouch.revive hop).put hop
  · exact htouch
  · exact htouch.put hop

lemma ClocksIn.mergeFields (h : r.ClocksIn S) (hw : w.ClocksIn S) :
    ({ w with fields := mergeFieldRows r.fields w.fields } : EntityRow).ClocksIn S := by
  refine ⟨hw.hlc, hw.deleted, hw.restored, fun f x hx => ?_⟩
  rw [lookup_mergeFieldRows] at hx
  rcases Lww.eq_or_eq_of_join hx with hold | hnew
  · exact hw.fields f x hold
  · exact h.fields f x hnew

/-! ## An operation that takes effect -/

/-- The row is live and has the fields under the clock. -/
structure Shines (fields : Fields) (clock : Hlc) (r : EntityRow) : Prop where
  live : r.deleted = false
  fields : ∀ f v, fields.lookup f = some v → r.fields.lookup f = some ⟨v, clock⟩

lemma shines_put (hhlc : r.hlc < op.hlc)
    (hfields : ∀ f w, r.fields.lookup f = some w → w.hlc < op.hlc) (hlive : r.deleted = false) :
    (r.put op).Shines op.fields op.hlc := by
  refine ⟨(sameFlags_put op r).deleted.trans hlive, fun f v hv => ?_⟩
  cases hmode : op.kind.mergeMode with
  | field =>
    have hwrite : op.write f = some ⟨v, op.hlc⟩ := by rw [Op.write, hv, Option.map_some]
    rw [lookup_fields_put hmode, hwrite]
    exact Lww.put_of_forall_lt fun w hw => hfields f w hw
  | entity =>
    unfold EntityRow.put
    rw [hmode]
    dsimp only
    rw [if_neg (not_le.mpr hhlc), Table.lookup_mapRows, hv, Option.map_some]

/-- The clock of a nullable column is below what the column is below. -/
lemma getD_stored_lt {clock : Option Hlc} {h : Hlc} (hclock : ∀ d ∈ clock, d < h)
    (hzero : Hlc.zero < h) : (clock.bind Hlc.stored).getD Hlc.zero < h := by
  cases clock with
  | none => exact hzero
  | some d =>
    rw [Option.bind_some, Hlc.stored]
    split_ifs
    · exact hclock d rfl
    · exact hzero

/-- An upsert under a newer clock is written, unless it would have to restore the row. -/
lemma upsert_of_newer (h : r.ClocksIn (Set.Iio op.hlc)) (hzero : Hlc.zero < op.hlc)
    (hlive : r.deleted = true → op.restore = true) :
    r.upsert op = (if r.deleted = true then r.revive op else r).put op := by
  unfold EntityRow.upsert
  by_cases hdel : r.deleted = true
  · have hrestored : r.restoreClock < op.hlc := getD_stored_lt h.restored hzero
    have hdead : r.deleteClock < op.hlc := getD_stored_lt h.deleted hzero
    rw [if_pos hdel, if_neg (not_not.mpr (hlive hdel)),
      if_neg (not_or.mpr ⟨hrestored.not_gt, hdead.not_ge⟩), if_pos hdel]
  · rw [if_neg hdel, if_neg hdel]

/-- **An upsert under a newer clock takes effect**, unless it would have to restore the row. -/
theorem shines_upsert (h : r.ClocksIn (Set.Iio op.hlc)) (hzero : Hlc.zero < op.hlc)
    (hlive : r.deleted = true → op.restore = true) : (r.upsert op).Shines op.fields op.hlc := by
  rw [upsert_of_newer h hzero hlive]
  split_ifs with hdel
  · exact shines_put h.hlc h.fields rfl
  · exact shines_put h.hlc h.fields (Bool.not_eq_true _ ▸ hdel)

/-- The other fields of a kind whose fields merge on their own are as before. -/
lemma value_upsert_of_newer (h : r.ClocksIn (Set.Iio op.hlc)) (hzero : Hlc.zero < op.hlc)
    (hlive : r.deleted = true → op.restore = true) (hmode : op.kind.mergeMode = .field)
    (field : String) :
    (r.upsert op).value field = (op.fields.lookup field).getD (r.value field) := by
  have hput : ∀ r' : EntityRow, r'.hlc = r.hlc → r'.fields = r.fields →
      (r'.put op).value field = (op.fields.lookup field).getD (r.value field) := by
    intro r' hhlc hfields
    rw [value_put (hhlc ▸ h.hlc) (hfields ▸ h.fields), hmode]
    cases op.fields.lookup field with
    | some v => rfl
    | none =>
      unfold value
      rw [hfields]
      rfl
  rw [upsert_of_newer h hzero hlive]
  split_ifs
  · exact hput _ rfl rfl
  · exact hput _ rfl rfl

end EntityRow

/-! ## All rows -/

namespace Mirror

/-- The clocks of every row are in `S`. -/
def ClocksIn (S : Set Hlc) (m : Mirror) : Prop :=
  ∀ k, ∀ r ∈ m.entities.lookup k, r.ClocksIn S

variable {S : Set Hlc} {m m' : Mirror} {kind : EntityKind} {uid loser winner : String}
  {r : EntityRow} {op : Op}

lemma ClocksIn.mono {T : Set Hlc} (h : m.ClocksIn S) (hST : S ⊆ T) : m.ClocksIn T :=
  fun k r hr => (h k r hr).mono hST

lemma ClocksIn.row (h : m.ClocksIn S) (hzero : Hlc.zero ∈ S) (kind : EntityKind) (uid : String) :
    (m.row kind uid).ClocksIn S := by
  unfold Mirror.row
  cases hrow : m.entities.lookup (kind, uid) with
  | none => exact EntityRow.clocksIn_default hzero
  | some r => exact h _ r hrow

lemma ClocksIn.wrote {k : EntityKind × String} (h : m.ClocksIn S) (hr : r.ClocksIn S)
    (hwrote : m.Wrote k r m') : m'.ClocksIn S := by
  intro k' r' hr'
  rw [hwrote.lookup] at hr'
  split_ifs at hr'
  · exact Option.some.inj hr' ▸ hr
  · exact h k' r' hr'

lemma ClocksIn.setRow (h : m.ClocksIn S) (hr : r.ClocksIn S) : (m.setRow kind uid r).ClocksIn S :=
  h.wrote hr (wrote_setRow ..)

lemma ClocksIn.eraseRow (h : m.ClocksIn S) : (m.eraseRow kind uid).ClocksIn S := by
  intro k r hr
  rw [lookup_eraseRow] at hr
  split_ifs at hr
  · cases hr
  · exact h k r hr

/-- A row that took the place of two. -/
lemma ClocksIn.moved {merged : Option EntityRow} (h : m.ClocksIn S)
    (hmerged : ∀ r ∈ merged, r.ClocksIn S)
    (hlookup : ∀ k, m'.entities.lookup k = if k = (kind, loser) then none
      else if k = (kind, winner) then merged else m.entities.lookup k) : m'.ClocksIn S := by
  intro k r hr
  rw [hlookup] at hr
  split_ifs at hr
  · cases hr
  · exact hmerged r hr
  · exact h k r hr

lemma clocksIn_mergedRow {l w : Option EntityRow} (hl : ∀ r ∈ l, r.ClocksIn S)
    (hw : ∀ r ∈ w, r.ClocksIn S) (bookUid : String) :
    ∀ r ∈ mergedRow bookUid l w, r.ClocksIn S := by
  intro r hr
  cases l with
  | none => exact hw r hr
  | some l =>
    have hrow := hl l rfl
    cases w with
    | none =>
      cases hr
      exact ⟨hrow.hlc, hrow.deleted, hrow.restored, hrow.fields⟩
    | some w =>
      cases hr
      split_ifs
      · exact ⟨hrow.hlc, hrow.deleted, hrow.restored, hrow.fields⟩
      · exact hw w rfl

lemma ClocksIn.mergeEntityUid (h : m.ClocksIn S) (src dst bookUid : String) :
    (m.mergeEntityUid kind src dst bookUid).ClocksIn S := by
  by_cases hne : src = dst
  · rw [Mirror.mergeEntityUid, if_pos hne]
    exact h
  · exact h.moved (clocksIn_mergedRow (h _) (h _) bookUid) fun k => lookup_mergeEntityUid hne k

lemma ClocksIn.mergeSelfKeyed (h : m.ClocksIn S) (hne : loser ≠ winner) :
    (m.mergeSelfKeyed kind loser winner).ClocksIn S := by
  refine h.moved (fun r hr => ?_) fun k => lookup_mergeSelfKeyed hne k
  unfold mergedByMode at hr
  cases hmode : kind.mergeMode with
  | entity =>
    rw [hmode] at hr
    exact clocksIn_mergedRow (h _) (h _) winner r hr
  | field =>
    rw [hmode] at hr
    cases hl : m.entities.lookup (kind, loser) with
    | none =>
      rw [hl] at hr
      exact h _ r hr
    | some l =>
      rw [hl] at hr
      cases hr
      have hrow := h _ l hl
      refine hrow.mergeFields ?_
      cases hw : m.entities.lookup (kind, winner) with
      | none =>
        rw [Option.getD_none]
        refine ⟨hrow.hlc, hrow.deleted, hrow.restored, fun f w hw => ?_⟩
        simp at hw
      | some w => exact h _ w hw

lemma ClocksIn.foldl {move : Mirror → String → Mirror}
    (hmove : ∀ m uid, m.ClocksIn S → (move m uid).ClocksIn S) (h : m.ClocksIn S)
    (uids : List String) : (uids.foldl move m).ClocksIn S := by
  induction uids generalizing m with
  | nil => exact h
  | cons uid uids ih => exact ih (hmove m uid h)

/-- **A book merge moves the clocks of the rows.** -/
theorem ClocksIn.mergeBookIdentity (h : m.ClocksIn S) (loser winner : String) :
    (m.mergeBookIdentity loser winner).ClocksIn S := by
  rw [mergeBookIdentity_eq]
  cases hmerge : m.bookMerge loser winner with
  | none => exact h
  | some p =>
    have hne := ne_of_bookMerge hmerge
    have hstart : (m.mergeBookStart p.1 p.2).ClocksIn S := h
    have hself : ((m.mergeBookStart p.1 p.2).mergeBookSelfKeyed p.1 p.2).ClocksIn S := by
      have hprogress : ((m.mergeBookStart p.1 p.2).mergeSelfKeyed .progress p.1 p.2).ClocksIn S :=
        hstart.mergeSelfKeyed hne
      have hmetadata : (((m.mergeBookStart p.1 p.2).mergeSelfKeyed .progress p.1 p.2).mergeSelfKeyed
          .metadata p.1 p.2).ClocksIn S := hprogress.mergeSelfKeyed hne
      have hmerged : ((((m.mergeBookStart p.1 p.2).mergeSelfKeyed .progress p.1 p.2).mergeSelfKeyed
          .metadata p.1 p.2).mergeSelfKeyed .opened p.1 p.2).ClocksIn S :=
        hmetadata.mergeSelfKeyed hne
      intro k r hr
      unfold mergeBookSelfKeyed at hr
      dsimp only at hr
      rw [Table.lookup_mapRows] at hr
      obtain ⟨r₀, hr₀, rfl⟩ := Option.map_eq_some_iff.mp hr
      have hrow := hmerged k r₀ hr₀
      exact ⟨hrow.hlc, hrow.deleted, hrow.restored, hrow.fields⟩
    refine ClocksIn.foldl (fun m uid hm => ?_) hself _
    unfold rekeyMembershipBook
    split
    · exact hm.mergeEntityUid _ _ _
    · exact hm

/-- **A collection merge moves the clocks of the rows.** -/
theorem ClocksIn.mergeCollectionIdentity (h : m.ClocksIn S) (hzero : Hlc.zero ∈ S)
    (loser winner : String) : (m.mergeCollectionIdentity loser winner).ClocksIn S := by
  by_cases hsame : loser = winner
  · rw [Mirror.mergeCollectionIdentity, if_pos hsame]
    exact h
  rw [mergeCollectionIdentity_of_ne hsame]
  have hjoin : (m.joinCollections loser winner).ClocksIn S := h
  have hfields : ((m.joinCollections loser winner).mergeCollectionFields loser winner).ClocksIn
      S := by
    refine ClocksIn.eraseRow (hjoin.setRow ?_)
    exact (hjoin.row hzero .collection loser).mergeFields (hjoin.row hzero .collection winner)
  refine ClocksIn.foldl (fun m uid hm => ?_) hfields _
  unfold rekeyMembershipCollection
  split
  · exact hm.mergeEntityUid _ _ _
  · exact hm

/-- Moving memberships changes no collection. -/
lemma collections_foldl_rekey (winner : String) (uids : List String) (m : Mirror) :
    (∀ uid, (uids.foldl (rekeyMembershipCollection winner) m).entities.lookup (.collection, uid) =
        m.entities.lookup (.collection, uid)) ∧
      (uids.foldl (rekeyMembershipCollection winner) m).entityMerges = m.entityMerges := by
  have hmove (m : Mirror) (src dst book : String) :
      (∀ uid, (m.mergeEntityUid .membership src dst book).entities.lookup (.collection, uid) =
          m.entities.lookup (.collection, uid)) ∧
        (m.mergeEntityUid .membership src dst book).entityMerges = m.entityMerges := by
    refine ⟨fun uid => ?_, (onlyEntities_mergeEntityUid ..).entityMerges⟩
    by_cases hsame : src = dst
    · rw [Mirror.mergeEntityUid, if_pos hsame]
    · rw [lookup_mergeEntityUid hsame, if_neg (by simp), if_neg (by simp)]
  induction uids generalizing m with
  | nil => exact ⟨fun _ => rfl, rfl⟩
  | cons key uids ih =>
    obtain ⟨hrows, hmerges⟩ := ih (rekeyMembershipCollection winner m key)
    unfold rekeyMembershipCollection at hrows hmerges
    cases hsplit : rsplitOnce ':' key with
    | none =>
      rw [hsplit] at hrows hmerges
      refine ⟨fun uid => ?_, ?_⟩ <;> rw [List.foldl_cons, rekeyMembershipCollection, hsplit]
      · exact hrows uid
      · exact hmerges
    | some p =>
      rw [hsplit] at hrows hmerges
      obtain ⟨hrow, hmerge⟩ := hmove m key (winner ++ ":" ++ p.2) p.2
      refine ⟨fun uid => ?_, ?_⟩ <;> rw [List.foldl_cons, rekeyMembershipCollection, hsplit]
      · exact (hrows uid).trans (hrow uid)
      · exact hmerges.trans hmerge

/-- A collection merge combines the rows of the two collections. -/
lemma lookup_collection_mergeCollectionIdentity (hne : loser ≠ winner) (uid : String) :
    (m.mergeCollectionIdentity loser winner).entities.lookup (.collection, uid) =
      if uid = loser then none
      else if uid = winner then
        some { m.row .collection winner with
          fields := mergeFieldRows (m.row .collection loser).fields
            (m.row .collection winner).fields }
      else m.entities.lookup (.collection, uid) := by
  rw [mergeCollectionIdentity_of_ne hne]
  refine ((collections_foldl_rekey winner _ _).1 uid).trans ?_
  rw [mergeCollectionFields, lookup_eraseRow, lookup_setRow]
  simp only [Prod.mk.injEq, true_and]
  rfl

/-- The mirror has the entity of row `key` under `uid`: a collection may have been merged. -/
def KeepsAs (m : Mirror) (kind : EntityKind) (key uid : String) : Prop :=
  uid = key ∨ kind = .collection ∧ m.entityMerges.lookup (.collection, key) = some uid

/-- **A collection that was just written survives a merge**, if the winner is not deleted. -/
theorem shines_mergeCollectionIdentity {fields : Fields} {clock : Hlc} {key : String}
    (h : (m.row .collection key).Shines fields clock)
    (hothers : ∀ uid ≠ key, (m.row .collection uid).ClocksIn (Set.Iio clock))
    (hwinner : (m.row .collection winner).deleted = false) :
    ∃ uid, (m.mergeCollectionIdentity loser winner).KeepsAs .collection key uid ∧
      ((m.mergeCollectionIdentity loser winner).row .collection uid).Shines fields clock := by
  by_cases hsame : loser = winner
  · rw [Mirror.mergeCollectionIdentity, if_pos hsame]
    exact ⟨key, .inl rfl, h⟩
  have hrow (uid : String) : (m.mergeCollectionIdentity loser winner).row .collection uid =
      ((m.mergeCollectionIdentity loser winner).entities.lookup (.collection, uid)).getD {} := rfl
  have hlookup := lookup_collection_mergeCollectionIdentity (m := m) hsame
  have hjoined (hfields : ∀ f v, fields.lookup f = some v →
      (mergeFieldRows (m.row .collection loser).fields (m.row .collection winner).fields).lookup f =
        some ⟨v, clock⟩) :
      ((m.mergeCollectionIdentity loser winner).row .collection winner).Shines fields clock := by
    rw [hrow, hlookup, if_neg (Ne.symm hsame), if_pos rfl, Option.getD_some]
    exact ⟨hwinner, hfields⟩
  by_cases hloser : key = loser
  · subst hloser
    refine ⟨winner, .inr ⟨rfl, ?_⟩, hjoined fun f v hv => ?_⟩
    · rw [mergeCollectionIdentity_of_ne hsame]
      dsimp only
      rw [(collections_foldl_rekey winner _ _).2]
      exact AList.lookup_insert m.entityMerges
    · rw [lookup_mergeFieldRows, h.fields f v hv]
      exact Lww.put_of_forall_lt fun w hw => (hothers winner (Ne.symm hsame)).fields f w hw
  refine ⟨key, .inl rfl, ?_⟩
  by_cases hkey : key = winner
  · subst hkey
    refine hjoined fun f v hv => ?_
    rw [lookup_mergeFieldRows, h.fields f v hv]
    exact Lww.join_of_forall_lt fun w hw => (hothers loser hsame).fields f w hw
  · rw [hrow, hlookup, if_neg hloser, if_neg hkey]
    exact h

/-! ## Operations -/

lemma ClocksIn.applyStateOp (h : m.ClocksIn S) (hzero : Hlc.zero ∈ S) (hop : op.hlc ∈ S) :
    (m.applyStateOp op).1.ClocksIn S := by
  cases hkey : m.stateKey op with
  | error e =>
    unfold Mirror.applyStateOp
    rw [hkey]
    exact h
  | ok uid =>
    exact h.wrote ((h.row hzero op.kind uid).step hop _) (wrote_applyStateOp m hkey)

lemma ClocksIn.insert (h : m.ClocksIn S) (hr : r.ClocksIn S)
    (hentities : m'.entities = m.entities.insert (kind, uid) r) : m'.ClocksIn S := by
  intro k r' hr'
  rw [hentities, Table.lookup_insert'] at hr'
  split_ifs at hr'
  · exact Option.some.inj hr' ▸ hr
  · exact h k r' hr'

lemma ClocksIn.recordConflict (h : m.ClocksIn S) (kind : EntityKind) (uid field : String)
    (winner loser : Value) (winnerHlc loserHlc : Hlc) :
    (m.recordConflict kind uid field winner loser winnerHlc loserHlc).ClocksIn S := by
  unfold ClocksIn
  rw [entities_recordConflict]
  exact h

lemma ClocksIn.applyBook (fromStr : String → Option Value) (h : m.ClocksIn S)
    (hzero : Hlc.zero ∈ S) (hop : op.hlc ∈ S) : (m.applyBook fromStr op).1.ClocksIn S := by
  rcases applyBook_cases fromStr m op with hsame | hwrites
  · rw [hsame]
    exact h
  · obtain ⟨uid, r, hentities, hhlc, hfields, hdeleted, hrestored⟩ := hwrites.row
    have hrow := h.row hzero .book uid
    refine h.insert ⟨hhlc ▸ hop, fun d hd => ?_, fun d hd => ?_, hfields ▸ hrow.fields⟩ hentities
    · rcases hdeleted with hold | hnew
      · exact hrow.deleted d (hold ▸ hd)
      · rw [hnew] at hd
        exact Option.some.inj hd ▸ hop
    · rcases hrestored with hold | hnew
      · exact hrow.restored d (hold ▸ hd)
      · rw [hnew] at hd
        exact Option.some.inj hd ▸ hop

/-- **An operation puts no clock but its own into the rows.** -/
theorem ClocksIn.applyOp (fromStr : String → Option Value) (h : m.ClocksIn S)
    (hzero : Hlc.zero ∈ S) (hop : op.hlc ∈ S) : (m.applyOp fromStr op).1.ClocksIn S := by
  have hobserve : (m.observeHlc op.hlc).ClocksIn S := h
  unfold Mirror.applyOp
  by_cases hseen : op.opId ∈ m.appliedOps
  · rw [if_pos hseen]
    exact h
  rw [if_neg hseen]
  dsimp only
  split_ifs
  · obtain ⟨aliases, hresult⟩ := exists_applyIdentity (m.observeHlc op.hlc) op
    have happly : ((m.observeHlc op.hlc).applyIdentity op).1.ClocksIn S := by
      rw [hresult]
      cases (m.observeHlc op.hlc).identityMerge op with
      | none => exact hobserve
      | some p => exact hobserve.mergeBookIdentity p.1 p.2
    rcases hres : (m.observeHlc op.hlc).applyIdentity op with ⟨m', _ | _⟩
    · rw [hres] at happly
      exact happly
    · rw [hres] at happly
      exact happly
  · exact hobserve.applyBook fromStr hzero hop
  · exact hobserve
  · have happly := hobserve.applyStateOp hzero hop
    rcases hres : (m.observeHlc op.hlc).applyStateOp op with ⟨m', _ | _⟩
    · rw [hres] at happly
      exact happly
    · rw [hres] at happly
      exact happly

lemma ClocksIn.recordTombstoneConflict (h : m.ClocksIn S) (kind : EntityKind) (uid : String)
    (loser : State) (now : Hlc) : (m.recordTombstoneConflict kind uid loser now).ClocksIn S := by
  unfold Mirror.recordTombstoneConflict
  split_ifs
  · exact h.recordConflict _ _ _ _ _ _ _
  · exact h

end Mirror

end TuxBooks
