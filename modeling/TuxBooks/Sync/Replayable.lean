import TuxBooks.Sync.ClockBounds

set_option relaxedAutoImplicit false
set_option autoImplicit false

/-!
# Choices that can be replayed

The losing side of an open conflict may become an operation again, under a clock that the device
draws then. For that it has to be something that an operation of the kind can carry, and the clock
has to be newer than what the mirror has. Both hold in every state: conflicts are recorded from
operations and captures, and the stored clock has passed whatever was applied.

## Main definitions

* `TuxBooks.ConflictRow.Replayable` — an operation can carry the losing side.
* `TuxBooks.Mirror.Admits` — from one mirror to another, only such conflicts were recorded.
* `TuxBooks.Mirror.Grounded` — the open conflicts are replayable, and new clocks are newest.
* `TuxBooks.ReviewQueue.Legal` — the events of a run.

## Main results

* `TuxBooks.Mirror.admits_applyOp` — what an operation records can be replayed.
* `TuxBooks.ReviewQueue.grounded_of_meets` — every run is grounded.
-/

namespace TuxBooks

/-- The losing side is a value of a field, or an object of fields under a pseudo-field, and the
conflict is about an entity that operations can name. -/
structure ConflictRow.Replayable (c : ConflictRow) : Prop where
  state : c.kind.IsState
  key : c.kind = .membership → ':' ∈ c.entityUid.toList
  loser : c.field ∈ fieldNames c.kind ∨
    (c.field = "__entity__" ∨ c.OnTombstone) ∧ ∃ fields : Fields, c.loser = fields.toValue ∧
      ∀ field v, fields.lookup field = some v → field ∈ fieldNames c.kind

variable {m m' m'' : Mirror} {kind : EntityKind} {uid : String} {op : Op}

/-! ## What operations record -/

namespace Mirror

/-- The clock is as before, and every new conflict can be replayed. -/
structure Admits (m m' : Mirror) : Prop where
  clock : m'.clock = m.clock
  conflicts : ∀ c ∈ m'.conflicts, c ∈ m.conflicts ∨ c.Replayable

lemma admits_none (hclock : m'.clock = m.clock) (hconflicts : m'.conflicts = m.conflicts) :
    m.Admits m' := ⟨hclock, fun _ hc => .inl (hconflicts ▸ hc)⟩

lemma Admits.trans (h : m.Admits m') (h' : m'.Admits m'') : m.Admits m'' :=
  ⟨h'.clock.trans h.clock, fun c hc => (h'.conflicts c hc).elim (h.conflicts c) .inr⟩

lemma clock_recordConflict (m : Mirror) (kind : EntityKind) (uid field : String)
    (winner loser : Value) (winnerHlc loserHlc : Hlc) :
    (m.recordConflict kind uid field winner loser winnerHlc loserHlc).clock = m.clock := by
  unfold recordConflict recordIssue
  dsimp only
  split_ifs <;> rfl

lemma admits_conflict {field : String} {winner loser : Value} {winnerHlc loserHlc : Hlc}
    (h : ConflictRow.Replayable ⟨kind, uid, field, winner, loser, winnerHlc, loserHlc, false⟩) :
    m.Admits (m.recordConflict kind uid field winner loser winnerHlc loserHlc) := by
  refine ⟨clock_recordConflict .., fun c hc => ?_⟩
  rcases mem_conflicts_recordConflict hc with hold | rfl
  · exact .inl hold
  · exact .inr h

section StateOp

variable (haccepted : op.Accepted) (hstate : op.kind.IsState)
variable (hkey : op.kind = .membership → ':' ∈ uid.toList)

include haccepted hstate hkey

lemma admits_object {field : String}
    (hfield : field = "__entity__" ∨ field = "__deleted__" ∨ field = "__restore__")
    (winner : Value) (winnerHlc : Hlc) :
    m.Admits (m.recordConflict op.kind uid field winner op.fields.toValue winnerHlc op.hlc) :=
  admits_conflict ⟨hstate, hkey, .inr ⟨hfield, op.fields, rfl, fun _ _ hv =>
    haccepted.mem_fieldNames hv⟩⟩

lemma admits_applyFields (m : Mirror) : m.Admits (m.applyFields op uid) := by
  have hnames : ∀ e ∈ op.fields.entries, e.1 ∈ fieldNames op.kind :=
    fun e he => haccepted.mem_fieldNames (AList.mem_lookup_iff.mpr he)
  unfold applyFields
  generalize op.fields.entries = entries at hnames
  induction entries generalizing m with
  | nil => exact admits_none rfl rfl
  | cons e entries ih =>
    obtain ⟨he, hrest⟩ := List.forall_mem_cons.mp hnames
    refine Admits.trans ?_ (ih _ hrest)
    unfold applyField
    dsimp only
    split
    · split_ifs
      · exact admits_conflict ⟨hstate, hkey, .inl he⟩
      · exact admits_none rfl rfl
      · exact admits_none rfl rfl
    · exact admits_none rfl rfl

lemma admits_mergeByMode (m : Mirror) (entityHlc : Hlc) :
    m.Admits (m.mergeByMode op uid entityHlc) := by
  unfold mergeByMode applyEntity
  split
  · exact admits_applyFields haccepted hstate hkey m
  · split_ifs
    · exact admits_object haccepted hstate hkey (.inl rfl) _ _
    · exact admits_none rfl rfl

lemma admits_applyUpsert (m : Mirror) : m.Admits (m.applyUpsert op uid) := by
  have hmerge := admits_mergeByMode haccepted hstate hkey
  unfold applyUpsert
  dsimp only
  split
  · split
    · exact admits_object haccepted hstate hkey (.inr (.inl rfl)) _ _
    · split
      · exact admits_object haccepted hstate hkey (.inr (.inr rfl)) _ _
      · refine Admits.trans ?_ (hmerge _ _)
        exact admits_none rfl rfl
  · exact hmerge m _

end StateOp

lemma admits_applyDelete (m : Mirror) (op : Op) (uid : String) (bookUid : Option String) :
    m.Admits (m.applyDelete op uid bookUid) := by
  have htrash (m : Mirror) (t : TrashRow) : m.Admits (m.insertTrash t) := by
    unfold insertTrash
    split_ifs <;> exact admits_none rfl rfl
  unfold applyDelete
  dsimp only
  split
  · exact admits_none rfl rfl
  · split
    · exact admits_none rfl rfl
    · split
      · split <;> exact admits_none rfl rfl
      · refine Admits.trans ?_ (htrash _ _)
        exact admits_none rfl rfl

/-- The row that a membership operation addresses is named by a pair. -/
lemma colon_mem_stateKey (hkey : m.stateKey op = .ok uid) (hkind : op.kind = .membership) :
    ':' ∈ uid.toList := by
  unfold stateKey at hkey
  rw [hkind] at hkey
  dsimp only at hkey
  cases hsplit : splitOnce ':' op.entityUid with
  | none =>
    rw [hsplit] at hkey
    cases hkey
  | some p =>
    rw [hsplit] at hkey
    cases hkey
    simp [String.toList_append]

lemma admits_applyStateOp (haccepted : op.Accepted) (hstate : op.kind.IsState) (m : Mirror) :
    m.Admits (m.applyStateOp op).1 := by
  obtain ⟨uid, hkey⟩ := haccepted.exists_stateKey m
  have htouch : m.Admits (m.touchRow op.kind uid (op.bookUid.map m.canonicalBookUid)) :=
    admits_none rfl rfl
  unfold applyStateOp
  rw [hkey]
  dsimp only
  refine htouch.trans ?_
  split_ifs
  · exact admits_applyDelete _ op uid _
  · exact admits_applyUpsert haccepted hstate (colon_mem_stateKey hkey) _

lemma admits_applyBook (fromStr : String → Option Value) (m : Mirror) (op : Op) :
    m.Admits (m.applyBook fromStr op).1 := by
  rcases applyBook_cases fromStr m op with hsame | hwrites
  · rw [hsame]
    exact admits_none rfl rfl
  · exact admits_none hwrites.clock hwrites.conflicts

/-! ## What merges record -/

lemma admits_rekeyEntityUid (m : Mirror) (kind : EntityKind) (src dst : String)
    (bookUid : Option String) : m.Admits (m.rekeyEntityUid kind src dst bookUid) := by
  unfold rekeyEntityUid
  split <;> exact admits_none rfl rfl

lemma admits_mergeEntityUid (m : Mirror) (kind : EntityKind) (src dst bookUid : String) :
    m.Admits (m.mergeEntityUid kind src dst bookUid) := by
  unfold mergeEntityUid
  split_ifs
  · exact admits_none rfl rfl
  · split
    · split_ifs
      · refine Admits.trans ?_ (admits_rekeyEntityUid ..)
        exact admits_none rfl rfl
      · exact admits_none rfl rfl
    · exact admits_rekeyEntityUid ..
    · exact admits_none rfl rfl

lemma admits_mergeSelfKeyed (m : Mirror) (kind : EntityKind) (loser winner : String) :
    m.Admits (m.mergeSelfKeyed kind loser winner) := by
  unfold mergeSelfKeyed mergeSelfKeyedFields
  split
  · exact admits_mergeEntityUid ..
  · split <;> exact admits_none rfl rfl

lemma admits_foldl {move : Mirror → String → Mirror}
    (hmove : ∀ (m : Mirror) uid, m.Admits (move m uid)) (uids : List String) (m : Mirror) :
    m.Admits (uids.foldl move m) := by
  induction uids generalizing m with
  | nil => exact admits_none rfl rfl
  | cons uid uids ih => exact (hmove m uid).trans (ih _)

lemma admits_mergeBookIdentity (m : Mirror) (loser winner : String) :
    m.Admits (m.mergeBookIdentity loser winner) := by
  have hrekey (winner : String) (m : Mirror) (uid : String) :
      m.Admits (m.rekeyMembershipBook winner uid) := by
    unfold rekeyMembershipBook
    split
    · exact admits_mergeEntityUid ..
    · exact admits_none rfl rfl
  rw [mergeBookIdentity_eq]
  cases m.bookMerge loser winner with
  | none => exact admits_none rfl rfl
  | some p =>
    have hstart : m.Admits (m.mergeBookStart p.1 p.2) := admits_none rfl rfl
    have hself : m.Admits ((m.mergeBookStart p.1 p.2).mergeBookSelfKeyed p.1 p.2) := by
      have hmerged := ((hstart.trans (admits_mergeSelfKeyed _ .progress p.1 p.2)).trans
        (admits_mergeSelfKeyed _ .metadata p.1 p.2)).trans
          (admits_mergeSelfKeyed _ .opened p.1 p.2)
      exact hmerged.trans (admits_none rfl rfl)
    exact (hself.trans (admits_foldl (hrekey p.2) _ _)).trans (admits_none rfl rfl)

lemma admits_mergeCollectionIdentity (m : Mirror) (loser winner : String) :
    m.Admits (m.mergeCollectionIdentity loser winner) := by
  have hrekey (m : Mirror) (uid : String) : m.Admits (m.rekeyMembershipCollection winner uid) := by
    unfold rekeyMembershipCollection
    split
    · exact admits_mergeEntityUid ..
    · exact admits_none rfl rfl
  unfold mergeCollectionIdentity
  split_ifs
  · exact admits_none rfl rfl
  · refine Admits.trans (Admits.trans ?_ (admits_foldl hrekey _ _)) (admits_none rfl rfl)
    exact admits_none rfl rfl

lemma admits_applyIdentity (m : Mirror) (op : Op) : m.Admits (m.applyIdentity op).1 := by
  obtain ⟨aliases, hresult⟩ := exists_applyIdentity m op
  rw [hresult]
  cases m.identityMerge op with
  | none => exact admits_none rfl rfl
  | some p => exact (admits_mergeBookIdentity m p.1 p.2).trans (admits_none rfl rfl)

/-- **What an operation records can be replayed**, and it moves the clock no further than its
own. -/
theorem admits_applyOp (fromStr : String → Option Value) (haccepted : op.Accepted) (m : Mirror) :
    (m.observeHlc op.hlc).Admits (m.applyOp fromStr op).1 ∨ (m.applyOp fromStr op).1 = m := by
  unfold applyOp
  by_cases hseen : op.opId ∈ m.appliedOps
  · rw [if_pos hseen]
    exact .inr rfl
  rw [if_neg hseen]
  refine .inl ?_
  dsimp only
  split_ifs with hidentity hbook
  · have happly := (m.observeHlc op.hlc).admits_applyIdentity op
    rcases hres : (m.observeHlc op.hlc).applyIdentity op with ⟨m', _ | _⟩
    · rw [hres] at happly
      exact happly
    · rw [hres] at happly
      exact happly.trans (admits_none rfl rfl)
  · exact (admits_applyBook fromStr _ op).trans (admits_none rfl rfl)
  · exact admits_none rfl rfl
  · have happly := admits_applyStateOp haccepted ⟨hidentity, hbook⟩ (m.observeHlc op.hlc)
    rcases hres : (m.observeHlc op.hlc).applyStateOp op with ⟨m', _ | _⟩
    · rw [hres] at happly
      exact happly
    · rw [hres] at happly
      exact happly.trans (admits_none rfl rfl)

/-! ## Grounded mirrors -/

/-- The open conflicts can be replayed, and a clock above the stored one is above the clocks of all
rows. -/
structure Grounded (m : Mirror) : Prop where
  clocks : ∀ h, Hlc.zero < h → Above m.clock h → m.ClocksIn (Set.Iio h)
  choices : ∀ c ∈ m.conflicts, c.resolvedAt = false → c.Replayable

lemma grounded_empty : ({} : Mirror).Grounded :=
  ⟨fun _ _ _ _ _ hr => (nomatch hr), fun _ hc => absurd hc List.not_mem_nil⟩

lemma Grounded.admits (h : m.Grounded) (hadmits : m.Admits m')
    (hclocks : ∀ S : Set Hlc, Hlc.zero ∈ S → m.ClocksIn S → m'.ClocksIn S) : m'.Grounded := by
  refine ⟨fun hlc hzero habove => ?_, fun c hc hopen => ?_⟩
  · rw [hadmits.clock] at habove
    exact hclocks _ hzero (h.clocks hlc hzero habove)
  · exact (hadmits.conflicts c hc).elim (fun hold => h.choices c hold hopen) id

/-- **Applying an operation** moves the clock past it. -/
theorem Grounded.applyOp (h : m.Grounded) (fromStr : String → Option Value)
    (haccepted : op.Accepted) : (m.applyOp fromStr op).1.Grounded := by
  rcases admits_applyOp fromStr haccepted m with hadmits | hsame
  · refine ⟨fun hlc hzero habove => ?_, fun c hc hopen => ?_⟩
    · rw [hadmits.clock] at habove
      obtain ⟨hold, hnew⟩ := above_of_observeHlc habove
      exact (h.clocks hlc hzero hold).applyOp fromStr hzero hnew
    · exact (hadmits.conflicts c hc).elim (fun hold => h.choices c hold hopen) id
  · rw [hsame]
    exact h

/-- Closing or dropping conflicts. -/
lemma Grounded.shrink (h : m.Grounded) (hrows : m'.entities = m.entities)
    (hclock : ∀ hlc, Above m'.clock hlc → Above m.clock hlc)
    (hsub : ∀ c ∈ m'.conflicts, c.resolvedAt = false → c ∈ m.conflicts) : m'.Grounded := by
  refine ⟨fun hlc hzero habove => ?_, fun c hc hopen => h.choices c (hsub c hc hopen) hopen⟩
  unfold ClocksIn
  rw [hrows]
  exact h.clocks hlc hzero (hclock hlc habove)

end Mirror

/-! ## Runs -/

namespace ReviewQueue

variable {fromStr : String → Option Value}

/-- Operations have passed the validator, captures are of states, and nothing puts the clock
back. -/
def Legal (m : Mirror) : Event → Prop
  | .apply op => validateOp op = .ok ()
  | .recordTombstoneConflict kind uid loser _ =>
    kind.IsState ∧ (kind = .membership → ':' ∈ uid.toList) ∧
      ∀ e ∈ loser.entries, e.1 ∈ fieldNames kind
  | .write m' => ∀ hlc, Above m'.clock hlc → Above m.clock hlc
  | _ => True

/-- **One step keeps the mirror grounded.** -/
theorem grounded_after {event : Event} (h : m.Grounded) (hlegal : Legal m event) :
    (after fromStr m event).Grounded := by
  have hreview : ∀ (createdAt : ℕ → String) (s : Review),
      (∀ e ∈ s.conflicts, e.row.resolvedAt = false → e ∈ (m.review createdAt).conflicts) →
      (m.reviewed s).Grounded :=
    fun createdAt s hsub => h.shrink rfl (fun _ habove => habove)
      (Mirror.mem_conflicts_reviewed hsub)
  cases event with
  | apply op => exact h.applyOp fromStr (accepted_of_validateOp hlegal)
  | recordTombstoneConflict kind uid loser now =>
    obtain ⟨hstate, hkey, hnames⟩ := hlegal
    refine h.admits ?_ fun S _ hS => hS.recordTombstoneConflict kind uid loser now
    change m.Admits (m.recordTombstoneConflict kind uid loser now)
    unfold Mirror.recordTombstoneConflict
    split_ifs
    · refine Mirror.admits_conflict ⟨hstate, hkey, .inr ⟨.inr (.inl rfl), loser, rfl, ?_⟩⟩
      exact fun field v hv => hnames ⟨field, v⟩ (AList.mem_lookup_iff.mp hv)
    · exact Mirror.admits_none rfl rfl
  | mergeBookIdentity loser winner =>
    exact h.admits (m.admits_mergeBookIdentity loser winner)
      fun S _ hS => hS.mergeBookIdentity loser winner
  | mergeCollectionIdentity loser winner =>
    exact h.admits (m.admits_mergeCollectionIdentity loser winner)
      fun S hzero hS => hS.mergeCollectionIdentity hzero loser winner
  | reconcile =>
    refine hreview (fun _ => "") _ fun e he hopen => ?_
    rcases (m.review fun _ => "").conflicts_reconcile with hsame | ⟨ids, -, hsettled⟩
    · rwa [hsame] at he
    · rw [hsettled] at he
      exact Review.mem_conflicts_resolveRows he hopen
  | expire createdAt cutoff =>
    refine hreview createdAt _ fun e he _ => ?_
    unfold Review.expire at he
    dsimp only at he
    split_ifs at he
    · exact he
    · exact (List.mem_filter.mp he).1
  | settle id conflict =>
    exact hreview (fun _ => "") _ fun e he hopen => Review.mem_conflicts_resolveRows he hopen
  | write m' => exact h.shrink rfl hlegal fun _ hc _ => hc
  | resetSyncState => exact Mirror.grounded_empty

/-- **Every run is grounded.** -/
theorem grounded_of_meets {events : List Event}
    (h : Guarded.Meets (after fromStr) Legal {} events) :
    (events.foldl (after fromStr) {}).Grounded :=
  h.invariant (fun _ _ hm hlegal => grounded_after hm hlegal) Mirror.grounded_empty

end ReviewQueue

end TuxBooks
