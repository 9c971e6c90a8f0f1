import TuxBooks.Sync.InStep
import TuxBooks.Sync.Row

set_option relaxedAutoImplicit false
set_option autoImplicit false

/-!
# The merge records conflicts, and writes the review tables in no other way

The mirror keeps the rows of `sync_conflicts` and `sync_issues` without their ids. What `apply_op`
does to them is a sequence of `record_conflict`, so the review may take any such sequence for what
an operation does.

## Main definitions

* `TuxBooks.Review.Shows` — the mirror has the rows of the review.
* `TuxBooks.Mirror.RecordsConflicts` — between two mirrors, conflicts have been recorded.

## Main results

* `TuxBooks.Review.Shows.recordConflict` — the two models of `record_conflict` agree.
* `TuxBooks.Mirror.records_applyOp` — a state operation records conflicts.
-/

namespace TuxBooks

namespace Review

/-- The mirror has the conflicts and the issues of the review. -/
structure Shows (s : Review) (m : Mirror) : Prop where
  conflicts : s.conflicts.map ConflictEntry.row = m.conflicts
  issues : s.issues.map IssueEntry.row = m.issues

variable {s : Review} {m : Mirror}

lemma Shows.issueOpen (h : s.Shows m) (key : String) :
    s.issueOpen key = m.issues.any fun i => i.issueKey == key && !i.resolvedAt := by
  rw [← h.issues, List.any_map]
  rfl

/-- **The two models of `record_conflict` agree.** -/
theorem Shows.recordConflict (h : s.Shows m) (r : Recording) :
    (s.recordConflict r).Shows (m.recordConflict r.kind r.entityUid r.field r.winner r.loser
      r.winnerHlc r.loserHlc) := by
  unfold Review.recordConflict Mirror.recordConflict
  by_cases hsame : r.winner = r.loser
  · rw [if_pos hsame, if_pos hsame]
    exact h
  rw [if_neg hsame, if_neg hsame]
  dsimp only
  by_cases hprogress : r.kind = .progress
  · rw [if_neg (not_not.mpr hprogress), if_pos hprogress]
    exact ⟨by simp [h.conflicts, Recording.row], h.issues⟩
  rw [if_pos hprogress, if_neg hprogress]
  unfold Mirror.recordIssue
  rw [← h.issueOpen]
  split
  · exact ⟨by simp [h.conflicts, Recording.row], h.issues⟩
  · exact ⟨by simp [insertIssue, h.conflicts, Recording.row], by simp [insertIssue, h.issues]⟩

end Review

namespace Mirror

/-- Between two mirrors conflicts have been recorded, at the time `createdAt`. -/
def RecordsConflicts (createdAt : String) (m m' : Mirror) : Prop :=
  ∀ s : Review, s.Shows m → ∃ rs : List Recording, (∀ r ∈ rs, r.createdAt = createdAt) ∧
    (rs.foldl Review.recordConflict s).Shows m'

variable {t : String} {m m' m'' : Mirror}

/-- Writing other tables records nothing. -/
lemma records_of_eq (hc : m'.conflicts = m.conflicts) (hi : m'.issues = m.issues) :
    RecordsConflicts t m m' := fun _ h =>
  ⟨[], fun _ h => (nomatch h), ⟨h.conflicts.trans hc.symm, h.issues.trans hi.symm⟩⟩

lemma RecordsConflicts.trans (h : RecordsConflicts t m m') (h' : RecordsConflicts t m' m'') :
    RecordsConflicts t m m'' := by
  intro s hs
  obtain ⟨rs, htime, hrs⟩ := h s hs
  obtain ⟨rs', htime', hrs'⟩ := h' _ hrs
  refine ⟨rs ++ rs', fun r hr => ?_, by rwa [List.foldl_append]⟩
  rcases List.mem_append.mp hr with hr | hr
  · exact htime r hr
  · exact htime' r hr

lemma records_recordConflict (t : String) (m : Mirror) (kind : EntityKind) (uid field : String)
    (winner loser : Value) (winnerHlc loserHlc : Hlc) :
    RecordsConflicts t m (m.recordConflict kind uid field winner loser winnerHlc loserHlc) :=
      fun _ h =>
  ⟨[⟨t, kind, uid, field, winner, loser, winnerHlc, loserHlc⟩],
    fun _ hr => List.mem_singleton.mp hr ▸ rfl, h.recordConflict _⟩

lemma records_applyField (op : Op) (uid : String) (m : Mirror) (field : String) (value : Value) :
    RecordsConflicts t m (m.applyField op uid field value) := by
  unfold applyField
  dsimp only
  split
  · split
    · split
      · exact records_recordConflict t m _ _ _ _ _ _ _
      · exact records_of_eq rfl rfl
    · exact records_of_eq rfl rfl
  · exact records_of_eq rfl rfl

lemma records_mergeByMode (m : Mirror) (op : Op) (uid : String) (entityHlc : Hlc) :
    RecordsConflicts t m (m.mergeByMode op uid entityHlc) := by
  unfold mergeByMode
  split
  · unfold applyFields
    induction op.fields.entries generalizing m with
    | nil => exact records_of_eq rfl rfl
    | cons e l ih => exact (records_applyField op uid m e.1 e.2).trans (ih _)
  · unfold applyEntity
    split
    · exact records_recordConflict t m _ _ _ _ _ _ _
    · exact records_of_eq rfl rfl

lemma records_applyUpsert (m : Mirror) (op : Op) (uid : String) :
    RecordsConflicts t m (m.applyUpsert op uid) := by
  unfold applyUpsert
  dsimp only
  split
  · split
    · exact records_recordConflict t m _ _ _ _ _ _ _
    · split
      · exact records_recordConflict t m _ _ _ _ _ _ _
      · refine RecordsConflicts.trans ?_ (records_mergeByMode _ op uid _)
        exact records_of_eq rfl rfl
  · exact records_mergeByMode m op uid _

lemma records_insertTrash (m : Mirror) (row : TrashRow) :
    RecordsConflicts t m (m.insertTrash row) := by
  unfold insertTrash
  split <;> exact records_of_eq rfl rfl

lemma records_applyDelete (m : Mirror) (op : Op) (uid : String) (bookUid : Option String) :
    RecordsConflicts t m (m.applyDelete op uid bookUid) := by
  unfold applyDelete
  dsimp only
  split
  · exact records_of_eq rfl rfl
  · split
    · exact records_of_eq rfl rfl
    · split
      · split <;> exact records_of_eq rfl rfl
      · refine RecordsConflicts.trans ?_ (records_insertTrash _ _)
        exact records_of_eq rfl rfl

lemma records_applyStateOp (m : Mirror) (op : Op) : RecordsConflicts t m (m.applyStateOp op).1 := by
  unfold applyStateOp
  dsimp only
  split
  · exact records_of_eq rfl rfl
  · next uid _ =>
    have htouch : RecordsConflicts t m
        (m.touchRow op.kind uid (op.bookUid.map m.canonicalBookUid)) :=
      records_of_eq rfl rfl
    refine htouch.trans ?_
    cases op.deleted with
    | true => exact records_applyDelete _ op _ _
    | false => exact records_applyUpsert _ op _

/-- **A state operation records conflicts**, and writes their tables in no other way. -/
theorem records_applyOp (fromStr : String → Option Value) (m : Mirror) {op : Op}
    (hstate : op.kind.IsState) : RecordsConflicts t m (m.applyOp fromStr op).1 := by
  unfold applyOp
  split
  · exact records_of_eq rfl rfl
  · dsimp only
    rw [if_neg hstate.1, if_neg hstate.2]
    split
    · exact records_of_eq rfl rfl
    · have hobserve : RecordsConflicts t m (m.observeHlc op.hlc) := records_of_eq rfl rfl
      have happly := hobserve.trans (records_applyStateOp (m.observeHlc op.hlc) op)
      split
      · next hresult =>
        rw [hresult] at happly
        exact happly.trans (records_of_eq rfl rfl)
      · next hresult =>
        rw [hresult] at happly
        exact happly

end Mirror

end TuxBooks
