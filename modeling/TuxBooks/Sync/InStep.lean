import TuxBooks.Sync.Review

set_option relaxedAutoImplicit false
set_option autoImplicit false

/-!
# Conflicts and their issues stay in step

Whatever is recorded, settled, reconciled, expired, dismissed or resolved, the open issues of
kind `conflict` are exactly those with an unresolved conflict behind them that is not about
progress. Every operation that removes conflicts closes the issues that lose their last one, and
every operation that closes issues for another reason leaves those of kind `conflict`.

## Main definitions

* `TuxBooks.Review.InStep` — the invariant.

## Main results

* `TuxBooks.Review.InStep.shrink` — conflicts go, and exactly the issues without one close.
* `TuxBooks.Review.InStep.recordConflict` — a conflict is recorded.
* `TuxBooks.Review.issues_in_step` — the invariant holds in every reachable state.
-/

namespace TuxBooks

namespace Review

/-! ## Keys -/

lemma isConflictKey_conflictIssueKey (kind : EntityKind) (uid field : String) :
    isConflictKey (conflictIssueKey kind uid field) = true := by
  unfold isConflictKey conflictIssueKey
  rw [List.isPrefixOf_iff_prefix]
  simp only [String.toList_append, List.append_assoc]
  exact List.prefix_append _ _

/-- The key of a conflict tells whether it is about progress. -/
lemma likePrefix_conflictIssueKey (kind : EntityKind) (uid field : String) :
    likePrefix "conflict:progress:" (conflictIssueKey kind uid field) =
      decide (kind = .progress) := by
  unfold likePrefix conflictIssueKey
  cases kind <;> simp [String.toList_append, EntityKind.asStr, List.isPrefixOf]

/-! ## Open rows -/

lemma mem_openIssues {s : Review} {i : IssueEntry} :
    i ∈ s.openIssues ↔ i ∈ s.issues ∧ i.row.resolvedAt = false := by
  simp [openIssues]

lemma mem_openConflicts {s : Review} {c : ConflictEntry} :
    c ∈ s.openConflicts ↔ c ∈ s.conflicts ∧ c.row.resolvedAt = false := by
  simp [openConflicts]

lemma hasConflict_eq_true {s : Review} {key : String} :
    s.hasConflict key = true ↔ ∃ c ∈ s.openConflicts, c.row.issueKey = key := by
  simp [hasConflict, openConflicts, and_assoc]

lemma issueOpen_eq_true {s : Review} {key : String} :
    s.issueOpen key = true ↔ ∃ i ∈ s.openIssues, i.row.issueKey = key := by
  simp only [issueOpen, List.any_eq_true, mem_openIssues, Bool.and_eq_true, beq_iff_eq,
    Bool.not_eq_true', and_assoc]
  exact exists_congr fun i => and_congr_right fun _ => and_comm

/-- Closing takes the closed issues from the open ones. -/
lemma openIssues_closeIssues (s : Review) (p : IssueEntry → Bool) :
    (s.closeIssues p).openIssues = s.openIssues.filter fun i => !p i := by
  unfold openIssues closeIssues
  induction s.issues with
  | nil => rfl
  | cons i l ih =>
    rw [List.map_cons]
    by_cases hp : p i = true <;> cases hopen : i.row.resolvedAt <;> simp [hp, hopen, ih]

lemma openConflicts_resolveRows (s : Review) (ids : List ℕ) :
    (s.resolveRows ids).openConflicts = s.openConflicts.filter fun c => decide (c.id ∉ ids) := by
  unfold openConflicts resolveRows
  induction s.conflicts with
  | nil => rfl
  | cons c l ih =>
    rw [List.map_cons]
    by_cases hid : c.id ∈ ids <;> cases hopen : c.row.resolvedAt <;> simp [hid, hopen, ih]

/-- Closing an issue keeps its id. -/
lemma ids_closeIssues (s : Review) (p : IssueEntry → Bool) :
    (s.closeIssues p).issues.map IssueEntry.id = s.issues.map IssueEntry.id := by
  unfold closeIssues
  rw [List.map_map]
  refine List.map_congr_left fun i _ => ?_
  rw [Function.comp_apply]
  split <;> rfl

lemma ids_resolveRows (s : Review) (ids : List ℕ) :
    (s.resolveRows ids).conflicts.map ConflictEntry.id = s.conflicts.map ConflictEntry.id := by
  unfold resolveRows
  rw [List.map_map]
  refine List.map_congr_left fun c _ => ?_
  rw [Function.comp_apply]
  split <;> rfl

/-! ## Ids -/

/-- A new id is larger than all that are in use. -/
structure Ids (ids : List ℕ) (last : ℕ) : Prop where
  nodup : ids.Nodup
  le : ∀ id ∈ ids, id ≤ last

lemma Ids.sublist {ids ids' : List ℕ} {last : ℕ} (h : Ids ids last) (hsub : ids'.Sublist ids) :
    Ids ids' last :=
  ⟨h.nodup.sublist hsub, fun id hid => h.le id (hsub.subset hid)⟩

lemma Ids.append {ids : List ℕ} {last : ℕ} (h : Ids ids last) :
    Ids (ids ++ [last + 1]) (last + 1) where
  nodup := by
    refine List.nodup_append.mpr ⟨h.nodup, List.nodup_singleton _, ?_⟩
    rintro id hid _ hnew rfl
    have hle := h.le id hid
    rw [List.mem_singleton.mp hnew] at hle
    omega
  le := by
    intro id hid
    rcases List.mem_append.mp hid with hid | hid
    · exact (h.le id hid).trans (Nat.le_succ _)
    · exact (List.mem_singleton.mp hid).le

/-- The ids of both tables are distinct, and new ones will be. -/
structure Numbered (s : Review) : Prop where
  issues : Ids (s.issues.map IssueEntry.id) s.lastIssue
  conflicts : Ids (s.conflicts.map ConflictEntry.id) s.lastConflict

lemma Numbered.insertIssue {s : Review} (h : s.Numbered) (key kind : String) :
    (s.insertIssue key kind).Numbered where
  issues := by
    show Ids ((s.issues ++ [_]).map _) _
    rw [List.map_append]
    exact h.issues.append
  conflicts := h.conflicts

/-- A new conflict has the next id. -/
lemma Numbered.append {s s' : Review} (h : s.Numbered) (createdAt : String) (row : ConflictRow)
    (hissues : s'.issues = s.issues) (hlast : s'.lastIssue = s.lastIssue)
    (hconflicts : s'.conflicts = s.conflicts ++ [⟨s.lastConflict + 1, createdAt, row⟩])
    (hlast' : s'.lastConflict = s.lastConflict + 1) : s'.Numbered where
  issues := by
    rw [hissues, hlast]
    exact h.issues
  conflicts := by
    rw [hconflicts, hlast', List.map_append]
    exact h.conflicts.append

lemma Numbered.closeIssues {s : Review} (h : s.Numbered) (p : IssueEntry → Bool) :
    (s.closeIssues p).Numbered where
  issues := (ids_closeIssues s p).symm ▸ h.issues
  conflicts := h.conflicts

lemma Numbered.resolveRows {s : Review} (h : s.Numbered) (ids : List ℕ) :
    (s.resolveRows ids).Numbered where
  issues := h.issues
  conflicts := (ids_resolveRows s ids).symm ▸ h.conflicts

/-! ## The invariant -/

/-- The issues of kind `conflict` that are open are those with an unresolved conflict behind
them, and no key is open twice. -/
structure InStep (s : Review) : Prop where
  keys : ∀ key, (∃ i ∈ s.openIssues, i.row.kind = "conflict" ∧ i.row.issueKey = key) ↔
    ∃ c ∈ s.openConflicts, c.row.kind ≠ .progress ∧ c.row.issueKey = key
  once : (s.openIssues.map fun i => i.row.issueKey).Nodup
  /-- Keys of conflicts are not used for anything else. -/
  own : ∀ i ∈ s.openIssues, isConflictKey i.row.issueKey = true → i.row.kind = "conflict"
  numbered : s.Numbered

lemma inStep_empty : InStep {} where
  keys := fun key => by simp [openIssues, openConflicts]
  once := List.nodup_nil
  own := fun _ h => nomatch h
  numbered := ⟨⟨List.nodup_nil, fun _ h => nomatch h⟩, ⟨List.nodup_nil, fun _ h => nomatch h⟩⟩

section

variable {s s' : Review}

namespace InStep

/-- The key of an open issue of kind `conflict` is not about progress, and some unresolved
conflict has it. -/
lemma key_of_mem (h : s.InStep) {i : IssueEntry} (hi : i ∈ s.openIssues)
    (hkind : i.row.kind = "conflict") :
    isConflictKey i.row.issueKey = true ∧
      likePrefix "conflict:progress:" i.row.issueKey = false ∧
      s.hasConflict i.row.issueKey = true := by
  obtain ⟨c, hc, hprogress, hkey⟩ := (h.keys i.row.issueKey).mp ⟨i, hi, hkind, rfl⟩
  refine ⟨?_, ?_, hasConflict_eq_true.mpr ⟨c, hc, hkey⟩⟩
  · rw [← hkey]
    exact isConflictKey_conflictIssueKey _ _ _
  · rw [← hkey]
    exact (likePrefix_conflictIssueKey _ _ _).trans (decide_eq_false hprogress)

/-- **Conflicts go, and of the conflict issues exactly those without a conflict close.** -/
lemma shrink (h : s.InStep) {p : IssueEntry → Bool} {q : ConflictEntry → Bool}
    (hissues : s'.openIssues = s.openIssues.filter fun i => !p i)
    (hconflicts : s'.openConflicts = s.openConflicts.filter q)
    (hp : ∀ i ∈ s.openIssues, i.row.kind = "conflict" →
      p i = !s'.hasConflict i.row.issueKey) (hnumbered : s'.Numbered) : s'.InStep where
  keys := by
    intro key
    constructor
    · rintro ⟨i, hi, hkind, rfl⟩
      rw [hissues, List.mem_filter] at hi
      have hlive : s'.hasConflict i.row.issueKey = true := by
        simpa [hp i hi.1 hkind] using hi.2
      obtain ⟨c, hc, hkey⟩ := hasConflict_eq_true.mp hlive
      refine ⟨c, hc, fun hprogress => ?_, hkey⟩
      have hlike := (h.key_of_mem hi.1 hkind).2.1
      rw [← hkey, ConflictRow.issueKey, likePrefix_conflictIssueKey, hprogress] at hlike
      exact absurd hlike (by decide)
    · rintro ⟨c, hc, hprogress, rfl⟩
      have hold : c ∈ s.openConflicts := by
        rw [hconflicts] at hc
        exact List.mem_of_mem_filter hc
      obtain ⟨i, hi, hkind, hkey⟩ := (h.keys c.row.issueKey).mpr ⟨c, hold, hprogress, rfl⟩
      refine ⟨i, ?_, hkind, hkey⟩
      rw [hissues, List.mem_filter]
      refine ⟨hi, ?_⟩
      have hlive : s'.hasConflict i.row.issueKey = true :=
        hasConflict_eq_true.mpr ⟨c, hc, hkey.symm⟩
      simp [hp i hi hkind, hlive]
  once := by
    rw [hissues]
    exact h.once.sublist (List.filter_sublist.map _)
  own := by
    intro i hi
    rw [hissues] at hi
    exact h.own i (List.mem_of_mem_filter hi)
  numbered := hnumbered

/-- Closing issues that are not conflicts keeps the tables in step. -/
lemma closeIssues (h : s.InStep) {p : IssueEntry → Bool}
    (hp : ∀ i ∈ s.openIssues, i.row.kind = "conflict" → p i = false) :
    (s.closeIssues p).InStep := by
  refine h.shrink (openIssues_closeIssues s p) (q := fun _ => true)
    (List.filter_eq_self.mpr fun _ _ => rfl).symm ?_ (h.numbered.closeIssues p)
  intro i hi hkind
  rw [hp i hi hkind]
  have hlive : (s.closeIssues p).hasConflict i.row.issueKey = true :=
    (h.key_of_mem hi hkind).2.2
  rw [hlive]
  rfl

/-- Closing what is stale after conflicts have gone. -/
lemma closeConflictIssues (h : s.InStep) {s₁ : Review} {q : ConflictEntry → Bool}
    (hissues : s₁.issues = s.issues) (hconflicts : s₁.openConflicts = s.openConflicts.filter q)
    (hnumbered : s₁.Numbered) :
    s₁.closeConflictIssues.InStep := by
  have hopen : s₁.openIssues = s.openIssues := by rw [openIssues, hissues, openIssues]
  refine h.shrink (p := fun i => s₁.isStale i.row) (q := q) ?_ hconflicts ?_
    (hnumbered.closeIssues _)
  · rw [← hopen]
    exact openIssues_closeIssues s₁ _
  · intro i hi hkind
    have hlive : s₁.closeConflictIssues.hasConflict i.row.issueKey =
      s₁.hasConflict i.row.issueKey := rfl
    unfold isStale
    rw [hlive, hkind, (h.key_of_mem hi hkind).2.1, (mem_openIssues.mp hi).2]
    simp

lemma reconcile (h : s.InStep) : s.reconcile.1.InStep := by
  unfold Review.reconcile
  split
  · exact h
  · next settled _ =>
    split
    · exact h
    · exact h.closeConflictIssues rfl (openConflicts_resolveRows s settled)
        (h.numbered.resolveRows settled)

lemma expire (h : s.InStep) (cutoff : String) : (s.expire cutoff).1.InStep := by
  unfold Review.expire
  dsimp only
  split
  · exact h
  · refine h.closeConflictIssues rfl
      (q := fun c => !(!c.row.resolvedAt && decide (c.createdAt < cutoff))) ?_
      ⟨h.numbered.issues, h.numbered.conflicts.sublist (List.filter_sublist.map _)⟩
    unfold openConflicts
    rw [List.filter_filter, List.filter_filter]
    exact List.filter_congr fun c _ => Bool.and_comm _ _

/-- **One conflict is settled**, with the key of its row. -/
lemma settle (h : s.InStep) {id : ℕ} {conflict : OpenConflict}
    (hkey : ∀ c ∈ s.conflicts, c.id = id → c.row.issueKey = conflict.issueKey) :
    (s.settle id conflict).1.InStep := by
  refine h.shrink (q := fun c => decide (c.id ∉ [id]))
    (openIssues_closeIssues (s.resolveRows [id]) _) (openConflicts_resolveRows s [id]) ?_
    ((h.numbered.resolveRows [id]).closeIssues _)
  intro i hi hkind
  have hlive : (s.settle id conflict).1.hasConflict i.row.issueKey =
      (s.resolveRows [id]).hasConflict i.row.issueKey := rfl
  rw [hlive, hkind, (mem_openIssues.mp hi).2]
  by_cases hsame : i.row.issueKey = conflict.issueKey
  · simp [hsame]
  · -- the conflict behind another key has another id
    have hother : (s.resolveRows [id]).hasConflict i.row.issueKey = true := by
      obtain ⟨c, hc, hckey⟩ := hasConflict_eq_true.mp (h.key_of_mem hi hkind).2.2
      refine hasConflict_eq_true.mpr ⟨c, ?_, hckey⟩
      rw [openConflicts_resolveRows, List.mem_filter]
      refine ⟨hc, decide_eq_true fun hid => hsame ?_⟩
      rw [← hckey]
      exact hkey c (mem_openConflicts.mp hc).1 (List.mem_singleton.mp hid)
    simp [hother]

/-- A conflict comes, and its issue is open if it is not about progress. -/
lemma grow (h : s.InStep) {c : ConflictEntry}
    (hconflicts : s'.openConflicts = s.openConflicts ++ [c])
    (hissues : ∀ key, (∃ i ∈ s'.openIssues, i.row.kind = "conflict" ∧ i.row.issueKey = key) ↔
      (∃ i ∈ s.openIssues, i.row.kind = "conflict" ∧ i.row.issueKey = key) ∨
        c.row.kind ≠ .progress ∧ c.row.issueKey = key)
    (honce : (s'.openIssues.map fun i => i.row.issueKey).Nodup)
    (hown : ∀ i ∈ s'.openIssues, isConflictKey i.row.issueKey = true → i.row.kind = "conflict")
    (hnumbered : s'.Numbered) : s'.InStep where
  keys := by
    intro key
    rw [hissues, h.keys, hconflicts]
    simp only [List.mem_append, List.mem_singleton, or_and_right, exists_or, exists_eq_left]
  once := honce
  own := hown
  numbered := hnumbered

lemma openIssues_insertIssue (s : Review) (key kind : String) :
    (s.insertIssue key kind).openIssues =
      s.openIssues ++ [⟨s.lastIssue + 1, key, kind, false⟩] := by
  simp [insertIssue, openIssues]

/-- A key that was not open is open once. -/
lemma once_insertIssue (h : s.InStep) {key : String} (hnew : s.issueOpen key = false)
    (kind : String) :
    ((s.insertIssue key kind).openIssues.map fun i => i.row.issueKey).Nodup := by
  rw [openIssues_insertIssue, List.map_append, List.nodup_append]
  refine ⟨h.once, List.nodup_singleton _, ?_⟩
  rintro _ hmem _ hkey rfl
  obtain ⟨i, hi, hikey⟩ := List.mem_map.mp hmem
  rw [List.map_singleton, List.mem_singleton] at hkey
  exact absurd (issueOpen_eq_true.mpr ⟨i, hi, hikey.trans hkey⟩) (by simp [hnew])

/-- **A conflict is recorded.** -/
lemma recordConflict (h : s.InStep) (r : Recording) : (s.recordConflict r).InStep := by
  unfold Review.recordConflict
  by_cases hsame : r.winner = r.loser
  · rw [if_pos hsame]
    exact h
  rw [if_neg hsame]
  dsimp only
  by_cases hprogress : r.kind = .progress
  · rw [if_neg (not_not.mpr hprogress)]
    refine h.grow (c := ⟨s.lastConflict + 1, r.createdAt, r.row⟩) ?_ ?_ h.once h.own
      (h.numbered.append _ _ rfl rfl rfl rfl)
    · simp [openConflicts, Recording.row]
    · intro key
      exact (or_iff_left fun hc => hc.1 hprogress).symm
  rw [if_pos hprogress]
  by_cases hopen : s.issueOpen (conflictIssueKey r.kind r.entityUid r.field) = true
  · rw [if_pos hopen]
    refine h.grow (c := ⟨s.lastConflict + 1, r.createdAt, r.row⟩) ?_ ?_ h.once h.own
      (h.numbered.append _ _ rfl rfl rfl rfl)
    · simp [openConflicts, Recording.row]
    · intro key
      refine (or_iff_left_of_imp ?_).symm
      rintro ⟨-, rfl⟩
      obtain ⟨i, hi, hkey⟩ := issueOpen_eq_true.mp hopen
      exact ⟨i, hi, h.own i hi (hkey ▸ isConflictKey_conflictIssueKey _ _ _), hkey⟩
  · rw [if_neg hopen]
    have hnew := h.once_insertIssue (Bool.eq_false_iff.mpr hopen) "conflict"
    have hnumbered := h.numbered.insertIssue
      (conflictIssueKey r.kind r.entityUid r.field) "conflict"
    refine h.grow (c := ⟨s.lastConflict + 1, r.createdAt, r.row⟩) ?_ ?_ hnew ?_
      (hnumbered.append _ _ rfl rfl rfl rfl)
    · simp [openConflicts, insertIssue, Recording.row]
    · intro key
      show (∃ i ∈ (s.insertIssue _ _).openIssues, _) ↔ _
      rw [openIssues_insertIssue]
      simp only [List.mem_append, List.mem_singleton, or_and_right, exists_or, exists_eq_left,
        true_and]
      refine or_congr_right ⟨fun hkey => ⟨hprogress, hkey⟩, And.right⟩
    · intro i hi hkey
      rcases List.mem_append.mp ((openIssues_insertIssue s _ _) ▸ hi : i ∈ _ ++ _) with hi | hi
      · exact h.own i hi hkey
      · rw [List.mem_singleton.mp hi]

lemma recordTombstoneConflict (h : s.InStep) (createdAt : String) (kind : EntityKind)
    (uid : String) (loser : State) (loserHlc : Hlc) :
    (s.recordTombstoneConflict createdAt kind uid loser loserHlc).1.InStep := by
  unfold Review.recordTombstoneConflict
  split
  · exact h
  · split
    · exact h
    · split
      · exact h
      · dsimp only
        exact h.recordConflict _

/-- Issues that are not conflicts change or come; the issues of conflicts stay. -/
lemma others (h : s.InStep) (hconflicts : s'.openConflicts = s.openConflicts)
    (hsame : ∀ i, i.row.kind = "conflict" → (i ∈ s'.openIssues ↔ i ∈ s.openIssues))
    (honce : (s'.openIssues.map fun i => i.row.issueKey).Nodup)
    (hown : ∀ i ∈ s'.openIssues, isConflictKey i.row.issueKey = true → i.row.kind = "conflict")
    (hnumbered : s'.Numbered) : s'.InStep where
  keys := by
    intro key
    rw [hconflicts, ← h.keys]
    exact exists_congr fun i => and_congr_left fun hi => hsame i hi.1
  once := honce
  own := hown
  numbered := hnumbered

/-- Another condition is reported under a key of its own. -/
lemma recordIssue (h : s.InStep) {key kind : String} (hkey : isConflictKey key = false)
    (hkind : kind ≠ "conflict") : (s.recordIssue key kind).InStep := by
  unfold Review.recordIssue
  by_cases hopen : s.issueOpen key = true
  · rw [if_pos hopen]
    set upd : IssueEntry → IssueEntry := fun i =>
      if i.row.issueKey = key ∧ i.row.resolvedAt = false then
        { i with row := { i.row with kind := kind } }
      else i with hupd
    have hupdKey : ∀ i, (upd i).row.issueKey = i.row.issueKey := fun i => by
      simp only [hupd]
      split <;> rfl
    have hissues : (Review.openIssues { s with issues := s.issues.map upd }) =
        s.openIssues.map upd := by
      show (s.issues.map upd).filter _ = (s.issues.filter _).map upd
      rw [List.filter_map]
      refine congrArg _ (List.filter_congr fun i _ => ?_)
      simp only [hupd, Function.comp_apply]
      split <;> rfl
    have hfix : ∀ i ∈ s.openIssues, i.row.kind = "conflict" → upd i = i := fun i hi hc => by
      simp only [hupd]
      rw [if_neg]
      rintro ⟨rfl, -⟩
      exact absurd (h.key_of_mem hi hc).1 (by simp [hkey])
    have hids : (s.issues.map upd).map IssueEntry.id = s.issues.map IssueEntry.id := by
      rw [List.map_map]
      refine List.map_congr_left fun i _ => ?_
      simp only [hupd, Function.comp_apply]
      split <;> rfl
    refine h.others rfl (fun i hc => ?_) ?_ ?_ ⟨hids.symm ▸ h.numbered.issues,
      h.numbered.conflicts⟩
    · rw [hissues, List.mem_map]
      constructor
      · rintro ⟨j, hj, rfl⟩
        have hj' : upd j = j := by
          simp only [hupd] at hc ⊢
          split at hc
          · exact absurd hc hkind
          · next hno => exact if_neg hno
        exact hj'.symm ▸ hj
      · exact fun hi => ⟨i, hi, hfix i hi hc⟩
    · rw [hissues, List.map_map]
      have hcomp : (fun i : IssueEntry => i.row.issueKey) ∘ upd = fun i => i.row.issueKey :=
        funext hupdKey
      rw [hcomp]
      exact h.once
    · intro i hi hconf
      rw [hissues] at hi
      obtain ⟨j, hj, rfl⟩ := List.mem_map.mp hi
      rw [hupdKey] at hconf
      have hjc := h.own j hj hconf
      rw [hfix j hj hjc]
      exact hjc
  · rw [if_neg hopen]
    refine h.others rfl (fun i hc => ?_) (h.once_insertIssue (Bool.eq_false_iff.mpr hopen) kind)
      ?_ (h.numbered.insertIssue key kind)
    · rw [openIssues_insertIssue, List.mem_append, List.mem_singleton, or_iff_left]
      rintro rfl
      exact hkind hc
    · intro i hi hconf
      rcases List.mem_append.mp ((openIssues_insertIssue s _ _) ▸ hi : i ∈ _ ++ _) with hi | hi
      · exact h.own i hi hconf
      · rw [List.mem_singleton.mp hi] at hconf
        exact absurd hconf (by simp [hkey])

/-- The status refresh. -/
lemma refreshStatus (h : s.InStep) (env : Refresh) : (s.refreshStatus env).InStep := by
  have hcleared := (h.reconcile.expire env.cutoff).closeIssues (p := fun i =>
    !i.row.resolvedAt && decide (i.row.kind ∈ clearableKinds) && env.cleared i.row)
    fun i _ hkind => by simp [hkind, clearableKinds]
  unfold Review.refreshStatus
  dsimp only
  generalize Review.closeIssues _ _ = s₁ at hcleared ⊢
  induction env.hashFailed generalizing s₁ with
  | nil => exact hcleared
  | cons book books ih =>
    refine ih _ (hcleared.recordIssue ?_ (by decide))
    simp [isConflictKey, String.toList_append, List.isPrefixOf]

lemma dismissIssue (h : s.InStep) (id : ℕ) (env : Refresh) :
    (s.dismissIssue id env).1.InStep := by
  unfold Review.dismissIssue
  split
  · exact h
  · next i hfind =>
    split
    · exact h
    · next hkind =>
      split
      · exact h
      · refine (h.closeIssues fun j hj hconf => ?_).refreshStatus env
        have hi := List.find?_some hfind
        have hmem := List.mem_of_find?_eq_some hfind
        by_contra hclosed
        simp only [Bool.not_eq_false, Bool.and_eq_true, beq_iff_eq] at hi hclosed
        have hij : j = i := List.inj_on_of_nodup_map h.numbered.issues.nodup
          (mem_openIssues.mp hj).1 hmem
          (hclosed.1.trans hi.1.symm)
        exact hkind (hij ▸ hconf)

lemma dismissAllIssues (h : s.InStep) (env : Refresh) : (s.dismissAllIssues env).1.InStep := by
  unfold Review.dismissAllIssues
  dsimp only
  split
  · exact h
  · refine (h.closeIssues fun j hj hconf => ?_).refreshStatus env
    by_contra hclosed
    simp only [Bool.not_eq_false, Bool.and_eq_true, decide_eq_true_eq, List.mem_map,
      List.mem_filter] at hclosed
    obtain ⟨⟨i, ⟨hi, hfilter⟩, hid⟩, -⟩ := hclosed
    have hij : i = j := List.inj_on_of_nodup_map h.numbered.issues.nodup hi
      (mem_openIssues.mp hj).1 hid
    simp [hij, hconf] at hfilter

/-- The conflict that `openConflict` finds has the key of its row. -/
lemma issueKey_of_openConflict {id : ℕ} {conflict : OpenConflict}
    (hopen : s.openConflict id = some conflict) :
    ∃ c ∈ s.conflicts, c.id = id ∧ c.row.issueKey = conflict.issueKey := by
  unfold openConflict at hopen
  split at hopen
  · cases hopen
  · next c hfind =>
    have hid := List.find?_some hfind
    simp only [Bool.and_eq_true, beq_iff_eq] at hid
    refine ⟨c, List.mem_of_find?_eq_some hfind, hid.1, ?_⟩
    cases hopen
    rfl

/-- A row that is there is the only one with its id. -/
lemma settle_of_mem (h : s.InStep) {id : ℕ} {conflict : OpenConflict} {c : ConflictEntry}
    (hc : c ∈ s.conflicts) (hid : c.id = id) (hkey : c.row.issueKey = conflict.issueKey) :
    (s.settle id conflict).1.InStep := by
  refine h.settle fun c' hc' hid' => ?_
  have heq : c' = c :=
    List.inj_on_of_nodup_map h.numbered.conflicts.nodup hc' hc (hid'.trans hid.symm)
  rw [heq, hkey]

lemma setEntities (h : s.InStep) (entities : Table (EntityKind × String) EntityRow) :
    InStep { s with entities := entities } :=
  ⟨h.keys, h.once, h.own, ⟨h.numbered.issues, h.numbered.conflicts⟩⟩

lemma publish (h : s.InStep) (p : Publication) : (s.publish p).InStep := by
  unfold Review.publish
  have h' := h.setEntities p.entities
  generalize { s with entities := p.entities } = s₁ at h' ⊢
  induction p.recordings generalizing s₁ with
  | nil => exact h'
  | cons r rs ih => exact ih _ (h'.recordConflict r)

/-- Publishing keeps the conflicts that are there. -/
lemma conflicts_publish (s : Review) (p : Publication) :
    s.conflicts ⊆ (s.publish p).conflicts := by
  unfold Review.publish
  have hsub : s.conflicts ⊆ ({ s with entities := p.entities } : Review).conflicts := fun _ h => h
  generalize { s with entities := p.entities } = s₁ at hsub ⊢
  induction p.recordings generalizing s₁ with
  | nil => exact hsub
  | cons r rs ih =>
    refine ih _ fun c hc => ?_
    replace hc := hsub hc
    unfold Review.recordConflict
    split
    · exact hc
    · dsimp only
      refine List.mem_append_left _ ?_
      split
      · split <;> exact hc
      · exact hc

/-- **A conflict is resolved**, with either choice and whatever publishing does. -/
lemma resolveConflict (h : s.InStep) (id : ℕ) (resolution cutoff : String)
    (publication : Option Publication) (env : Refresh) :
    (s.resolveConflict id resolution cutoff publication env).1.InStep := by
  have h₁ := h.expire cutoff
  unfold Review.resolveConflict
  split
  · exact h
  · dsimp only
    split
    · exact h₁
    · next conflict hopen =>
      obtain ⟨c, hc, hid, hkey⟩ := issueKey_of_openConflict hopen
      split
      · exact (h₁.settle_of_mem hc hid hkey).refreshStatus env
      · split
        · exact h₁
        · split
          · exact h₁
          · next p =>
            have h₂ := h₁.publish p
            split
            · exact h₂
            · exact (h₂.settle_of_mem (conflicts_publish _ p hc) hid hkey).refreshStatus env

/-- **One operation keeps the tables in step.** -/
theorem step (h : s.InStep) {e : ReviewEvent} (he : s.Allows e) : (s.step e).InStep := by
  cases e with
  | recordConflict r => exact h.recordConflict r
  | recordTombstoneConflict createdAt kind uid loser loserHlc =>
    exact h.recordTombstoneConflict createdAt kind uid loser loserHlc
  | settle id conflict => exact h.settle he
  | reconcile => exact h.reconcile
  | expire cutoff => exact h.expire cutoff
  | dismissIssue id env => exact h.dismissIssue id env
  | dismissAllIssues env => exact h.dismissAllIssues env
  | resolveConflict id resolution cutoff publication env =>
    exact h.resolveConflict id resolution cutoff publication env
  | merge entities => exact h.setEntities entities
  | report key kind => exact h.recordIssue he.1 he.2
  | repair key =>
    refine h.closeIssues fun i hi hkind => ?_
    have hne : i.row.issueKey ≠ key := by
      rintro rfl
      exact absurd (h.key_of_mem hi hkind).1 (by simp [show isConflictKey _ = false from he])
    simp [hne]

end InStep

end

/-- Two conflicts on one field. -/
def sampleRecording (wall : ℤ) : Recording where
  createdAt := "2026-01-01T00:00:00.000Z"
  kind := .metadata
  entityUid := "book"
  field := "title"
  winner := .str "kept"
  loser := .str "discarded"
  winnerHlc := ⟨9, 0, "dddddddddddddddddddddddddddddddd"⟩
  loserHlc := ⟨wall, 0, "dddddddddddddddddddddddddddddddd"⟩

/-- Two conflicts share an issue; the first is settled. -/
def sampleReview : Review :=
  (((({} : Review).step (.recordConflict (sampleRecording 1))).step
    (.recordConflict (sampleRecording 2))).step
      (.settle 1 ⟨.metadata, "book", "title", none, .str "discarded"⟩))

end Review

end TuxBooks
