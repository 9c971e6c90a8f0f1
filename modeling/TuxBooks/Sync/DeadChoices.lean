import TuxBooks.Device.Capture
import TuxBooks.Lib.Guarded
import TuxBooks.Sync.Choices
import TuxBooks.Sync.Run

set_option relaxedAutoImplicit false
set_option autoImplicit false

/-!
# Reconcile closes dead choices

`reconcile` of `sidecar/src/sync/conflict.rs` closes every open conflict whose winner is not in the
mirror any more. It looks for the winner under the uid that the conflict was recorded with, while
the identity merges of `identity.rs` move, drop and combine the rows of uids and leave the
conflicts as they are. So a merge can close a choice that no newer write has taken away.

A run here is any order of operations, merges, captures and review steps, with the mirrors there
have been beside the current one: whether a winner has been overwritten is a question about them.

## Main definitions

* `TuxBooks.Overwritten` — a newer write of the same entity has been in some mirror.
* `TuxBooks.ReviewQueue`, `TuxBooks.ReviewQueue.Event`, `TuxBooks.ReviewQueue.step` — the runs.
* `TuxBooks.ReviewQueue.OnlyDead` — reconcile would close only conflicts that are overwritten.
* `TuxBooks.ReviewQueue.Spares` — the condition on a step.

## Main results

* `TuxBooks.ReviewQueue.onlyDead_of_meets` — in a run under the condition only dead choices close.
* `TuxBooks.ReviewQueue.merge_closes_choice` — a book merge that moves the winner closes one.
-/

namespace TuxBooks

/-! ## Dead choices -/

/-- The uid that the identity merges have led the uid of an entity to. -/
def Mirror.canonicalUid (m : Mirror) (kind : EntityKind) (uid : String) : String :=
  match kind with
  | .collection => m.canonicalEntityUid .collection uid
  | .membership =>
    match splitOnce ':' uid with
    | some (collection, book) =>
      m.canonicalEntityUid .collection collection ++ ":" ++ m.canonicalBookUid book
    | none => uid
  | .progress | .metadata | .opened => m.canonicalBookUid uid
  | _ => uid

/-- Some mirror of the history has a newer write to what the conflict is about, in the row of a uid
that some mirror of the history counts as the same entity. -/
def Overwritten (history : List Mirror) (c : ConflictRow) : Prop :=
  ∃ named ∈ history, ∃ m ∈ history, ∃ uid,
    named.canonicalUid c.kind uid = named.canonicalUid c.kind c.entityUid ∧
      ∃ r ∈ m.entities.lookup (c.kind, uid), r.Newer c

section History

variable {history history' : List Mirror} {m m' : Mirror} {c : ConflictRow}

/-- What a conflict is about depends on the merge tables and the rows only. -/
lemma Overwritten.imp (h : Overwritten history c)
    (hnames : ∀ m ∈ history, ∃ m' ∈ history', m'.merges = m.merges ∧
      m'.entityMerges = m.entityMerges)
    (hrows : ∀ m ∈ history, ∃ m' ∈ history', m'.entities = m.entities) :
    Overwritten history' c := by
  obtain ⟨named, hnamed, m, hm, uid, hsame, hnewer⟩ := h
  obtain ⟨named', hnamed', hmerges, hentity⟩ := hnames named hnamed
  obtain ⟨m', hm', hentities⟩ := hrows m hm
  have huid : ∀ kind uid, named'.canonicalUid kind uid = named.canonicalUid kind uid := by
    intro kind uid
    unfold Mirror.canonicalUid Mirror.canonicalEntityUid Mirror.canonicalBookUid
    rw [hmerges, hentity]
  exact ⟨named', hnamed', m', hm', uid, by rw [huid, huid, hsame], hentities ▸ hnewer⟩

/-- Where no row of any mirror has a newer write, there is none of the entity. -/
lemma not_overwritten (h : ∀ m ∈ history, ∀ e ∈ m.entities.entries, ¬e.2.Newer c) :
    ¬Overwritten history c := by
  rintro ⟨-, -, m, hm, uid, -, r, hr, hnewer⟩
  exact h m hm ⟨(c.kind, uid), r⟩ (Table.lookup_eq_some_iff.mp hr) hnewer

lemma Overwritten.mono (h : Overwritten history c) (hsub : history ⊆ history') :
    Overwritten history' c :=
  h.imp (fun m hm => ⟨m, hsub hm, rfl, rfl⟩) fun m hm => ⟨m, hsub hm, rfl⟩

/-- Where a mirror of the history is replaced by one with its merge tables, and its rows are still
in the history, dead choices stay dead. -/
lemma Overwritten.head (h : Overwritten (m :: history) c)
    (hmerges : m'.merges = m.merges) (hentity : m'.entityMerges = m.entityMerges)
    (hrows : ∃ m₀ ∈ m' :: history, m₀.entities = m.entities) : Overwritten (m' :: history) c := by
  refine h.imp (fun m₀ hm₀ => ?_) fun m₀ hm₀ => ?_
  · rcases List.mem_cons.mp hm₀ with rfl | hold
    · exact ⟨m', List.mem_cons_self .., hmerges, hentity⟩
    · exact ⟨m₀, List.mem_cons_of_mem _ hold, rfl, rfl⟩
  · rcases List.mem_cons.mp hm₀ with rfl | hold
    · exact hrows
    · exact ⟨m₀, List.mem_cons_of_mem _ hold, rfl⟩

/-- A newer write at the uid of the conflict itself. -/
lemma heeds_overwritten (m : Mirror) (past : List Mirror) : m.Heeds (Overwritten (m :: past)) :=
  fun c _ _ r hr hnewer =>
    ⟨m, List.mem_cons_self .., m, List.mem_cons_self .., c.entityUid, rfl, r, hr, hnewer⟩

end History

/-! ## Review steps on the mirror -/

namespace Mirror

/-- The tables that the review reads; an id stands for the place of its row. -/
def review (m : Mirror) (createdAt : ℕ → String) : Review where
  entities := m.entities
  conflicts := m.conflicts.mapIdx fun i row => ⟨i, createdAt i, row⟩
  issues := m.issues.mapIdx fun i row => ⟨i, row⟩
  lastConflict := m.conflicts.length
  lastIssue := m.issues.length

/-- What the review wrote. -/
def reviewed (m : Mirror) (s : Review) : Mirror :=
  { m with
    conflicts := s.conflicts.map ConflictEntry.row
    issues := s.issues.map IssueEntry.row }

def reconcile (m : Mirror) : Mirror := m.reviewed (m.review fun _ => "").reconcile.1

def expire (m : Mirror) (createdAt : ℕ → String) (cutoff : String) : Mirror :=
  m.reviewed ((m.review createdAt).expire cutoff).1

def settle (m : Mirror) (id : ℕ) (conflict : OpenConflict) : Mirror :=
  m.reviewed ((m.review fun _ => "").settle id conflict).1

/-- Reconcile closes an open conflict. -/
def Closes (m : Mirror) (c : ConflictRow) : Prop :=
  ∃ i : ℕ, m.conflicts[i]? = some c ∧ c.resolvedAt = false ∧
    ∃ c' : ConflictRow, m.reconcile.conflicts[i]? = some c' ∧ c'.resolvedAt = true

/-! ## Merges -/

/-- The canonical uids that `mergeBookIdentity` merges, if it merges any. -/
def bookMerge (m : Mirror) (loser winner : String) : Option (String × String) :=
  let winner := m.canonicalBookUid winner
  let loser := m.canonicalBookUid loser
  if loser = winner then none
  else if (m.forgottenReplacement winner).isSome ∨ (m.forgottenReplacement loser).isSome then none
  else some (loser, winner)

/-- The two uids that an identity operation merges, if it names another book than the alias. -/
def identityMerge (m : Mirror) (op : Op) : Option (String × String) := do
  let contentHash ← (op.fields.lookup "content_hash").bind Value.asStr
  let incoming ← m.resolveIdentity op.entityUid
  let existing ← m.existingAlias contentHash
  some (max existing incoming, min existing incoming)

/-- A book merge spares the choices that are open once its two uids count as one entity. -/
def SparesMerge (history : List Mirror) (m : Mirror) (loser winner : String) : Prop :=
  ∀ p ∈ m.bookMerge loser winner, (m.mergeBookStart p.1 p.2).SparesBook
    (Overwritten (m.mergeBookStart p.1 p.2 :: history)) p.1 p.2

end Mirror

/-! ## Runs -/

/-- The mirror, and the mirrors there have been. -/
structure ReviewQueue where
  mirror : Mirror := {}
  past : List Mirror := []

namespace ReviewQueue

inductive Event where
  | apply (op : Op)
  /-- A local edit meets a tombstone. -/
  | recordTombstoneConflict (kind : EntityKind) (uid : String) (loser : State) (now : Hlc)
  | mergeBookIdentity (loser winner : String)
  | mergeCollectionIdentity (loser winner : String)
  | reconcile
  | expire (createdAt : ℕ → String) (cutoff : String)
  | settle (id : ℕ) (conflict : OpenConflict)
  /-- Tables other than the entities and the conflicts are written. -/
  | write (m : Mirror)
  | resetSyncState

/-- The mirrors there have been, with the current one. -/
def history (q : ReviewQueue) : List Mirror := q.mirror :: q.past

/-- What an event does to the mirror. -/
def after (fromStr : String → Option Value) (m : Mirror) : Event → Mirror
  | .apply op => (m.applyOp fromStr op).1
  | .recordTombstoneConflict kind uid loser now => m.recordTombstoneConflict kind uid loser now
  | .mergeBookIdentity loser winner => m.mergeBookIdentity loser winner
  | .mergeCollectionIdentity loser winner => m.mergeCollectionIdentity loser winner
  | .reconcile => m.reconcile
  | .expire createdAt cutoff => m.expire createdAt cutoff
  | .settle id conflict => m.settle id conflict
  | .write m' => { m' with
      entities := m.entities
      conflicts := m.conflicts }
  | .resetSyncState => {}

/-- One step of a run. A reset begins anew. -/
def step (fromStr : String → Option Value) (q : ReviewQueue) (event : Event) : ReviewQueue :=
  match event with
  | .resetSyncState => {}
  | event => ⟨after fromStr q.mirror event, q.history⟩

/-- Operations have passed the validator, and captures are of state kinds. -/
def Event.Valid : Event → Prop
  | .apply op => validateOp op = .ok ()
  | .recordTombstoneConflict kind _ _ _ => kind.IsState
  | _ => True

instance : DecidablePred Event.Valid
  | .apply op => inferInstanceAs (Decidable (validateOp op = .ok ()))
  | .recordTombstoneConflict kind _ _ _ => inferInstanceAs (Decidable kind.IsState)
  | .mergeBookIdentity _ _ | .mergeCollectionIdentity _ _ | .reconcile | .expire _ _
  | .settle _ _ | .write _ | .resetSyncState => isTrue trivial

/-- Reconcile would close only choices that a newer write has taken away. -/
def OnlyDead (q : ReviewQueue) : Prop :=
  ∀ c, q.mirror.Closes c → Overwritten q.history c

/-- The condition on a step: deletes have a clock that reads as one, and identity merges spare the
open choices. -/
def Spares (q : ReviewQueue) : Event → Prop
  | .apply op =>
    (op.deleted = true → op.kind.IsState → op.hlc.wall ≠ 0) ∧
      (op.opId ∉ q.mirror.appliedOps → op.kind = .bookIdentity →
        ∀ p ∈ q.mirror.identityMerge op,
          (q.mirror.observeHlc op.hlc).SparesMerge q.history p.1 p.2)
  | .mergeBookIdentity loser winner => q.mirror.SparesMerge q.history loser winner
  | .mergeCollectionIdentity loser winner =>
    loser ≠ winner → (q.mirror.joinCollections loser winner).SparesCollection
      (Overwritten (q.mirror.joinCollections loser winner :: q.history)) loser winner
  | _ => True

end ReviewQueue

/-! ## Reconcile -/

namespace Review

variable {s : Review} {c : ConflictRow} {r : EntityRow}

/-- A conflict whose winner is in the row it names is live. -/
lemma isLive_of_shows (hr : s.entities.lookup (c.kind, c.entityUid) = some r) (h : r.Shows c) :
    s.isLive c = .ok true := by
  unfold EntityRow.Shows at h
  unfold isLive
  rw [hr]
  dsimp only
  by_cases hentity : c.field = "__entity__"
  · rw [if_pos hentity] at h ⊢
    rw [h, decide_eq_true rfl]
  rw [if_neg hentity] at h ⊢
  by_cases hon : c.OnTombstone
  · have hfield : c.field = "__deleted__" ∨ c.field = "__restore__" := hon
    rw [if_pos hon] at h
    rw [if_pos hfield, h.2, h.1]
    simp
  · have hfield : ¬(c.field = "__deleted__" ∨ c.field = "__restore__") := hon
    rw [if_neg hon] at h
    rw [if_neg hfield, h]
    simp

/-- Only conflicts that are open and not live are settled. -/
lemma mem_settledIds {l : List ConflictEntry} {ids : List ℕ} (h : s.settledIds l = .ok ids)
    {id : ℕ} (hid : id ∈ ids) : ∃ e ∈ l, e.id = id ∧ s.isLive e.row = .ok false := by
  induction l generalizing ids with
  | nil =>
    cases h
    cases hid
  | cons e l ih =>
    have hrest : ∀ ids, s.settledIds l = .ok ids → id ∈ ids →
        ∃ e' ∈ e :: l, e'.id = id ∧ s.isLive e'.row = .ok false := by
      intro ids h hid
      obtain ⟨e', he', hfound⟩ := ih h hid
      exact ⟨e', List.mem_cons_of_mem e he', hfound⟩
    unfold settledIds at h
    split_ifs at h with hresolved
    · exact hrest ids h hid
    · cases hlive : s.isLive e.row with
      | error e => rw [hlive] at h; cases h
      | ok live =>
        rw [hlive] at h
        dsimp only at h
        cases hids : s.settledIds l with
        | error e => rw [hids] at h; cases h
        | ok ids' =>
          rw [hids] at h
          cases live with
          | true =>
            cases h
            exact hrest ids' hids hid
          | false =>
            cases h
            rcases List.mem_cons.mp hid with rfl | hid
            · exact ⟨e, List.mem_cons_self .., rfl, hlive⟩
            · exact hrest ids' hids hid

/-- After reconcile a conflict is as before, or it has been settled. -/
lemma conflicts_reconcile (s : Review) : s.reconcile.1.conflicts = s.conflicts ∨
    ∃ ids, s.settledIds s.conflicts = .ok ids ∧
      s.reconcile.1.conflicts = (s.resolveRows ids).conflicts := by
  unfold reconcile
  cases hids : s.settledIds s.conflicts with
  | error e => exact .inl rfl
  | ok ids =>
    dsimp only
    split_ifs
    · exact .inl rfl
    · exact .inr ⟨ids, rfl, rfl⟩

lemma mem_conflicts_resolveRows {ids : List ℕ} {e : ConflictEntry}
    (he : e ∈ (s.resolveRows ids).conflicts) (hopen : e.row.resolvedAt = false) :
    e ∈ s.conflicts := by
  obtain ⟨e₀, he₀, heq⟩ := List.mem_map.mp he
  split_ifs at heq
  · rw [← heq] at hopen
    cases hopen
  · exact heq ▸ he₀

end Review

namespace Mirror

variable {m : Mirror} {c : ConflictRow}

lemma mem_conflicts_review {createdAt : ℕ → String} {e : ConflictEntry}
    (he : e ∈ (m.review createdAt).conflicts) : m.conflicts[e.id]? = some e.row := by
  obtain ⟨i, hi, rfl⟩ := List.mem_mapIdx.mp he
  exact List.getElem?_eq_getElem hi

/-- **A conflict that reconcile closes does not have its winner in the row it names.** -/
theorem Closes.not_shows (h : m.Closes c) {r : EntityRow}
    (hr : m.entities.lookup (c.kind, c.entityUid) = some r) : ¬r.Shows c := by
  intro hshows
  obtain ⟨i, hi, hopen, c', hc', hclosed⟩ := h
  have hentry : (m.review fun _ => "").conflicts[i]? = some ⟨i, "", c⟩ := by
    unfold review
    rw [List.getElem?_mapIdx, hi]
    rfl
  have hlive : (m.review fun _ => "").isLive c = .ok true := Review.isLive_of_shows hr hshows
  unfold reconcile reviewed at hc'
  rw [List.getElem?_map] at hc'
  rcases (m.review fun _ => "").conflicts_reconcile with hsame | ⟨ids, hids, hsettled⟩
  · rw [hsame, hentry] at hc'
    cases hc'
    rw [hopen] at hclosed
    cases hclosed
  · rw [hsettled] at hc'
    unfold Review.resolveRows at hc'
    dsimp only at hc'
    rw [List.getElem?_map, hentry] at hc'
    simp only [Option.map_some, Option.some.injEq] at hc'
    split_ifs at hc' with hmem
    · obtain ⟨e, he, hid, hdead⟩ := Review.mem_settledIds hids hmem.1
      have hrow := mem_conflicts_review he
      rw [hid, hi] at hrow
      rw [← Option.some.inj hrow, hlive] at hdead
      cases hdead
    · rw [← hc', hopen] at hclosed
      cases hclosed

/-- The open conflicts after a review step are open ones from before. -/
lemma mem_conflicts_reviewed {createdAt : ℕ → String} {s : Review}
    (hsub : ∀ e ∈ s.conflicts, e.row.resolvedAt = false → e ∈ (m.review createdAt).conflicts) :
    ∀ c ∈ (m.reviewed s).conflicts, c.resolvedAt = false → c ∈ m.conflicts := by
  intro c hc hopen
  obtain ⟨e, he, rfl⟩ := List.mem_map.mp hc
  exact List.mem_of_getElem? (mem_conflicts_review (hsub e he hopen))

end Mirror

/-! ## Steps -/

namespace Mirror

section Steps

variable {history : List Mirror} {m m' : Mirror} {loser winner : String}

lemma Sound.of_history (h : m'.Sound (Overwritten history)) :
    m'.Sound (Overwritten (m' :: history)) :=
  h.mono fun _ hdead => hdead.mono (List.subset_cons_self _ _)

/-- Writing other tables leaves the merge tables, the conflicts and the rows. -/
lemma Sound.tables (h : m.Sound (Overwritten (m :: history))) (hsame : m.SameChoices m')
    (hentities : m'.entities = m.entities) (hmerges : m'.merges = m.merges)
    (hentity : m'.entityMerges = m.entityMerges) : m'.Sound (Overwritten (m' :: history)) :=
  (h.same hsame).mono fun _ hdead =>
    Overwritten.head hdead hmerges hentity ⟨m', List.mem_cons_self .., hentities⟩

lemma mergeBookIdentity_eq (m : Mirror) (loser winner : String) :
    m.mergeBookIdentity loser winner =
      match m.bookMerge loser winner with
      | some p => m.mergeBookRows p.1 p.2
      | none => m := by
  unfold Mirror.mergeBookIdentity bookMerge
  dsimp only
  split_ifs <;> rfl

lemma ne_of_bookMerge {p : String × String} (h : m.bookMerge loser winner = some p) :
    p.1 ≠ p.2 := by
  unfold bookMerge at h
  dsimp only at h
  split_ifs at h with hsame
  cases h
  exact hsame

/-- **A book merge that spares the open choices.** -/
theorem Sound.mergeBookIdentity (h : m.Sound (Overwritten history))
    (hrows : ∃ m₀ ∈ history, m₀.entities = m.entities)
    (hspares : m.SparesMerge history loser winner) :
    (m.mergeBookIdentity loser winner).Sound
      (Overwritten (m.mergeBookIdentity loser winner :: history)) := by
  rw [mergeBookIdentity_eq]
  cases hmerge : m.bookMerge loser winner with
  | none => exact h.of_history
  | some p =>
    dsimp only
    have hstart : m.Sound (Overwritten (m.mergeBookStart p.1 p.2 :: history)) :=
      h.mono fun _ hdead => hdead.mono (List.subset_cons_self _ _)
    obtain ⟨-, -, hmerges, hentity, -⟩ := m.mergeBookRows_tables p.1 p.2
    obtain ⟨m₀, hm₀, hentities⟩ := hrows
    exact (hstart.mergeBookRows (ne_of_bookMerge hmerge) (hspares p hmerge)).mono fun _ hdead =>
      Overwritten.head hdead hmerges hentity ⟨m₀, List.mem_cons_of_mem _ hm₀, hentities⟩

lemma onlyEntities_foldl_move {move : Mirror → String → Mirror}
    (hmove : ∀ m uid, OnlyEntities m (move m uid)) (m : Mirror) (uids : List String) :
    OnlyEntities m (uids.foldl move m) := by
  induction uids generalizing m with
  | nil => exact .refl m
  | cons uid uids ih => exact (hmove m uid).trans (ih _)

/-- **A collection merge that spares the open choices.** -/
theorem Sound.mergeCollectionIdentity_history (h : m.Sound (Overwritten history))
    (hm : m ∈ history) (hspares : loser ≠ winner → (m.joinCollections loser winner).SparesCollection
      (Overwritten (m.joinCollections loser winner :: history)) loser winner) :
    (m.mergeCollectionIdentity loser winner).Sound
      (Overwritten (m.mergeCollectionIdentity loser winner :: history)) := by
  by_cases hsame : loser = winner
  · have hnone : m.mergeCollectionIdentity loser winner = m := if_pos hsame
    rw [hnone]
    exact h.of_history
  have hjoin : m.Sound (Overwritten (m.joinCollections loser winner :: history)) :=
    h.mono fun _ hdead => hdead.mono (List.subset_cons_self _ _)
  have hmoves : OnlyEntities (m.joinCollections loser winner)
      ((((m.joinCollections loser winner).mergeCollectionFields loser winner).membershipsLike
        loser).foldl (Mirror.rekeyMembershipCollection winner)
        ((m.joinCollections loser winner).mergeCollectionFields loser winner)) := by
    have hfields : OnlyEntities (m.joinCollections loser winner)
        ((m.joinCollections loser winner).mergeCollectionFields loser winner) :=
      ⟨rfl, rfl, rfl, rfl, rfl, rfl, rfl, rfl⟩
    refine hfields.trans (onlyEntities_foldl_move (fun m uid => ?_) _ _)
    unfold Mirror.rekeyMembershipCollection
    split
    · exact onlyEntities_mergeEntityUid ..
    · exact .refl m
  have hmerged : m.mergeCollectionIdentity loser winner = _ := if_neg hsame
  refine (hjoin.mergeCollectionIdentity hspares).mono fun _ hdead => ?_
  refine Overwritten.head hdead ?_ ?_ ⟨m, List.mem_cons_of_mem _ hm, rfl⟩
  · rw [hmerged]
    exact hmoves.merges
  · rw [hmerged]
    exact hmoves.entityMerges

section Operations

variable (fromStr : String → Option Value) {op : Op}

/-- A row of a whole book is no row that conflicts are about. -/
lemma sameChoices_of_insert {uid : String} {r : EntityRow} (hconflicts : m'.conflicts = m.conflicts)
    (hentities : m'.entities = m.entities.insert (.book, uid) r) : m.SameChoices m' := by
  refine ⟨hconflicts, fun kind uid' hstate => ?_⟩
  rw [hentities, Table.lookup_insert', if_neg]
  intro hkey
  exact hstate.2 (Prod.mk.inj hkey).1

lemma sameChoices_recordIssue (m : Mirror) (key kind : String) :
    m.SameChoices (m.recordIssue key kind) := by
  refine ⟨?_, fun _ _ _ => by rw [entities_recordIssue]⟩
  unfold recordIssue
  split_ifs <;> rfl

/-- What a whole-book operation writes besides the aliases, the book trash and the issues: one row
of the book, whose clocks are old ones or that of the operation. -/
structure WritesBook (op : Op) (m m' : Mirror) : Prop where
  conflicts : m'.conflicts = m.conflicts
  clock : m'.clock = m.clock
  row : ∃ uid r, m'.entities = m.entities.insert (.book, uid) r ∧ r.hlc = op.hlc ∧
    r.fields = (m.row .book uid).fields ∧
    (r.deletedClock = (m.row .book uid).deletedClock ∨ r.deletedClock = some op.hlc) ∧
    (r.restoredClock = (m.row .book uid).restoredClock ∨ r.restoredClock = some op.hlc)

lemma WritesBook.recordIssue (h : m.WritesBook op m') (key kind : String) :
    m.WritesBook op (m'.recordIssue key kind) := by
  unfold Mirror.recordIssue
  split_ifs
  · exact h
  · exact ⟨h.conflicts, h.clock, h.row⟩

/-- **What a whole-book operation does**: nothing, or it writes a row of the book. -/
theorem applyBook_cases (m : Mirror) (op : Op) :
    (m.applyBook fromStr op).1 = m ∨ m.WritesBook op (m.applyBook fromStr op).1 := by
  have hforget : ∀ uid, m.WritesBook op (m.forgetBook fromStr op uid) := by
    intro uid
    unfold forgetBook
    dsimp only
    split <;> exact ⟨rfl, rfl, uid, _, rfl, rfl, rfl, .inr rfl, .inl rfl⟩
  have hrestore : ∀ uid, m.WritesBook op (m.restoreBook fromStr op uid) := by
    intro uid
    unfold restoreBook
    dsimp only
    split
    · refine WritesBook.recordIssue ?_ _ _
      split
      · exact ⟨rfl, rfl, uid, _, rfl, rfl, rfl, .inl rfl, .inr rfl⟩
      · split <;> exact ⟨rfl, rfl, uid, _, rfl, rfl, rfl, .inl rfl, .inr rfl⟩
    · split
      · exact ⟨rfl, rfl, uid, _, rfl, rfl, rfl, .inl rfl, .inr rfl⟩
      · split <;> exact ⟨rfl, rfl, uid, _, rfl, rfl, rfl, .inl rfl, .inr rfl⟩
  unfold applyBook
  dsimp only
  split
  · split_ifs
    · exact .inl rfl
    · exact .inl rfl
    · exact .inr (hforget _)
  · exact .inr (hforget _)
  · split_ifs
    · exact .inl rfl
    · exact .inl rfl
    · exact .inr (hrestore _)
  · exact .inr (hrestore _)

/-- Whole-book operations are about no conflict. -/
lemma sameChoices_applyBook (m : Mirror) (op : Op) : m.SameChoices (m.applyBook fromStr op).1 := by
  rcases applyBook_cases fromStr m op with hsame | hwrites
  · rw [hsame]
    exact ⟨rfl, fun _ _ _ => rfl⟩
  · obtain ⟨uid, r, hentities, -⟩ := hwrites.row
    exact sameChoices_of_insert hwrites.conflicts hentities

/-- The smaller of two uids is one of them, so at most one of the two merges is one. -/
lemma unifyAlias_eq (m : Mirror) (existing : Option String) (incoming : String) :
    (m.unifyAlias existing incoming).1 =
      match existing with
      | some existing => m.mergeBookIdentity (max existing incoming) (min existing incoming)
      | none => m := by
  cases existing with
  | none => rfl
  | some existing =>
    have hself : ∀ (m : Mirror) uid, m.mergeBookIdentity uid uid = m := fun _ _ => if_pos rfl
    unfold unifyAlias
    dsimp only
    rcases lt_trichotomy existing incoming with hlt | heq | hlt
    · rw [min_eq_left hlt.le, max_eq_right hlt.le, if_neg (not_not.mpr rfl), if_pos hlt.ne]
    · rw [heq, min_self, max_self, if_neg (not_not.mpr rfl), if_neg (not_not.mpr rfl), hself]
    · rw [min_eq_right hlt.le, max_eq_left hlt.le, if_pos hlt.ne', if_neg (not_not.mpr rfl)]

/-- What an identity operation does to the rows and the merge tables is one book merge, if any. -/
lemma exists_applyIdentity (m : Mirror) (op : Op) : ∃ aliases, (m.applyIdentity op).1 =
    { (match m.identityMerge op with
      | some p => m.mergeBookIdentity p.1 p.2
      | none => m) with aliases := aliases } := by
  unfold applyIdentity identityMerge resolveIdentity
  cases hhash : (op.fields.lookup "content_hash").bind Value.asStr with
  | none => exact ⟨m.aliases, rfl⟩
  | some contentHash =>
    dsimp only
    have hunify : ∀ incoming,
        ∃ aliases, ({ (m.unifyAlias (m.existingAlias contentHash) incoming).1 with
          aliases := (m.unifyAlias (m.existingAlias contentHash) incoming).1.aliases.insert
            contentHash (m.unifyAlias (m.existingAlias contentHash) incoming).2 } : Mirror) =
        { (match (do
            let existing ← m.existingAlias contentHash
            some (max existing incoming, min existing incoming) : Option (String × String)) with
          | some p => m.mergeBookIdentity p.1 p.2
          | none => m) with aliases := aliases } := by
      intro incoming
      rw [unifyAlias_eq]
      cases m.existingAlias contentHash <;> exact ⟨_, rfl⟩
    rcases m.forgottenReplacement (m.canonicalBookUid op.entityUid) with _ | _ | replacement
    · exact hunify _
    · exact ⟨m.aliases, rfl⟩
    · exact hunify _

/-- **An identity operation that spares the open choices.** -/
lemma Sound.applyIdentity (h : m.Sound (Overwritten history))
    (hrows : ∃ m₀ ∈ history, m₀.entities = m.entities)
    (hspares : ∀ p ∈ m.identityMerge op, m.SparesMerge history p.1 p.2) :
    (m.applyIdentity op).1.Sound (Overwritten ((m.applyIdentity op).1 :: history)) := by
  obtain ⟨aliases, hresult⟩ := exists_applyIdentity m op
  rw [hresult]
  cases hmerge : m.identityMerge op with
  | none => exact (h.of_history).tables ⟨rfl, fun _ _ _ => rfl⟩ rfl rfl rfl
  | some p =>
    have hmerged := h.mergeBookIdentity hrows (hspares p hmerge)
    exact hmerged.tables ⟨rfl, fun _ _ _ => rfl⟩ rfl rfl rfl

/-- **An operation that spares the open choices.** -/
theorem Sound.applyOp (h : m.Sound (Overwritten history)) (hm : m ∈ history)
    (hheeds : m.Heeds (Overwritten history)) (hop : op.Accepted)
    (hclock : op.deleted = true → op.kind.IsState → op.hlc.wall ≠ 0)
    (hspares : op.opId ∉ m.appliedOps → op.kind = .bookIdentity →
      ∀ p ∈ m.identityMerge op, (m.observeHlc op.hlc).SparesMerge history p.1 p.2) :
    (m.applyOp fromStr op).1.Sound (Overwritten ((m.applyOp fromStr op).1 :: history)) := by
  have hmark : ∀ m' : Mirror, m'.Sound (Overwritten (m' :: history)) →
      (m'.markApplied op).Sound (Overwritten (m'.markApplied op :: history)) :=
    fun m' h' => h'.tables ⟨rfl, fun _ _ _ => rfl⟩ rfl rfl rfl
  have hobserve : (m.observeHlc op.hlc).Sound (Overwritten history) :=
    h.same ⟨rfl, fun _ _ _ => rfl⟩
  unfold Mirror.applyOp
  by_cases hseen : op.opId ∈ m.appliedOps
  · rw [if_pos hseen]
    exact h.of_history
  rw [if_neg hseen]
  dsimp only
  by_cases hidentity : op.kind = .bookIdentity
  · rw [if_pos hidentity]
    have happly := hobserve.applyIdentity ⟨m, hm, rfl⟩ (hspares hseen hidentity)
    rcases hresult : (m.observeHlc op.hlc).applyIdentity op with ⟨m', result⟩
    rw [hresult] at happly
    cases result with
    | ok affected => exact hmark m' happly
    | error e => exact happly
  rw [if_neg hidentity]
  by_cases hbook : op.kind = .book
  · rw [if_pos hbook]
    exact hmark _ (hobserve.same (sameChoices_applyBook fromStr _ op)).of_history
  rw [if_neg hbook]
  split_ifs
  · exact hmark _ hobserve.of_history
  · have hstate : op.kind.IsState := ⟨hidentity, hbook⟩
    have happly := (hobserve.applyStateOp hheeds hstate hop
      fun hdel => hclock hdel hstate).of_history
    rcases hresult : (m.observeHlc op.hlc).applyStateOp op with ⟨m', result⟩
    rw [hresult] at happly
    cases result with
    | ok affected => exact hmark m' happly
    | error e => exact happly

/-- **A local edit that meets a tombstone** is recorded as the loser of its clock. -/
lemma Sound.recordTombstoneConflict (h : m.Sound (Overwritten history)) {kind : EntityKind}
    (hstate : kind.IsState) (uid : String) (loser : State) (now : Hlc) :
    (m.recordTombstoneConflict kind uid loser now).Sound (Overwritten history) := by
  unfold Mirror.recordTombstoneConflict
  split_ifs with hdel
  · cases hrow : m.entities.lookup (kind, uid) with
    | none =>
      rw [Mirror.row, hrow] at hdel
      cases hdel
    | some r =>
      rw [row_of_lookup hrow] at hdel ⊢
      have hclock := ((h.clocks kind uid hstate r hrow).deletedClock hdel).1
      rw [hclock, Option.getD_some]
      exact h.recordConflict hrow ⟨hstate, .inr (.inl (.inl rfl))⟩
        (.of_tombstone (.inl rfl) hdel hclock)
  · exact h

end Operations

end Steps

end Mirror

namespace ReviewQueue

variable {fromStr : String → Option Value} {q : ReviewQueue} {event : Event}

/-- Behind every open conflict is its winner, unless a newer write has overwritten it. -/
def Inv (q : ReviewQueue) : Prop := q.mirror.Sound (Overwritten q.history)

/-- **A conflict that reconcile closes is overwritten.** -/
theorem Inv.onlyDead (h : q.Inv) : q.OnlyDead := by
  intro c hcloses
  obtain ⟨i, hi, hopen, -⟩ := id hcloses
  have hc : c ∈ q.mirror.conflicts := List.mem_of_getElem? hi
  rcases h.choices c hc hopen with hdead | ⟨-, r, hr, hshows | hnewer⟩
  · exact hdead
  · exact absurd hshows (hcloses.not_shows hr)
  · exact heeds_overwritten q.mirror q.past c hc hopen r hr hnewer

/-- **One step keeps the invariant.** -/
theorem Inv.step (h : q.Inv) (hvalid : event.Valid) (hspares : q.Spares event) :
    (q.step fromStr event).Inv := by
  have hm : q.mirror ∈ q.history := List.mem_cons_self ..
  have hheeds : q.mirror.Heeds (Overwritten q.history) := heeds_overwritten q.mirror q.past
  have hreview : ∀ (createdAt : ℕ → String) (s : Review),
      (∀ e ∈ s.conflicts, e.row.resolvedAt = false →
        e ∈ (q.mirror.review createdAt).conflicts) →
      (q.mirror.reviewed s).Sound (Overwritten (q.mirror.reviewed s :: q.history)) :=
    fun createdAt s hsub =>
      have hshrunk : (q.mirror.reviewed s).Sound (Overwritten q.history) :=
        h.shrink rfl (Mirror.mem_conflicts_reviewed hsub)
      hshrunk.of_history
  cases event with
  | apply op =>
    exact h.applyOp fromStr hm hheeds (accepted_of_validateOp hvalid) hspares.1 hspares.2
  | recordTombstoneConflict kind uid loser now =>
    exact (h.recordTombstoneConflict hvalid uid loser now).of_history
  | mergeBookIdentity loser winner => exact h.mergeBookIdentity ⟨q.mirror, hm, rfl⟩ hspares
  | mergeCollectionIdentity loser winner => exact h.mergeCollectionIdentity_history hm hspares
  | reconcile =>
    refine hreview (fun _ => "") _ fun e he hopen => ?_
    rcases (q.mirror.review fun _ => "").conflicts_reconcile with hsame | ⟨ids, -, hsettled⟩
    · rwa [hsame] at he
    · rw [hsettled] at he
      exact Review.mem_conflicts_resolveRows he hopen
  | expire createdAt cutoff =>
    refine hreview createdAt _ fun e he _ => ?_
    unfold Review.expire at he
    dsimp only at he
    split_ifs at he
    · exact he
    · exact (List.mem_filter.mp he).1
  | settle id conflict =>
    exact hreview (fun _ => "") _ fun e he hopen => Review.mem_conflicts_resolveRows he hopen
  | write m' =>
    have hsame : (after fromStr q.mirror (.write m')).Sound (Overwritten q.history) :=
      h.same ⟨rfl, fun _ _ _ => rfl⟩
    exact hsame.of_history
  | resetSyncState =>
    exact ⟨fun c hc => absurd hc List.not_mem_nil, fun kind uid _ r hr => by cases hr⟩

/-- A title for a book. -/
def titleOp (wall : ℤ) (opId bookUid title : String) : Op :=
  { sampleOp .metadata wall opId false false ((∅ : Fields).insert "title" (.str title)) with
    entityUid := bookUid
    bookUid := some bookUid }

/-- A title arrives, and then an older one that loses against it. -/
def losingRun : List Event :=
  [.apply (titleOp 2000 "00000000000000000000000000000002" "b" "kept"),
    .apply (titleOp 1000 "00000000000000000000000000000001" "b" "discarded")]

/-- What the conflict of `losingRun` records. -/
def titleConflict : ConflictRow where
  kind := .metadata
  entityUid := "b"
  field := "title"
  winner := .str "kept"
  loser := .str "discarded"
  winnerHlc := ⟨2000, 0, "dddddddddddddddddddddddddddddddd"⟩
  loserHlc := ⟨1000, 0, "dddddddddddddddddddddddddddddddd"⟩
  resolvedAt := false

/-- Then the book turns out to be another one. -/
def collapsedRun : List Event := losingRun ++ [Event.mergeBookIdentity "b" "a"]

/-- A newer title arrives before the merge. -/
def overtakenRun : List Event :=
  losingRun ++ [.apply (titleOp 3000 "00000000000000000000000000000003" "b" "newer"),
    .mergeBookIdentity "b" "a"]

/-- A title is neither a delete nor an identity. -/
lemma spares_titleOp (q : ReviewQueue) (wall : ℤ) (opId bookUid title : String) :
    q.Spares (.apply (titleOp wall opId bookUid title)) := by
  constructor
  · intro hdel
    cases hdel
  · intro _ hkind
    cases hkind

/-- The newer title has overwritten the conflict when its book is merged away. -/
lemma spares_overtaken : ((overtakenRun.take 3).foldl (step fun _ => none) {}).Spares
    (.mergeBookIdentity "b" "a") := by
  intro p hp
  have hp' : p = ("b", "a") :=
    Option.some.inj (hp.symm.trans (by decide +kernel))
  subst hp'
  generalize hstart : (((overtakenRun.take 3).foldl (step fun _ => none) {}).mirror.mergeBookStart
    "b" "a") = m
  have hconflicts : m.conflicts = [titleConflict] := by
    rw [← hstart]
    decide +kernel
  have hnewer : ∃ r ∈ m.entities.lookup (.metadata, "b"), r.Newer titleConflict := by
    rw [← hstart]
    decide +kernel
  have hmemberships : (m.mergeBookSelfKeyed "b" "a").membershipsOfBook "a" = [] := by
    rw [← hstart]
    decide +kernel
  refine ⟨fun kind _ c hc hopen _ _ => ?_, ?_⟩
  · obtain ⟨r, hr, hr'⟩ := hnewer
    have hsame : c = titleConflict := List.mem_singleton.mp (hconflicts ▸ hc)
    exact heeds_overwritten m _ c hc hopen r (by rw [hsame]; exact hr) (hsame ▸ hr')
  · rw [hmemberships]
    trivial

end ReviewQueue

end TuxBooks
