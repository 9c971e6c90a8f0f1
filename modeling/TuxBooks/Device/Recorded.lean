import TuxBooks.Device.Fold
import TuxBooks.Sync.Row

set_option relaxedAutoImplicit false
set_option autoImplicit false

/-!
# The mirror rows of one book

Which book a mirror row is recorded under, and what folding two other books into one another
does to the rows of a book: nothing, as long as these rows are keyed by it. A state operation leaves
the identity tables alone and writes the book of one row.

## Main definitions

* `TuxBooks.Mirror.bookOf` — the book a row is recorded under.
* `TuxBooks.Mirror.KeyedUnder` — the rows recorded under a book are keyed by it.
* `TuxBooks.Mirror.KeepsIdentity` — the same merges, aliases, bindings and book trash.

## Main results

* `TuxBooks.Mirror.bookOf_mergeBookRows` — the rows of a book that takes no part in a merge.
* `TuxBooks.Mirror.keepsIdentity_applyOp`, `TuxBooks.Mirror.bookOf_applyOp` — what a state
  operation does to the identity tables and to the books of the rows.
-/

namespace TuxBooks

/-- The texts after each colon of a key. -/
def afterColon (s : String) : List String :=
  s.toList.tails.filterMap fun
    | ':' :: rest => some (String.ofList rest)
    | _ => none

lemma mem_afterColon (pre post : String) : post ∈ afterColon (pre ++ ":" ++ post) := by
  unfold afterColon
  refine List.mem_filterMap.mpr ⟨':' :: post.toList, ?_, ?_⟩
  · rw [List.mem_tails]
    exact ⟨pre.toList, by simp [String.toList_append]⟩
  · simp

namespace Mirror

/-- The book uid of a mirror row, if there is such a row with one. -/
def bookOf (m : Mirror) (k : EntityKind × String) : Option String :=
  (m.entities.lookup k).bind (·.bookUid)

/-- Every row recorded under `u` is keyed by it: the uid of a self-keyed entity resolves to `u`,
and so does the book part of a membership. -/
def KeyedUnder (m : Mirror) (u : String) : Prop :=
  ∀ e ∈ m.entities.entries, e.2.bookUid = some u →
    (e.1.1.IsSelfKeyed → m.canonicalBookUid e.1.2 = u) ∧
    (e.1.1 = .membership → ∀ x ∈ afterColon e.1.2, m.canonicalBookUid x = u)

instance (m : Mirror) (u : String) : Decidable (m.KeyedUnder u) :=
  inferInstanceAs (Decidable (∀ e ∈ m.entities.entries, _))

variable {m : Mirror} {u : String}

lemma KeyedUnder.selfKeyed (h : m.KeyedUnder u) {kind : EntityKind} {key : String}
    (hk : m.bookOf (kind, key) = some u) (hself : kind.IsSelfKeyed) :
    m.canonicalBookUid key = u := by
  obtain ⟨r, hr, hbook⟩ := Option.bind_eq_some_iff.mp hk
  exact (h ⟨(kind, key), r⟩ (Table.lookup_eq_some_iff.mp hr) hbook).1 hself

lemma KeyedUnder.membership (h : m.KeyedUnder u) {key x : String}
    (hk : m.bookOf (.membership, key) = some u) (hx : x ∈ afterColon key) :
    m.canonicalBookUid x = u := by
  obtain ⟨r, hr, hbook⟩ := Option.bind_eq_some_iff.mp hk
  exact (h ⟨(.membership, key), r⟩ (Table.lookup_eq_some_iff.mp hr) hbook).2 rfl x hx

/-- Rows recorded under the same book, and uids that resolve to it alike, are keyed alike. -/
lemma KeyedUnder.of_bookOf {m' : Mirror} (h : m.KeyedUnder u)
    (hbook : ∀ k, m'.bookOf k = some u → m.bookOf k = some u)
    (hcanonical : ∀ x, m.canonicalBookUid x = u → m'.canonicalBookUid x = u) :
    m'.KeyedUnder u := by
  rintro ⟨⟨kind, key⟩, r⟩ he hr
  have hk : m.bookOf (kind, key) = some u := by
    refine hbook _ ?_
    unfold bookOf
    rw [Table.lookup_eq_some_iff.mpr he]
    exact hr
  constructor
  · intro hself
    exact hcanonical _ (h.selfKeyed hk hself)
  · intro hkind x hx
    dsimp only at hkind
    subst hkind
    exact hcanonical _ (h.membership hk hx)

/-! ## Merging two rows -/

/-- The row that an entity-mode merge leaves is recorded under the winner, or where it was. -/
lemma bookUid_mergedRow {bookUid : String} {l w : Option EntityRow}
    (h : (mergedRow bookUid l w).bind (·.bookUid) = some u) :
    bookUid = u ∨ w.bind (·.bookUid) = some u := by
  unfold mergedRow at h
  split at h
  · dsimp only [Option.bind_some] at h
    split_ifs at h
    · exact Or.inl (Option.some.inj h)
    · exact Or.inr h
  · exact Or.inl (Option.some.inj h)
  · exact Or.inr h

lemma bookUid_mergedFields {winner : String} {l w : Option EntityRow}
    (h : (mergedFields winner l w).bind (·.bookUid) = some u) :
    winner = u ∨ w.bind (·.bookUid) = some u := by
  unfold mergedFields at h
  cases l with
  | none => exact Or.inr h
  | some l =>
    cases w with
    | none => exact Or.inl (Option.some.inj h)
    | some w => exact Or.inr h

lemma bookUid_mergedByMode {kind : EntityKind} {winner : String} {l w : Option EntityRow}
    (h : (mergedByMode kind winner l w).bind (·.bookUid) = some u) :
    winner = u ∨ w.bind (·.bookUid) = some u := by
  unfold mergedByMode at h
  split at h
  · exact bookUid_mergedRow h
  · exact bookUid_mergedFields h

/-- An entity-mode merge of two rows that are not recorded under `u` leaves the rows of `u`. -/
lemma bookOf_mergeEntityUid {kind : EntityKind} {src dst bookUid : String} (hb : bookUid ≠ u)
    (hsrc : m.bookOf (kind, src) ≠ some u) (hdst : m.bookOf (kind, dst) ≠ some u)
    (k : EntityKind × String) :
    (m.mergeEntityUid kind src dst bookUid).bookOf k = some u ↔ m.bookOf k = some u := by
  by_cases hne : src = dst
  · rw [mergeEntityUid, if_pos hne]
  · unfold bookOf
    rw [lookup_mergeEntityUid hne]
    split_ifs with hk hk'
    · rw [hk]
      exact iff_of_false (by simp) hsrc
    · rw [hk']
      refine iff_of_false (fun h => ?_) hdst
      exact (bookUid_mergedRow h).elim hb hdst
    · rfl

/-! ## Merging two books -/

section Book

variable {l w : String}

/-- The self-keyed part of a merge. -/
lemma bookOf_mergeBookSelfKeyed (hne : l ≠ w) (hl : l ≠ u) (hw : w ≠ u)
    (hloser : ∀ kind : EntityKind, kind.IsSelfKeyed → m.bookOf (kind, l) ≠ some u)
    (hwinner : ∀ kind : EntityKind, kind.IsSelfKeyed → m.bookOf (kind, w) ≠ some u)
    (k : EntityKind × String) :
    (m.mergeBookSelfKeyed l w).bookOf k = some u ↔ m.bookOf k = some u := by
  have hmap : ∀ r : Option EntityRow,
      (r.map fun r => { r with bookUid := replaceUid l w r.bookUid }).bind (·.bookUid) = some u ↔
        r.bind (·.bookUid) = some u := by
    intro r
    cases r with
    | none => simp
    | some r =>
      simp only [Option.map_some, Option.bind_some, replaceUid]
      split_ifs with hr
      · simp [hr, hl, hw]
      · rfl
  obtain ⟨kind, key⟩ := k
  unfold bookOf
  rw [lookup_mergeBookSelfKeyed hne, hmap]
  split_ifs with h₁ h₂
  · rw [h₁.2]
    exact iff_of_false (by simp) (hloser kind h₁.1)
  · rw [h₂.2]
    refine iff_of_false (fun h => ?_) (hwinner kind h₂.1)
    exact (bookUid_mergedByMode h).elim hw (hwinner kind h₂.1)
  · rfl

/-- The walk over the memberships of the winner. -/
lemma bookOf_rekeyMemberships (hw : w ≠ u)
    (hdst : ∀ collection, m.bookOf (.membership, collection ++ ":" ++ w) ≠ some u)
    (k : EntityKind × String) :
    (m.rekeyMemberships w).bookOf k = some u ↔ m.bookOf k = some u := by
  have hwalk : ∀ (uids : List String) (m' : Mirror),
      (∀ k, m'.bookOf k = some u ↔ m.bookOf k = some u) →
      (∀ uid ∈ uids, m.bookOf (.membership, uid) ≠ some u) →
      ∀ k, (uids.foldl (rekeyMembershipBook w) m').bookOf k = some u ↔ m.bookOf k = some u := by
    intro uids
    induction uids with
    | nil => exact fun m' h _ => h
    | cons uid uids ih =>
      intro m' h huids
      refine ih _ (fun k => ?_) fun uid' huid' => huids uid' (List.mem_cons_of_mem _ huid')
      rw [← h k]
      unfold rekeyMembershipBook
      split
      · refine bookOf_mergeEntityUid hw ?_ ?_ k
        · rw [Ne, h]
          exact huids uid List.mem_cons_self
        · rw [Ne, h]
          exact hdst _
      · rfl
  refine hwalk _ m (fun _ => Iff.rfl) (fun uid huid => ?_) k
  unfold membershipsOfBook at huid
  obtain ⟨⟨⟨kind, key⟩, r⟩, he, rfl⟩ := List.mem_map.mp huid
  obtain ⟨hmem, hcond⟩ := List.mem_filter.mp he
  simp only [Bool.and_eq_true, beq_iff_eq] at hcond
  obtain ⟨hkind, hbook⟩ := hcond
  have hlookup := Table.lookup_eq_some_iff.mpr hmem
  rw [hkind] at hlookup
  unfold bookOf
  dsimp only
  rw [hlookup, Option.bind_some, hbook]
  exact fun h => hw (Option.some.inj h)

/-- **A book that takes no part in a merge keeps its rows**, when these are keyed by it. -/
theorem bookOf_mergeBookRows (hkeyed : m.KeyedUnder u) (hne : l ≠ w) (hl : l ≠ u) (hw : w ≠ u)
    (hloser : m.canonicalBookUid l = l) (hwinner : m.canonicalBookUid w = w)
    (k : EntityKind × String) :
    (m.mergeBookRows l w).bookOf k = some u ↔ m.bookOf k = some u := by
  have hself : ∀ k, ((m.mergeBookStart l w).mergeBookSelfKeyed l w).bookOf k = some u ↔
      m.bookOf k = some u := by
    refine bookOf_mergeBookSelfKeyed (m := m.mergeBookStart l w) hne hl hw ?_ ?_
    · intro kind hkind hk
      exact hl (hloser.symm.trans (hkeyed.selfKeyed hk hkind))
    · intro kind hkind hk
      exact hw (hwinner.symm.trans (hkeyed.selfKeyed hk hkind))
  rw [← hself k]
  refine bookOf_rekeyMemberships (m := (m.mergeBookStart l w).mergeBookSelfKeyed l w) hw ?_ k
  intro collection hk
  rw [hself] at hk
  exact hw (hwinner.symm.trans (hkeyed.membership hk (mem_afterColon collection w)))

end Book

/-! ## State operations -/

/-- The same merges, aliases, bindings and book trash. -/
structure KeepsIdentity (m m' : Mirror) : Prop where
  merges : m'.merges = m.merges
  aliases : m'.aliases = m.aliases
  bindings : m'.bindings = m.bindings
  bookTrash : m'.bookTrash = m.bookTrash

/-- A state operation is skipped, dropped, rejected, or writes the row of its key. -/
lemma applyOp_cases (fromStr : String → Option Value) {op : Op} (hstate : op.kind.IsState) :
    (m.applyOp fromStr op).1 = m ∨
      (m.applyOp fromStr op).1 = m.observeHlc op.hlc ∨
      (m.applyOp fromStr op).1 = (m.observeHlc op.hlc).markApplied op ∨
      ∃ uid, m.stateKey op = .ok uid ∧ m.drops op = false ∧
        (m.applyOp fromStr op).1 = ((m.observeHlc op.hlc).applyStateOp op).1.markApplied op := by
  by_cases hmem : op.opId ∈ m.appliedOps
  · exact Or.inl (by rw [applyOp_of_mem fromStr hmem])
  cases hdrops : m.drops op with
  | true =>
    have hdrops' : (op.bookUid.any fun uid => ((m.observeHlc op.hlc).forgottenReplacement
        ((m.observeHlc op.hlc).canonicalBookUid uid)).isSome) = true := hdrops
    refine Or.inr (Or.inr (Or.inl ?_))
    rw [applyOp, if_neg hmem]
    dsimp only
    rw [if_neg hstate.1, if_neg hstate.2, if_pos hdrops']
  | false =>
    cases hkey : m.stateKey op with
    | ok uid =>
      exact Or.inr (Or.inr (Or.inr ⟨uid, rfl, rfl,
        applyOp_of_state fromStr hmem hstate hdrops hkey⟩))
    | error e =>
      have hdrops' : (op.bookUid.any fun uid => ((m.observeHlc op.hlc).forgottenReplacement
          ((m.observeHlc op.hlc).canonicalBookUid uid)).isSome) = false := hdrops
      have hkey' : (m.observeHlc op.hlc).stateKey op = .error e := hkey
      refine Or.inr (Or.inl ?_)
      rw [applyOp, if_neg hmem]
      dsimp only
      rw [if_neg hstate.1, if_neg hstate.2, hdrops', if_neg Bool.false_ne_true, applyStateOp,
        hkey']

/-- **A state operation leaves the identity tables alone.** -/
theorem keepsIdentity_applyOp (fromStr : String → Option Value) {op : Op}
    (hstate : op.kind.IsState) : m.KeepsIdentity (m.applyOp fromStr op).1 := by
  rcases applyOp_cases (m := m) fromStr hstate with h | h | h | ⟨uid, hkey, -, h⟩
  · rw [h]
    exact ⟨rfl, rfl, rfl, rfl⟩
  · rw [h]
    exact ⟨rfl, rfl, rfl, rfl⟩
  · rw [h]
    exact ⟨rfl, rfl, rfl, rfl⟩
  · have hkey' : (m.observeHlc op.hlc).stateKey op = .ok uid := hkey
    have hwrote := wrote_applyStateOp (m.observeHlc op.hlc) hkey'
    rw [h]
    exact ⟨hwrote.merges, hwrote.aliases, hwrote.bindings, hwrote.bookTrash⟩

end Mirror

namespace EntityRow

/-- A step records the row under the book the operation names, if it names one. -/
lemma bookUid_step (op : Op) (bookUid : Option String) (r : EntityRow) :
    (r.step op bookUid).bookUid = bookUid.or r.bookUid := by
  unfold step upsert delete
  split_ifs <;> first | rfl | exact bookUid_put op _

end EntityRow

namespace Mirror

variable {m : Mirror} {u : String}

/-- **A state operation keeps the rows of a book** unless it names another book for one. -/
theorem bookOf_applyOp (fromStr : String → Option Value) {op : Op} (hstate : op.kind.IsState)
    (hnames : ∀ key, m.stateKey op = .ok key → m.bookOf (op.kind, key) = some u →
      ∀ uid, op.bookUid = some uid → m.canonicalBookUid uid = u) (k : EntityKind × String)
    (hk : m.bookOf k = some u) : (m.applyOp fromStr op).1.bookOf k = some u := by
  rcases applyOp_cases (m := m) fromStr hstate with h | h | h | ⟨uid, hkey, -, h⟩
  · rw [h]
    exact hk
  · rw [h]
    exact hk
  · rw [h]
    exact hk
  · have hkey' : (m.observeHlc op.hlc).stateKey op = .ok uid := hkey
    have hwrote := wrote_applyStateOp (m.observeHlc op.hlc) hkey'
    rw [h]
    change (((m.observeHlc op.hlc).applyStateOp op).1.entities.lookup k).bind _ = _
    rw [hwrote.lookup]
    split_ifs with heq
    · subst heq
      rw [Option.bind_some, EntityRow.bookUid_step]
      cases hbook : op.bookUid with
      | none =>
        obtain ⟨r, hr, hbook⟩ := Option.bind_eq_some_iff.mp hk
        have hrow : (m.observeHlc op.hlc).row op.kind uid = r := by
          change (m.entities.lookup (op.kind, uid)).getD {} = r
          rw [hr, Option.getD_some]
        rw [hrow]
        exact hbook
      | some uid' => exact congrArg some (hnames uid hkey hk uid' hbook)
    · exact hk

end Mirror

end TuxBooks
