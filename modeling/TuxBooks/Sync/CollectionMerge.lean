import Mathlib.Data.List.TakeWhile
import TuxBooks.Sync.Rekey
import TuxBooks.Sync.Run

set_option relaxedAutoImplicit false
set_option autoImplicit false

/-!
# The memberships that a collection merge re-keys

`merge_collection_identity` selects membership rows with `LIKE '<loser>:%'`, a pattern in which
an underscore stands for any character and letters have no case.

## Main definitions

* `TuxBooks.collectionOf` — the collection component of a membership uid.
* `TuxBooks.Mirror.MergesOwn` — only the memberships of the two collections are touched.

## Main results

* `TuxBooks.Mirror.mergesOwn_iff` — a merge touches no others exactly when no membership of
  another collection matches the pattern.
-/

namespace TuxBooks

/-! ## Membership uids -/

/-- The collection component of a membership uid. -/
def collectionOf (uid : String) : Option String := (rsplitOnce ':' uid).map Prod.fst

/-- A uid is split before its last component. -/
lemma rsplitOnce_append {collection book : String} (hfree : ':' ∉ book.toList) :
    rsplitOnce ':' (collection ++ ":" ++ book) = some (collection, book) := by
  have hreverse : (collection ++ ":" ++ book).toList.reverse =
      book.toList.reverse ++ ':' :: collection.toList.reverse := by
    simp
  have hbook : ∀ c ∈ book.toList.reverse, (c != ':') = true := by
    intro c hc
    rw [bne_iff_ne]
    rintro rfl
    exact hfree (List.mem_reverse.1 hc)
  rw [rsplitOnce, hreverse, List.dropWhile_append_of_pos hbook,
    List.takeWhile_append_of_pos hbook]
  simp

/-- What a uid is split into. -/
lemma eq_of_rsplitOnce {uid collection book : String}
    (h : rsplitOnce ':' uid = some (collection, book)) :
    uid = collection ++ ":" ++ book ∧ ':' ∉ book.toList := by
  have happend := List.takeWhile_append_dropWhile (p := (· != ':')) (l := uid.toList.reverse)
  rw [rsplitOnce] at h
  cases hdrop : uid.toList.reverse.dropWhile (· != ':') with
  | nil =>
    rw [hdrop] at h
    cases h
  | cons c rest =>
    rw [hdrop] at h happend
    obtain ⟨rfl, rfl⟩ := Prod.mk.inj (Option.some.inj h)
    have hcolon : c = ':' := by
      have hhead := List.head_dropWhile_not (· != ':') (l := uid.toList.reverse)
        (by rw [hdrop]; exact List.cons_ne_nil _ _)
      simpa [hdrop] using hhead
    constructor
    · have hreverse := congrArg List.reverse happend
      rw [List.reverse_reverse, List.reverse_append, List.reverse_cons, hcolon] at hreverse
      refine String.toList_injective (hreverse.symm.trans ?_)
      simp only [String.toList_append, String.toList_ofList]
      rfl
    · rw [String.toList_ofList, List.mem_reverse]
      intro hmem
      exact absurd (List.mem_takeWhile_imp hmem) (by simp)

lemma collectionOf_eq_some {uid collection : String} :
    collectionOf uid = some collection ↔
      ∃ book : String, uid = collection ++ ":" ++ book ∧ ':' ∉ book.toList := by
  rw [collectionOf, Option.map_eq_some_iff]
  constructor
  · rintro ⟨⟨_, book⟩, h, rfl⟩
    exact ⟨book, eq_of_rsplitOnce h⟩
  · rintro ⟨book, rfl, hfree⟩
    exact ⟨_, rsplitOnce_append hfree, rfl⟩

/-- The components determine a uid, and are determined by it. -/
lemma membershipUid_inj {collection collection' book book' : String} (hfree : ':' ∉ book.toList)
    (hfree' : ':' ∉ book'.toList) :
    collection ++ ":" ++ book = collection' ++ ":" ++ book' ↔
      collection = collection' ∧ book = book' := by
  constructor
  · intro heq
    have hsplit := congrArg (rsplitOnce ':') heq
    rw [rsplitOnce_append hfree, rsplitOnce_append hfree'] at hsplit
    exact Prod.mk.inj (Option.some.inj hsplit)
  · rintro ⟨rfl, rfl⟩
    rfl

/-! ## The pattern -/

/-- A percent sign stands for nothing. -/
lemma sqlLike_percent {pattern text : List Char} (h : sqlLike pattern text = true) :
    sqlLike ('%' :: pattern) text = true := by
  cases text with
  | nil => rwa [sqlLike]
  | cons c text => rw [sqlLike, h, Bool.true_or]

/-- A percent sign at the end stands for anything. -/
lemma sqlLike_percent_end (text : List Char) : sqlLike ['%'] text = true := by
  induction text with
  | nil => rw [sqlLike, sqlLike]
  | cons c text ih => rw [sqlLike, ih, Bool.or_true]

/-- A pattern matches its own text. -/
lemma sqlLike_append (head : List Char) {pattern text : List Char}
    (h : sqlLike pattern text = true) : sqlLike (head ++ pattern) (head ++ text) = true := by
  induction head with
  | nil => exact h
  | cons c head ih =>
    rw [List.cons_append, List.cons_append]
    by_cases hpercent : c = '%'
    · subst hpercent
      rw [sqlLike, sqlLike_percent ih, Bool.or_true]
    · by_cases hunderscore : c = '_'
      · subst hunderscore
        rw [sqlLike, ih]
      · rw [sqlLike]
        · simp [ih]
        · exact hpercent
        · exact hunderscore

/-- The memberships of the losing collection match. -/
lemma sqlLike_own (collection book : String) :
    sqlLike (collection ++ ":%").toList (collection ++ ":" ++ book).toList = true := by
  have hpattern : (collection ++ ":%").toList = (collection ++ ":").toList ++ ['%'] := by simp
  have htext : (collection ++ ":" ++ book).toList = (collection ++ ":").toList ++ book.toList :=
    String.toList_append
  rw [hpattern, htext]
  exact sqlLike_append _ (sqlLike_percent_end _)

namespace Mirror

variable {m : Mirror} {loser winner : String}

/-! ## Re-keying a list of memberships -/

/-- Moving one membership. -/
lemma lookup_rekeyMembershipCollection (m : Mirror) {collection book : String}
    (hfree : ':' ∉ book.toList) (hne : collection ≠ winner) (k : EntityKind × String) :
    (rekeyMembershipCollection winner m (collection ++ ":" ++ book)).entities.lookup k =
      if k = (.membership, collection ++ ":" ++ book) then none
      else if k = (.membership, winner ++ ":" ++ book) then
        mergedRow book (m.entities.lookup (.membership, collection ++ ":" ++ book))
          (m.entities.lookup (.membership, winner ++ ":" ++ book))
      else m.entities.lookup k := by
  have huid : collection ++ ":" ++ book ≠ winner ++ ":" ++ book := fun heq =>
    hne ((membershipUid_inj hfree hfree).1 heq).1
  rw [rekeyMembershipCollection, rsplitOnce_append hfree]
  exact lookup_mergeEntityUid huid k

/-- A membership of the winning collection stays where it is. -/
lemma rekeyMembershipCollection_winner (m : Mirror) {book : String} (hfree : ':' ∉ book.toList) :
    rekeyMembershipCollection winner m (winner ++ ":" ++ book) = m := by
  rw [rekeyMembershipCollection, rsplitOnce_append hfree]
  exact if_pos rfl

/-- A row outside the winning collection is only lost by moving it. -/
lemma lookup_rekeyMembershipCollection_of_ne (m : Mirror) (uid : String) {key : String}
    (hkey : collectionOf key ≠ some winner) :
    (rekeyMembershipCollection winner m uid).entities.lookup (.membership, key) =
      if key = uid ∧ collectionOf uid ≠ none then none
      else m.entities.lookup (.membership, key) := by
  cases hcollection : collectionOf uid with
  | none =>
    rw [rekeyMembershipCollection, Option.map_eq_none_iff.1 hcollection, if_neg (by simp)]
  | some collection =>
    obtain ⟨book, rfl, hfree⟩ := collectionOf_eq_some.1 hcollection
    by_cases hwinner : collection = winner
    · subst hwinner
      rw [rekeyMembershipCollection_winner m hfree, if_neg]
      rintro ⟨rfl, -⟩
      exact hkey hcollection
    · have hother : (EntityKind.membership, key) ≠ (.membership, winner ++ ":" ++ book) := by
        intro heq
        exact hkey ((Prod.mk.inj heq).2 ▸ collectionOf_eq_some.2 ⟨book, rfl, hfree⟩)
      rw [lookup_rekeyMembershipCollection m hfree hwinner, if_neg hother]
      simp

/-- Outside the winning collection, the rows of the list are lost and no others. -/
lemma lookup_foldl_of_ne (uids : List String) (m : Mirror) {key : String}
    (hkey : collectionOf key ≠ some winner) :
    (uids.foldl (rekeyMembershipCollection winner) m).entities.lookup (.membership, key) =
      if key ∈ uids ∧ collectionOf key ≠ none then none
      else m.entities.lookup (.membership, key) := by
  induction uids generalizing m with
  | nil => simp
  | cons uid uids ih =>
    rw [List.foldl_cons, ih, lookup_rekeyMembershipCollection_of_ne m uid hkey]
    by_cases huid : key = uid
    · subst huid
      by_cases hnone : collectionOf key = none <;> simp [hnone]
    · simp [huid]

/-- In the winning collection, each row takes in the one of the losing collection, if the list
names no others. -/
lemma lookup_foldl_winner (hne : loser ≠ winner) {uids : List String} (hnodup : uids.Nodup)
    (hown : ∀ uid ∈ uids, ∀ collection ∈ collectionOf uid,
      collection = loser ∨ collection = winner)
    {book : String} (hbook : ':' ∉ book.toList) (m : Mirror) :
    (uids.foldl (rekeyMembershipCollection winner) m).entities.lookup
        (.membership, winner ++ ":" ++ book) =
      if loser ++ ":" ++ book ∈ uids then
        mergedRow book (m.entities.lookup (.membership, loser ++ ":" ++ book))
          (m.entities.lookup (.membership, winner ++ ":" ++ book))
      else m.entities.lookup (.membership, winner ++ ":" ++ book) := by
  induction uids generalizing m with
  | nil => simp
  | cons uid uids ih =>
    obtain ⟨huid, hnodup⟩ := List.nodup_cons.1 hnodup
    rw [List.foldl_cons, ih hnodup fun other hother => hown other (List.mem_cons_of_mem _ hother)]
    cases hcollection : collectionOf uid with
    | none =>
      have hother : loser ++ ":" ++ book ≠ uid := by
        rintro rfl
        rw [collectionOf_eq_some.2 ⟨book, rfl, hbook⟩] at hcollection
        cases hcollection
      rw [rekeyMembershipCollection, Option.map_eq_none_iff.1 hcollection]
      simp [hother]
    | some collection =>
      obtain ⟨other, rfl, hfree⟩ := collectionOf_eq_some.1 hcollection
      obtain rfl | rfl := hown _ List.mem_cons_self collection hcollection
      · simp only [lookup_rekeyMembershipCollection m hfree hne, Prod.mk.injEq, true_and,
          membershipUid_inj hbook hfree, hne, hne.symm, false_and, if_false, List.mem_cons]
        by_cases hsame : book = other
        · subst hsame
          simp [huid]
        · simp [hsame]
      · rw [rekeyMembershipCollection_winner m hfree]
        simp [membershipUid_inj hbook hfree, hne]

/-! ## The merge -/

/-- **A merge of two collections touches only their own memberships**: those of the loser are
gone, each combined with the winner's row of the same book by the greater clock, and all other
membership rows are as before. -/
structure MergesOwn (m m' : Mirror) (loser winner : String) : Prop where
  gone : ∀ uid, collectionOf uid = some loser → m'.entities.lookup (.membership, uid) = none
  joined : ∀ book : String, ':' ∉ book.toList →
    m'.entities.lookup (.membership, winner ++ ":" ++ book) =
      mergedRow book (m.entities.lookup (.membership, loser ++ ":" ++ book))
        (m.entities.lookup (.membership, winner ++ ":" ++ book))
  others : ∀ uid, collectionOf uid ≠ some loser → collectionOf uid ≠ some winner →
    m'.entities.lookup (.membership, uid) = m.entities.lookup (.membership, uid)

/-- No membership of another collection matches the pattern. -/
def MatchesOwn (m : Mirror) (loser winner : String) : Prop :=
  ∀ uid ∈ m.membershipsLike loser, ∀ collection ∈ collectionOf uid,
    collection = loser ∨ collection = winner

lemma mem_membershipsLike {collection uid : String} :
    uid ∈ m.membershipsLike collection ↔
      m.entities.lookup (.membership, uid) ≠ none ∧
        sqlLike (collection ++ ":%").toList uid.toList = true := by
  rw [membershipsLike, List.mem_map]
  constructor
  · rintro ⟨⟨⟨kind, uid⟩, row⟩, hentry, rfl⟩
    simp only [List.mem_filter, Bool.and_eq_true, beq_iff_eq] at hentry
    obtain ⟨hentry, rfl, hlike⟩ := hentry
    exact ⟨by rw [Table.lookup_eq_some_iff.2 hentry]; nofun, hlike⟩
  · rintro ⟨hrow, hlike⟩
    obtain ⟨row, hrow⟩ := Option.ne_none_iff_exists'.1 hrow
    refine ⟨⟨(.membership, uid), row⟩, List.mem_filter.2 ⟨Table.lookup_eq_some_iff.1 hrow, ?_⟩, rfl⟩
    simp only [hlike, beq_self_eq_true, Bool.and_self]

lemma nodup_membershipsLike (m : Mirror) (collection : String) :
    (m.membershipsLike collection).Nodup := by
  refine List.Nodup.map_on ?_ (List.Nodup.filter _ m.entities.nodupKeys.nodup)
  rintro ⟨⟨kind, uid⟩, row⟩ h ⟨⟨kind', uid'⟩, row'⟩ h' heq
  simp only [List.mem_filter, Bool.and_eq_true, beq_iff_eq] at h h'
  obtain ⟨hentry, rfl, -⟩ := h
  obtain ⟨hentry', rfl, -⟩ := h'
  exact m.entities.nodupKeys.eq_of_fst_eq hentry hentry' (congrArg (Prod.mk _) heq)

/-- A membership row after the merge. -/
lemma lookup_mergeCollectionIdentity (hne : loser ≠ winner) (uid : String) :
    let start := (m.joinCollections loser winner).mergeCollectionFields loser winner
    (m.mergeCollectionIdentity loser winner).entities.lookup (.membership, uid) =
      ((start.membershipsLike loser).foldl (rekeyMembershipCollection winner)
        start).entities.lookup (.membership, uid) := by
  rw [mergeCollectionIdentity_of_ne hne]

/-- Merging the rows of the two collections changes no match. -/
lemma mem_membershipsLike_start {uid : String} :
    uid ∈ ((m.joinCollections loser winner).mergeCollectionFields loser winner).membershipsLike
        loser ↔ uid ∈ m.membershipsLike loser := by
  rw [mem_membershipsLike, mem_membershipsLike, lookup_mergeCollectionFields]

/-- **Two collections are merged without touching the memberships of others exactly when no
membership of another collection matches the pattern**, in every mirror. -/
theorem mergesOwn_iff (hne : loser ≠ winner) :
    MergesOwn m (m.mergeCollectionIdentity loser winner) loser winner ↔
      m.MatchesOwn loser winner := by
  set start := (m.joinCollections loser winner).mergeCollectionFields loser winner with hstart
  have hmem (uid : String) : uid ∈ start.membershipsLike loser ↔ uid ∈ m.membershipsLike loser :=
    mem_membershipsLike_start
  constructor
  · intro h uid huid collection hcollection
    by_contra hother
    rw [not_or] at hother
    have hloser : collectionOf uid ≠ some loser := by
      rw [hcollection]
      exact fun heq => hother.1 (Option.some.inj heq)
    have hwinner : collectionOf uid ≠ some winner := by
      rw [hcollection]
      exact fun heq => hother.2 (Option.some.inj heq)
    have hkept := h.others uid hloser hwinner
    -- the row of the other collection is moved away
    rw [lookup_mergeCollectionIdentity hne, lookup_foldl_of_ne _ _ hwinner,
      if_pos ⟨(hmem uid).2 huid, by rw [hcollection]; nofun⟩] at hkept
    exact (mem_membershipsLike.1 huid).1 hkept.symm
  · intro hown
    constructor
    · intro uid huid
      rw [lookup_mergeCollectionIdentity hne, lookup_foldl_of_ne _ _
        (by rw [huid]; exact fun heq => hne (Option.some.inj heq))]
      split_ifs with hmoved
      · rfl
      · obtain ⟨book, rfl, -⟩ := collectionOf_eq_some.1 huid
        by_contra hrow
        rw [lookup_mergeCollectionFields] at hrow
        exact hmoved ⟨(hmem _).2 (mem_membershipsLike.2 ⟨hrow, sqlLike_own loser book⟩),
          by rw [huid]; nofun⟩
    · intro book hbook
      have hlist : ∀ uid ∈ start.membershipsLike loser, ∀ collection ∈ collectionOf uid,
          collection = loser ∨ collection = winner :=
        fun uid huid => hown uid ((hmem uid).1 huid)
      rw [lookup_mergeCollectionIdentity hne, lookup_foldl_winner hne
        (nodup_membershipsLike _ _) hlist hbook, lookup_mergeCollectionFields,
        lookup_mergeCollectionFields]
      split_ifs with hmoved
      · rfl
      · have hrow : m.entities.lookup (.membership, loser ++ ":" ++ book) = none := by
          by_contra hrow
          exact hmoved ((hmem _).2 (mem_membershipsLike.2 ⟨hrow, sqlLike_own loser book⟩))
        rw [hrow]
        rfl
    · intro uid hloser hwinner
      rw [lookup_mergeCollectionIdentity hne, lookup_foldl_of_ne _ _ hwinner, if_neg]
      · exact lookup_mergeCollectionFields m loser winner uid
      · rintro ⟨huid, hcollection⟩
        obtain ⟨collection, hcollection⟩ := Option.ne_none_iff_exists'.1 hcollection
        obtain rfl | rfl := hown uid ((hmem uid).1 huid) collection hcollection
        · exact hloser hcollection
        · exact hwinner hcollection

/-! ## A library with three collections -/

/-- A collection with a name. -/
def collectionOp (wall : ℤ) (opId uid name : String) : Op :=
  { sampleOp .collection wall opId false false ((∅ : Fields).insert "name" (.str name)) with
    entityUid := uid
    bookUid := none }

/-- A book in a collection. -/
def membershipOp (wall : ℤ) (opId uid : String) : Op :=
  { sampleOp .membership wall opId false false ((∅ : Fields).insert "present" (.bool true)) with
    entityUid := uid }

/-- Two collections of one name, and a third one that one of their uids matches as a pattern. -/
def shelfOps : List Op :=
  [collectionOp 1000 "00000000000000000000000000000001" "a_b" "Shelf",
    collectionOp 2000 "00000000000000000000000000000002" "a0" "Shelf",
    collectionOp 3000 "00000000000000000000000000000003" "axb" "Other",
    membershipOp 4000 "00000000000000000000000000000004" "a_b:book",
    membershipOp 5000 "00000000000000000000000000000005" "axb:book"]

def shelves (ops : List Op) : Mirror := ({} : Mirror).applyAll (fun _ => none) ops

/-- Without the third collection, the two are merged. -/
theorem mergesOwn_two_shelves :
    MergesOwn (shelves (shelfOps.take 4))
        ((shelves (shelfOps.take 4)).mergeCollectionIdentity "a_b" "a0") "a_b" "a0" ↔
      (shelves (shelfOps.take 4)).MatchesOwn "a_b" "a0" :=
  mergesOwn_iff (by decide)

/-- The membership of the third collection is taken into the merged one. -/
theorem merge_takes_other_shelf :
    (∀ op ∈ shelfOps, validateOp op = .ok ()) ∧
      ((shelves shelfOps).entities.lookup (.membership, "axb:book")).isSome = true ∧
      ((shelves shelfOps).mergeCollectionIdentity "a_b" "a0").entities.lookup
        (.membership, "axb:book") = none ∧
      (((shelves shelfOps).mergeCollectionIdentity "a_b" "a0").entities.lookup
        (.membership, "a0:book")).map EntityRow.hlc =
          ((shelves shelfOps).entities.lookup (.membership, "axb:book")).map EntityRow.hlc ∧
      ¬MergesOwn (shelves shelfOps) ((shelves shelfOps).mergeCollectionIdentity "a_b" "a0")
        "a_b" "a0" := by
  have hrow : ((shelves shelfOps).entities.lookup (.membership, "axb:book")).isSome = true := by
    decide +kernel
  have hgone : ((shelves shelfOps).mergeCollectionIdentity "a_b" "a0").entities.lookup
      (.membership, "axb:book") = none := by decide +kernel
  refine ⟨by decide +kernel, hrow, hgone, by decide +kernel, fun h => ?_⟩
  have hkept := h.others "axb:book" (by decide +kernel) (by decide +kernel)
  rw [← hkept, hgone] at hrow
  cases hrow

end Mirror

end TuxBooks
