import TuxBooks.Library.Providers

set_option relaxedAutoImplicit false
set_option autoImplicit false

/-!
# Linked editions

`sidecar/src/repository/editions.rs`: two editions of one work stay two durable books. Linking them
records the relation, moves the provider links and their queue to the edition that is read now, and
copies the percentage to a saved position without a locator.

The rest of the module is about runs: the statements of the providers, of the editions and of the
trash, in any order.

## Main definitions

* `TuxBooks.Lifecycle.Db.linkEditions`, `TuxBooks.Lifecycle.Db.listEditions` — the commands.
* `TuxBooks.Lifecycle.Stmt`, `TuxBooks.Lifecycle.runStmt` — one statement of any command.

## Main results

* `TuxBooks.Lifecycle.Db.linkEditions_ok_iff` — when two editions can be linked.
* `TuxBooks.Lifecycle.Db.linkEditions_moves` — what a link of two editions moves and copies.
* `TuxBooks.Lifecycle.linked_run` — the links stay sound over every run.
* `TuxBooks.Lifecycle.listEditions_symm` — two editions list each other.
-/

namespace TuxBooks

namespace Lifecycle

/-- Result of one confirmed link of two editions. -/
structure EditionLinkOutcome where
  sourceBookUid : String
  targetBookUid : String
  copiedProgressPercent : Option ℚ
  movedProviders : List String
  deriving DecidableEq

/-- One durable book that is linked to another one as an edition. -/
structure EditionBook where
  bookUid : String
  title : Option String
  author : Option String
  inLibrary : Bool
  deriving DecidableEq

namespace Db

/-! ## The statements of a link -/

/-- Both directions are the same relation, in one order. -/
def editionPair (source target : String) : String × String :=
  if source < target then (source, target) else (target, source)

/-- The providers that both books have a link for, `ORDER BY provider`. -/
def conflictingProviders (s : Db) (source target : String) : List String :=
  ((s.providerRows source).filter fun link =>
    (s.links.lookup (target, link.provider)).isSome).map (·.provider)

/-- `INSERT INTO book_edition_links`. -/
def insertEdition (s : Db) (pair : String × String) (now : String) : Except AppError Db :=
  if ¬pair.1 < pair.2 then .error (.database "CHECK constraint failed: book_edition_links")
  else if (s.editions.lookup pair).isSome then
    .error (.database "UNIQUE constraint failed: book_edition_links")
  else .ok { s with editions := s.editions.insert pair now }

/-- The queue of a book. -/
def queuedRows (s : Db) (uid : String) : List (String × PendingRow) :=
  (s.pending.entries.filter fun e => e.1.1 == uid).map fun e => (e.1.2, e.2)

def deleteQueue (s : Db) (uid : String) : Db :=
  { s with pending := s.pending.filterRows fun k _ => k.1 != uid }

/-- The links of a book become the links of another one. -/
def movedLinks (links : Table (String × String) LinkRow) (source target : String) :
    Table (String × String) LinkRow :=
  (links.entries.filter fun e => e.1.1 == source).foldl
    (fun t e => t.insert (target, e.1.2) e.2) (links.filterRows fun k _ => k.1 != source)

/-- `UPDATE book_provider_links SET book_uid`: the target must not have a link for the provider, and
no queued row may refer to a link that moves. -/
def moveLinks (s : Db) (source target : String) : Except AppError Db :=
  if s.links.entries.any fun e =>
      e.1.1 == source && (s.links.lookup (target, e.1.2)).isSome then
    .error (.database "UNIQUE constraint failed: book_provider_links")
  else if s.pending.entries.any fun e => e.1.1 == source then
    .error (.database "FOREIGN KEY constraint failed")
  else .ok { s with links := movedLinks s.links source target }

/-- Insert or replace one queued row. -/
def putQueued (target : String) (s : Db) (queued : String × PendingRow) : Except AppError Db :=
  if ¬IsPercent queued.2.progressPercent then
    .error (.database "CHECK constraint failed: book_provider_pending_progress")
  else if (s.links.lookup (target, queued.1)).isNone then
    .error (.database "FOREIGN KEY constraint failed")
  else .ok { s with pending := s.pending.insert (target, queued.1) queued.2 }

/-- Set the cached percentage of a record. -/
def cachePercent (c : Catalog) (uid : String) (percent : ℚ) : Catalog :=
  match c.records.lookup uid with
  | some r => { c with records := c.records.insert uid { r with progressPercent := some percent } }
  | none => c

/-- The percentage crosses editions, and no locator does. -/
def copyPercent (codec : Codec) (s : Db) (target : String) (percent : Option ℚ) (now : String) :
    Db :=
  match percent with
  | some percent =>
    let row : ProgressRow := { progressPercent := some percent, updatedAt := now }
    { s with catalog := cachePercent (s.catalog.putProgress codec.real target row) target percent }
  | none => s

/-- The percentage that is saved for a book. -/
def savedPercent (s : Db) (uid : String) : Option ℚ :=
  (s.catalog.progress.lookup uid).bind (·.progressPercent)

/-- The transaction of `link_editions`, once its arguments are found to be fit. -/
def linkPair (codec : Codec) (s : Db) (source target now : String) :
    Except AppError (Db × EditionLinkOutcome) := do
  let moved := (s.providerRows source).map (·.provider)
  let s ← s.insertEdition (editionPair source target) now
  let queued := s.queuedRows source
  let s ← (s.deleteQueue source).moveLinks source target
  let s ← queued.foldlM (putQueued target) s
  let percent := s.savedPercent source
  pure (s.copyPercent codec target percent now, ⟨source, target, percent, moved⟩)

/-- Link two durable books as editions. -/
def linkEditions (codec : Codec) (s : Db) (source target now : String) :
    Except AppError (Db × EditionLinkOutcome) :=
  let pair := editionPair source target
  if ¬s.catalog.hasRecord source then .error .notFound
  else if ¬s.catalog.hasRecord target then .error .notFound
  else if source = target then
    .error (.invalidInput "a book cannot be linked as an edition of itself")
  else if (s.editions.lookup pair).isSome || (s.editions.lookup pair.swap).isSome then
    .error (.invalidInput "these books are already linked as editions")
  else if s.conflictingProviders source target ≠ [] then
    .error (.invalidInput ("the current edition is already linked to " ++
      ", ".intercalate (s.conflictingProviders source target) ++
      "; unlink it before moving the provider link"))
  else s.linkPair codec source target now

/-- When a durable book was last used. -/
def recency (r : RecordRow) : String := r.lastOpenedAt.getD r.createdAt

/-- The other book of a link. -/
def otherEdition (uid : String) (pair : String × String) : Option String :=
  if pair.1 = uid then some pair.2 else if pair.2 = uid then some pair.1 else none

/-- Every edition that is linked to a book, newest activity first. -/
def listEditions (s : Db) (uid : String) : Except AppError (List EditionBook) :=
  if s.catalog.hasRecord uid then
    let rows := s.editions.keys.filterMap fun pair => (otherEdition uid pair).bind fun other =>
      (s.catalog.records.lookup other).map (other, ·)
    .ok ((rows.insertionSort fun a b => recency b.2 ≤ recency a.2).map fun row =>
      { bookUid := row.1
        title := row.2.values.title
        author := row.2.values.author
        inLibrary := s.fileCount row.1 != 0 })
  else .error .notFound

/-! ## The order of a pair -/

variable {s s' : Db} {a b source target : String}

lemma editionPair_comm (a b : String) : editionPair a b = editionPair b a := by
  unfold editionPair
  rcases lt_trichotomy a b with h | rfl | h
  · rw [if_pos h, if_neg h.asymm]
  · rfl
  · rw [if_neg h.asymm, if_pos h]

lemma editionPair_lt (h : a ≠ b) : (editionPair a b).1 < (editionPair a b).2 := by
  unfold editionPair
  split
  · next hlt => exact hlt
  · next hlt => exact lt_of_le_of_ne (not_lt.mp hlt) h.symm

/-- The other book of a pair in its order. -/
lemma otherEdition_eq_some {pair : String × String} (hpair : pair.1 < pair.2) :
    otherEdition a pair = some b ↔ a ≠ b ∧ editionPair a b = pair := by
  obtain ⟨x, y⟩ := pair
  replace hpair : x < y := hpair
  unfold otherEdition editionPair
  dsimp only
  constructor
  · intro h
    split_ifs at h with hx hy
    · obtain rfl := Option.some.inj h
      subst hx
      exact ⟨hpair.ne, if_pos hpair⟩
    · obtain rfl := Option.some.inj h
      subst hy
      exact ⟨hpair.ne', if_neg hpair.asymm⟩
  · rintro ⟨hne, h⟩
    split_ifs at h with hlt
    · obtain ⟨rfl, rfl⟩ := Prod.mk.inj h
      rw [if_pos rfl]
    · obtain ⟨rfl, rfl⟩ := Prod.mk.inj h
      rw [if_neg hne.symm, if_pos rfl]

/-! ## The links that move -/

/-- The queue and the links of a book, read by provider. -/
lemma mem_queuedRows {uid : String} {queued : String × PendingRow} :
    queued ∈ s.queuedRows uid ↔ s.pending.lookup (uid, queued.1) = some queued.2 := by
  simp only [queuedRows, List.mem_map, List.mem_filter, beq_iff_eq, Table.lookup_eq_some_iff]
  constructor
  · rintro ⟨⟨⟨u, p⟩, row⟩, ⟨hmem, rfl⟩, rfl⟩
    exact hmem
  · exact fun hmem => ⟨_, ⟨hmem, rfl⟩, rfl⟩

lemma mem_conflictingProviders {provider : String} :
    provider ∈ s.conflictingProviders source target ↔
      (s.links.lookup (source, provider)).isSome ∧ (s.links.lookup (target, provider)).isSome := by
  simp only [conflictingProviders, providerRows, List.mem_map, List.mem_filter,
    List.mem_insertionSort, beq_iff_eq]
  constructor
  · rintro ⟨link, ⟨⟨⟨⟨u, p⟩, row⟩, ⟨hmem, rfl⟩, rfl⟩, htarget⟩, rfl⟩
    have hsource : s.links.lookup (u, p) = some row := Table.lookup_eq_some_iff.mpr hmem
    exact ⟨by rw [hsource]; rfl, htarget⟩
  · rintro ⟨hsource, htarget⟩
    obtain ⟨row, hrow⟩ := Option.isSome_iff_exists.mp hsource
    exact ⟨⟨provider, row⟩, ⟨⟨_, ⟨Table.lookup_eq_some_iff.mp hrow, rfl⟩, rfl⟩, htarget⟩, rfl⟩

/-- Entries of one book that move to another one have different keys there. -/
lemma nodup_movedKeys {ρ : Type} (t : Table (String × String) ρ) (source target : String) :
    ((t.entries.filter fun e => e.1.1 == source).map fun e => (target, e.1.2)).Nodup := by
  refine List.Nodup.map_on (fun e he e' he' heq => ?_) (t.nodupKeys.nodup.filter _)
  obtain ⟨he, hsource⟩ := List.mem_filter.mp he
  obtain ⟨he', hsource'⟩ := List.mem_filter.mp he'
  rw [beq_iff_eq] at hsource hsource'
  have hkey : e.1 = e'.1 := Prod.ext (hsource.trans hsource'.symm) (Prod.mk.inj heq).2
  obtain ⟨k, r⟩ := e
  obtain ⟨k', r'⟩ := e'
  obtain rfl : k = k' := hkey
  have hr := Table.lookup_eq_some_iff.mpr he
  rw [Table.lookup_eq_some_iff.mpr he'] at hr
  rw [Option.some.inj hr]

/-- Rows of one book that move to another one. The source has none then, and the target has its own
and the moved ones. -/
lemma lookup_moved {ρ : Type} (t : Table (String × String) ρ) (hne : source ≠ target)
    (hfree : ∀ p, ¬((t.lookup (source, p)).isSome ∧ (t.lookup (target, p)).isSome))
    (k : String × String) :
    ((t.entries.filter fun e => e.1.1 == source).foldl (fun t e => t.insert (target, e.1.2) e.2)
        (t.filterRows fun k _ => k.1 != source)).lookup k =
      if k.1 = source then none
      else if k.1 = target then (t.lookup k).or (t.lookup (source, k.2))
      else t.lookup k := by
  have hbase : (t.filterRows fun k _ => k.1 != source).lookup k =
      if k.1 = source then none else t.lookup k := by
    rw [Table.lookup_filterRows]
    by_cases hk : k.1 = source
    · simp [hk]
    · cases t.lookup k <;> simp [hk]
  have hother := Table.lookup_foldl_insert_of_not_mem
    (fun e : Sigma fun _ : String × String => ρ => (target, e.1.2)) (fun e => e.2)
    (l := t.entries.filter fun e => e.1.1 == source)
    (t := t.filterRows fun k _ => k.1 != source) (k := k)
  by_cases htarget : k.1 = target
  · have hkey : k = (target, k.2) := Prod.ext htarget rfl
    rw [if_neg (htarget ▸ hne.symm), if_pos htarget]
    cases hmoved : t.lookup (source, k.2) with
    | none =>
      rw [hother, hbase, if_neg (htarget ▸ hne.symm), Option.or_none]
      intro e he heq
      obtain ⟨he, hsource⟩ := List.mem_filter.mp he
      rw [beq_iff_eq] at hsource
      have hrow := Table.lookup_eq_some_iff.mpr he
      rw [show e.1 = (source, k.2) from Prod.ext hsource (hkey ▸ heq ▸ rfl), hmoved] at hrow
      cases hrow
    | some row =>
      have hnone : t.lookup k = none := by
        rw [hkey]
        exact Option.not_isSome_iff_eq_none.mp fun hsome => hfree k.2 ⟨by rw [hmoved]; rfl, hsome⟩
      have hfound := Table.lookup_foldl_insert_of_mem
        (fun e : Sigma fun _ : String × String => ρ => (target, e.1.2)) (fun e => e.2)
        (t := t.filterRows fun k _ => k.1 != source)
        (nodup_movedKeys t source target) (a := ⟨(source, k.2), row⟩)
        (List.mem_filter.mpr ⟨Table.lookup_eq_some_iff.mp hmoved, by simp⟩)
      rw [hnone, Option.none_or, ← hfound, hkey]
  · rw [hother fun e _ heq => htarget (heq ▸ rfl), hbase, if_neg htarget]

/-- **The links after the move.** -/
theorem lookup_movedLinks (links : Table (String × String) LinkRow) (hne : source ≠ target)
    (hfree : ∀ p, ¬((links.lookup (source, p)).isSome ∧ (links.lookup (target, p)).isSome))
    (k : String × String) :
    (movedLinks links source target).lookup k =
      if k.1 = source then none
      else if k.1 = target then (links.lookup k).or (links.lookup (source, k.2))
      else links.lookup k :=
  lookup_moved links hne hfree k

variable (target) in
/-- A queue is put back when every row is a percentage for a link. -/
lemma foldlM_putQueued {l : List (String × PendingRow)}
    (h : ∀ q ∈ l, IsPercent q.2.progressPercent ∧ (s.links.lookup (target, q.1)).isSome) :
    l.foldlM (putQueued target) s =
      .ok { s with pending := l.foldl (fun t q => t.insert (target, q.1) q.2) s.pending } := by
  induction l generalizing s with
  | nil => rfl
  | cons q l ih =>
    obtain ⟨hpercent, hlink⟩ := h q List.mem_cons_self
    have hput : putQueued target s q =
        .ok { s with pending := s.pending.insert (target, q.1) q.2 } := by
      unfold putQueued
      rw [if_neg (not_not_intro hpercent), if_neg]
      rw [Option.isNone_iff_eq_none]
      exact Option.isSome_iff_ne_none.mp hlink
    rw [List.foldlM_cons, hput]
    exact ih fun q' hq' => h q' (List.mem_cons_of_mem _ hq')

/-- What a link of two editions writes: the links and the queue of the source are now those of the
target, the pair is recorded, and the percentage of the source is all that is saved for the target.
-/
structure Moved (s s' : Db) (source target now : String) : Prop where
  links : ∀ k, s'.links.lookup k =
    if k.1 = source then none
    else if k.1 = target then (s.links.lookup k).or (s.links.lookup (source, k.2))
    else s.links.lookup k
  pending : ∀ k, s'.pending.lookup k =
    if k.1 = source then none
    else if k.1 = target then (s.pending.lookup k).or (s.pending.lookup (source, k.2))
    else s.pending.lookup k
  editions : s'.editions = s.editions.insert (editionPair source target) now
  progress : ∀ u, s'.catalog.progress.lookup u =
    if u = target ∧ (s.savedPercent source).isSome then
      some { progressPercent := s.savedPercent source, updatedAt := now }
    else s.catalog.progress.lookup u
  records : ∀ u, s'.catalog.records.lookup u = (s.catalog.records.lookup u).map fun r =>
    if u = target ∧ (s.savedPercent source).isSome then
      { r with progressPercent := s.savedPercent source }
    else r
  catalog : { s'.catalog with
    progress := s.catalog.progress, records := s.catalog.records
    dirty := s.catalog.dirty } = s.catalog
  mirror : s'.mirror = s.mirror
  bookTrash : s'.bookTrash = s.bookTrash

variable {codec : Codec} {now : String}

/-- The queue of the source, put under the target. -/
lemma lookup_movedQueue (h : Linked s) (hne : source ≠ target)
    (hfree : ∀ p, ¬((s.links.lookup (source, p)).isSome ∧ (s.links.lookup (target, p)).isSome))
    (k : String × String) :
    ((s.queuedRows source).foldl (fun t q => t.insert (target, q.1) q.2)
        (s.deleteQueue source).pending).lookup k =
      if k.1 = source then none
      else if k.1 = target then (s.pending.lookup k).or (s.pending.lookup (source, k.2))
      else s.pending.lookup k := by
  rw [queuedRows, List.foldl_map]
  -- a queued row has its link, so the two books do not share a provider here either
  refine lookup_moved s.pending hne (fun p hboth => hfree p ?_) k
  obtain ⟨row, hrow⟩ := Option.isSome_iff_exists.mp hboth.1
  obtain ⟨row', hrow'⟩ := Option.isSome_iff_exists.mp hboth.2
  exact ⟨(h.queued _ row hrow).1, (h.queued _ row' hrow').1⟩

/-- The percentage is copied, and nothing else of the catalog changes. -/
lemma catalog_copyPercent (codec : Codec) (s : Db) (target : String) (percent : Option ℚ)
    (now : String) :
    let c := (s.copyPercent codec target percent now).catalog
    (∀ u, c.progress.lookup u =
      if u = target ∧ percent.isSome then some { progressPercent := percent, updatedAt := now }
      else s.catalog.progress.lookup u) ∧
    (∀ u, c.records.lookup u = (s.catalog.records.lookup u).map fun r =>
      if u = target ∧ percent.isSome then { r with progressPercent := percent } else r) ∧
    { c with
      progress := s.catalog.progress, records := s.catalog.records
      dirty := s.catalog.dirty } = s.catalog := by
  cases percent with
  | none =>
    refine ⟨fun u => by simp [copyPercent], fun u => ?_, rfl⟩
    simp [copyPercent]
  | some percent =>
    simp only [copyPercent, Option.isSome_some, and_true]
    set row : ProgressRow := { progressPercent := some percent, updatedAt := now }
    have hprogress : (s.catalog.putProgress codec.real target row).progress =
        s.catalog.progress.insert target row := Catalog.progress_putProgress row
    have hrecords : (s.catalog.putProgress codec.real target row).records = s.catalog.records := by
      unfold Catalog.putProgress Catalog.markWhen
      split_ifs <;> rfl
    have hrest : { s.catalog.putProgress codec.real target row with
        progress := s.catalog.progress, dirty := s.catalog.dirty } = s.catalog := by
      unfold Catalog.putProgress Catalog.markWhen
      split_ifs <;> rfl
    generalize s.catalog.putProgress codec.real target row = c at hprogress hrecords hrest
    unfold cachePercent
    rw [hrecords]
    cases hrecord : s.catalog.records.lookup target with
    | none =>
      refine ⟨fun u => by rw [hprogress, Table.lookup_insert'], fun u => ?_, hrest ▸ rfl⟩
      dsimp only
      rw [hrecords]
      by_cases hu : u = target
      · subst hu
        simp [hrecord]
      · simp [hu]
    | some r =>
      refine ⟨fun u => by rw [hprogress, Table.lookup_insert'], fun u => ?_, hrest ▸ rfl⟩
      dsimp only
      rw [Table.lookup_insert']
      by_cases hu : u = target
      · subst hu
        simp [hrecord]
      · simp [hu]

/-- The links of the source can move: its queue is gone, and the target has no link of theirs. -/
lemma moveLinks_eq_ok (s : Db)
    (hfree : ∀ p, ¬((s.links.lookup (source, p)).isSome ∧ (s.links.lookup (target, p)).isSome)) :
    (s.deleteQueue source).moveLinks source target =
      .ok { s.deleteQueue source with links := movedLinks s.links source target } := by
  unfold moveLinks
  rw [if_neg, if_neg]
  · rfl
  · rw [List.any_eq_true]
    rintro ⟨e, he, hsource⟩
    have hkept : (s.deleteQueue source).pending.lookup e.1 = some e.2 :=
      Table.lookup_eq_some_iff.mpr he
    rw [deleteQueue, Table.lookup_filterRows, Option.filter_eq_some_iff] at hkept
    rw [beq_iff_eq] at hsource
    simp [hsource] at hkept
  · rw [List.any_eq_true]
    rintro ⟨⟨⟨u, p⟩, row⟩, he, hboth⟩
    rw [Bool.and_eq_true, beq_iff_eq] at hboth
    have hsource : s.links.lookup (u, p) = some row := Table.lookup_eq_some_iff.mpr he
    obtain rfl : u = source := hboth.1
    exact hfree p ⟨by rw [hsource]; rfl, hboth.2⟩

/-- **The transaction of a link** meets no constraint of the database. -/
lemma linkPair_eq_ok (h : Linked s) (codec : Codec) (now : String) (hne : source ≠ target)
    (hpair : s.editions.lookup (editionPair source target) = none)
    (hfree : ∀ p, ¬((s.links.lookup (source, p)).isSome ∧ (s.links.lookup (target, p)).isSome)) :
    ∃ s', s.linkPair codec source target now = .ok (s', ⟨source, target, s.savedPercent source,
      (s.providerRows source).map (·.provider)⟩) ∧ Moved s s' source target now := by
  have hinsert : s.insertEdition (editionPair source target) now =
      .ok { s with editions := s.editions.insert (editionPair source target) now } := by
    unfold insertEdition
    rw [if_neg (not_not_intro (editionPair_lt hne)), hpair]
    rfl
  set s₁ : Db := { s with editions := s.editions.insert (editionPair source target) now } with hs₁
  have hmove : (s₁.deleteQueue source).moveLinks source target = .ok { s₁.deleteQueue source with
      links := movedLinks s.links source target } := moveLinks_eq_ok s₁ hfree
  have hlinks := lookup_movedLinks s.links hne hfree
  have hqueue := foldlM_putQueued target (l := s.queuedRows source)
    (s := { s₁.deleteQueue source with links := movedLinks s.links source target }) fun q hq => by
      obtain ⟨hlink, hpercent⟩ := h.queued _ _ (mem_queuedRows.mp hq)
      refine ⟨hpercent, ?_⟩
      dsimp only
      rw [hlinks, if_neg hne.symm, if_pos rfl]
      simp [hlink]
  set s₃ : Db := { s₁.deleteQueue source with
    links := movedLinks s.links source target
    pending := (s.queuedRows source).foldl (fun t q => t.insert (target, q.1) q.2)
      (s₁.deleteQueue source).pending } with hs₃
  have hlink : s.linkPair codec source target now = .ok (s₃.copyPercent codec target
      (s.savedPercent source) now, ⟨source, target, s.savedPercent source,
        (s.providerRows source).map (·.provider)⟩) := by
    unfold linkPair
    dsimp only
    rw [hinsert]
    change ((s₁.deleteQueue source).moveLinks source target >>= fun t =>
      (s.queuedRows source).foldlM (putQueued target) t >>= fun t =>
        pure (t.copyPercent codec target (t.savedPercent source) now, _)) = _
    rw [hmove]
    change ((s.queuedRows source).foldlM (putQueued target)
      { s₁.deleteQueue source with links := movedLinks s.links source target } >>= fun t =>
        pure (t.copyPercent codec target (t.savedPercent source) now, _)) = _
    rw [hqueue]
    rfl
  have hcopy : ∀ percent, (s₃.copyPercent codec target percent now).links = s₃.links ∧
      (s₃.copyPercent codec target percent now).pending = s₃.pending ∧
      (s₃.copyPercent codec target percent now).editions = s₃.editions ∧
      (s₃.copyPercent codec target percent now).mirror = s₃.mirror ∧
      (s₃.copyPercent codec target percent now).bookTrash = s₃.bookTrash := by
    intro percent
    cases percent <;> exact ⟨rfl, rfl, rfl, rfl, rfl⟩
  obtain ⟨hclinks, hcpending, hceditions, hcmirror, hctrash⟩ := hcopy (s.savedPercent source)
  obtain ⟨hprogress, hrecords, hcatalog⟩ :=
    catalog_copyPercent codec s₃ target (s.savedPercent source) now
  refine ⟨_, hlink, fun k => ?_, fun k => ?_, hceditions, hprogress, hrecords, hcatalog, hcmirror,
    hctrash⟩
  · rw [hclinks]
    exact hlinks k
  · rw [hcpending]
    exact lookup_movedQueue h hne hfree k

/-- A link of two editions keeps the links sound. -/
lemma Moved.linked (hmoved : Moved s s' source target now) (h : Linked s) (hne : source ≠ target) :
    Linked s' := by
  -- where a link of the new table comes from
  have hfrom : ∀ k row, s'.links.lookup k = some row → k.1 ≠ source ∧
      (s.links.lookup k = some row ∨ k.1 = target ∧ s.links.lookup (source, k.2) = some row) := by
    intro k row hrow
    rw [hmoved.links] at hrow
    split_ifs at hrow with hsource htarget
    · refine ⟨hsource, ?_⟩
      rcases Option.or_eq_some_iff.mp hrow with hrow | ⟨-, hrow⟩
      · exact .inl hrow
      · exact .inr ⟨htarget, hrow⟩
    · exact ⟨hsource, .inl hrow⟩
  refine ⟨fun k k' row row' hrow hrow' hprovider hremote => ?_, fun k row hrow => ?_,
    fun k at_ hat => ?_⟩
  · obtain ⟨hk, hold | ⟨htarget, hold⟩⟩ := hfrom k row hrow
    · obtain ⟨hk', hold' | ⟨-, hold'⟩⟩ := hfrom k' row' hrow'
      · exact h.claimed k k' row row' hold hold' hprovider hremote
      · have hkey := h.claimed k (source, k'.2) row row' hold hold' hprovider hremote
        exact absurd (congrArg Prod.fst hkey) hk
    · obtain ⟨hk', hold' | ⟨htarget', -⟩⟩ := hfrom k' row' hrow'
      · have hkey := h.claimed (source, k.2) k' row row' hold hold' hprovider hremote
        exact absurd (congrArg Prod.fst hkey).symm hk'
      · exact Prod.ext (htarget.trans htarget'.symm) hprovider
  · rw [hmoved.pending] at hrow
    rw [hmoved.links]
    split_ifs at hrow ⊢ with hsource htarget
    · rcases Option.or_eq_some_iff.mp hrow with hrow | ⟨-, hrow⟩
      · obtain ⟨hlink, hpercent⟩ := h.queued k row hrow
        exact ⟨by simp [hlink], hpercent⟩
      · obtain ⟨hlink, hpercent⟩ := h.queued _ row hrow
        exact ⟨by simp [hlink], hpercent⟩
    · exact h.queued k row hrow
  · rw [hmoved.editions, Table.lookup_insert'] at hat
    split_ifs at hat with hk
    · exact hk ▸ editionPair_lt hne
    · exact h.ordered k at_ hat

/-- The check for the other order never finds a row. -/
lemma Linked.lookup_swap (h : Linked s) (hne : a ≠ b) :
    s.editions.lookup (editionPair a b).swap = none := by
  refine Option.eq_none_iff_forall_ne_some.mpr fun at_ hat => ?_
  have hlt := h.ordered _ at_ hat
  rw [Prod.fst_swap, Prod.snd_swap] at hlt
  exact (editionPair_lt hne).asymm hlt

/-- What `link_editions` asks of its arguments. -/
structure Linkable (s : Db) (source target : String) : Prop where
  hasSource : s.catalog.hasRecord source = true
  hasTarget : s.catalog.hasRecord target = true
  ne : source ≠ target
  fresh : s.editions.lookup (editionPair source target) = none
  free : ∀ p, ¬((s.links.lookup (source, p)).isSome ∧ (s.links.lookup (target, p)).isSome)

/-- The five checks, one after the other. -/
lemma linkEditions_cases (h : Linked s) (codec : Codec) (source target now : String) :
    (Linkable s source target ∧
      s.linkEditions codec source target now = s.linkPair codec source target now) ∨
    (¬Linkable s source target ∧ (s.linkEditions codec source target now = .error .notFound ∨
      ∃ detail, s.linkEditions codec source target now = .error (.invalidInput detail))) := by
  unfold linkEditions
  dsimp only
  split
  · next hsource => exact .inr ⟨fun hfit => hsource hfit.hasSource, .inl rfl⟩
  next hsource =>
  split
  · next htarget => exact .inr ⟨fun hfit => htarget hfit.hasTarget, .inl rfl⟩
  next htarget =>
  split
  · next hsame => exact .inr ⟨fun hfit => hfit.ne hsame, .inr ⟨_, rfl⟩⟩
  next hsame =>
  split
  · next hlinked =>
    refine .inr ⟨fun hfit => ?_, .inr ⟨_, rfl⟩⟩
    rw [hfit.fresh, h.lookup_swap hfit.ne] at hlinked
    cases hlinked
  next hlinked =>
  split
  · next hconflict =>
    refine .inr ⟨fun hfit => hconflict ?_, .inr ⟨_, rfl⟩⟩
    rw [List.eq_nil_iff_forall_not_mem]
    exact fun p hp => hfit.free p (mem_conflictingProviders.mp hp)
  next hconflict =>
  refine .inl ⟨⟨not_not.mp hsource, not_not.mp htarget, hsame, ?_, fun p hboth => ?_⟩, rfl⟩
  · rw [Bool.or_eq_true, not_or] at hlinked
    exact Option.not_isSome_iff_eq_none.mp hlinked.1
  · rw [not_not] at hconflict
    exact List.eq_nil_iff_forall_not_mem.mp hconflict p (mem_conflictingProviders.mpr hboth)

/-- **When two editions can be linked**: both are durable books, they are two, they are not linked
in either order, and no provider tracks both. A refusal is one of these four, and never a constraint
of the database that a later statement runs into. -/
theorem linkEditions_ok_iff (h : Linked s) (codec : Codec) (source target now : String) :
    ((∃ linked, s.linkEditions codec source target now = .ok linked) ↔ Linkable s source target) ∧
      ∀ detail, s.linkEditions codec source target now ≠ .error (.database detail) := by
  obtain ⟨hfit, heq⟩ | ⟨hnot, herr⟩ := linkEditions_cases h codec source target now
  · obtain ⟨s', hpair, -⟩ := linkPair_eq_ok h codec now hfit.ne hfit.fresh hfit.free
    rw [heq, hpair]
    exact ⟨iff_of_true ⟨_, rfl⟩ hfit, fun detail => by simp⟩
  · obtain heq | ⟨detail, heq⟩ := herr
    · rw [heq]
      exact ⟨iff_of_false (by simp) hnot, fun detail => by simp⟩
    · rw [heq]
      exact ⟨iff_of_false (by simp) hnot, fun detail => by simp⟩

/-- The one step of `link_editions`. -/
lemma moved_of_linkEditions (h : Linked s) {outcome : EditionLinkOutcome}
    (hok : s.linkEditions codec source target now = .ok (s', outcome)) :
    source ≠ target ∧ Moved s s' source target now ∧
      outcome = ⟨source, target, s.savedPercent source,
        (s.providerRows source).map (·.provider)⟩ := by
  obtain ⟨hfit, heq⟩ | ⟨-, herr⟩ := linkEditions_cases h codec source target now
  · obtain ⟨t, hpair, hmoved⟩ := linkPair_eq_ok h codec now hfit.ne hfit.fresh hfit.free
    rw [heq, hpair] at hok
    obtain ⟨rfl, rfl⟩ := Prod.mk.inj (Except.ok.inj hok)
    exact ⟨hfit.ne, hmoved, rfl⟩
  · obtain heq | ⟨detail, heq⟩ := herr
    · rw [heq] at hok
      cases hok
    · rw [heq] at hok
      cases hok

lemma mem_listEditions (h : Linked s) {editions : List EditionBook}
    (hok : s.listEditions a = .ok editions) :
    b ∈ editions.map (·.bookUid) ↔
      a ≠ b ∧ (s.editions.lookup (editionPair a b)).isSome ∧ s.catalog.hasRecord b := by
  unfold listEditions at hok
  split_ifs at hok
  obtain rfl := Except.ok.inj hok
  simp only [List.map_map, List.mem_map, List.mem_insertionSort, List.mem_filterMap,
    Option.bind_eq_some_iff, Option.map_eq_some_iff, Function.comp_apply]
  constructor
  · rintro ⟨row, ⟨pair, hpair, other, hother, r, hr, rfl⟩, rfl⟩
    obtain ⟨at_, hat⟩ := Option.isSome_iff_exists.mp (AList.lookup_isSome.mpr hpair)
    obtain ⟨hne, heq⟩ := (otherEdition_eq_some (h.ordered pair at_ hat)).mp hother
    refine ⟨hne, ?_, ?_⟩
    · rw [heq, hat]
      rfl
    · unfold Catalog.hasRecord
      rw [hr]
      rfl
  · rintro ⟨hne, hlinked, hrecord⟩
    obtain ⟨r, hr⟩ := Option.isSome_iff_exists.mp hrecord
    exact ⟨(b, r), ⟨editionPair a b, AList.lookup_isSome.mp hlinked, b,
      (otherEdition_eq_some (editionPair_lt hne)).mpr ⟨hne, rfl⟩, r, hr, rfl⟩, rfl⟩

/-- Every edition is listed once. -/
lemma nodup_listEditions (h : Linked s) {editions : List EditionBook}
    (hok : s.listEditions a = .ok editions) : (editions.map (·.bookUid)).Nodup := by
  unfold listEditions at hok
  split_ifs at hok
  obtain rfl := Except.ok.inj hok
  rw [List.map_map]
  set row := fun pair => (otherEdition a pair).bind fun other =>
    (s.catalog.records.lookup other).map (other, ·) with hrow
  have hread : ∀ pair r, row pair = some r → otherEdition a pair = some r.1 := by
    intro pair r hr
    simp only [hrow, Option.bind_eq_some_iff, Option.map_eq_some_iff] at hr
    obtain ⟨other, hother, -, -, rfl⟩ := hr
    exact hother
  have hperm := List.perm_insertionSort (fun a b => recency b.2 ≤ recency a.2)
    (s.editions.keys.filterMap row)
  refine (hperm.map _).nodup_iff.mpr ?_
  rw [List.map_filterMap, List.Nodup, List.pairwise_filterMap]
  refine s.editions.keys_nodup.imp_of_mem fun {pair pair'} hpair hpair' hne other hother other'
    hother' heq => hne ?_
  obtain ⟨r, hr, rfl⟩ := Option.map_eq_some_iff.mp hother
  obtain ⟨r', hr', rfl⟩ := Option.map_eq_some_iff.mp hother'
  obtain ⟨at_, hat⟩ := Option.isSome_iff_exists.mp (AList.lookup_isSome.mpr hpair)
  obtain ⟨at', hat'⟩ := Option.isSome_iff_exists.mp (AList.lookup_isSome.mpr hpair')
  have hfirst := (otherEdition_eq_some (h.ordered pair at_ hat)).mp (hread pair r hr)
  have hsecond := (otherEdition_eq_some (h.ordered pair' at' hat')).mp (hread pair' r' hr')
  rw [← hfirst.2, ← hsecond.2]
  exact congrArg (editionPair a) heq

end Db

/-! ## Runs -/

/-- One statement of a command of the providers, of the editions or of the trash. A transaction is
one statement. -/
inductive Stmt where
  | trash (drawn : Drawn) (q : Req)
  | upsertLink (uid provider remoteId now : String)
  | deleteLink (uid provider : String)
  | updateStatus (uid provider : String) (status : ProviderReadingStatus) (now : String)
  | saveProgress (uid : String) (update : ProgressUpdate) (now : String)
  | queueProgress (uid : String) (percent : ℚ) (now : String)
  | linkEditions (source target now : String)

/-- What a statement leaves: a statement that fails changes nothing. -/
def written {α : Type} (s : Db) : Except AppError (Db × α) → Db
  | .ok result => result.1
  | .error _ => s

def runStmt (codec : Codec) (showReal : ℚ → String) (s : Db) : Stmt → Db
  | .trash drawn q => (exec codec drawn q s).1
  | .upsertLink uid provider remoteId now => written s (s.upsertLink uid provider remoteId now)
  | .deleteLink uid provider => s.deleteLink uid provider
  | .updateStatus uid provider status now => written s (s.updateStatus uid provider status now)
  | .saveProgress uid update now =>
    { s with catalog := (s.catalog.upsertProgress codec.real showReal uid update now).1 }
  | .queueProgress uid percent now => written s (s.queueProgressForBook uid percent now)
  | .linkEditions source target now => written s (s.linkEditions codec source target now)

open Db

/-- A statement that keeps the links sound when it succeeds keeps them. -/
lemma linked_written {α : Type} {s : Db} {r : Except AppError (Db × α)} (h : Linked s)
    (hok : ∀ s' a, r = .ok (s', a) → Linked s') : Linked (written s r) := by
  cases r with
  | error err => exact h
  | ok result => exact hok result.1 result.2 rfl

lemma linked_runStmt {s : Db} (h : Linked s) (codec : Codec) (showReal : ℚ → String)
    (stmt : Stmt) : Linked (runStmt codec showReal s stmt) := by
  cases stmt with
  | trash drawn q => exact h.exec codec drawn q
  | upsertLink uid provider remoteId now =>
    exact linked_written h fun s' row hok => h.upsertLink hok
  | deleteLink uid provider => exact h.deleteLink uid provider
  | updateStatus uid provider status now =>
    exact linked_written h fun s' row hok => h.updateStatus hok
  | saveProgress uid update now => exact h.congr rfl rfl rfl
  | queueProgress uid percent now =>
    exact linked_written h fun s' count hok => h.queueProgressForBook hok
  | linkEditions source target now =>
    refine linked_written h fun s' outcome hok => ?_
    obtain ⟨hne, hmoved, -⟩ := moved_of_linkEditions h hok
    exact hmoved.linked h hne

lemma linked_foldl {s : Db} (h : Linked s) (codec : Codec) (showReal : ℚ → String)
    (stmts : List Stmt) : Linked (stmts.foldl (runStmt codec showReal) s) := by
  induction stmts generalizing s with
  | nil => exact h
  | cons stmt stmts ih => exact ih (linked_runStmt h codec showReal stmt)

/-- **The links stay sound over every run**, in whatever order the statements of linking, unlinking,
remote updates, page turns, editions, Forget, Restore and Reset come: no remote record is ever
claimed by two books, nothing is queued for a link that is gone, and a pair of editions has one
row. -/
theorem linked_run (codec : Codec) (showReal : ℚ → String) (s : Db) (h : Linked s)
    (stmts : List Stmt) :
    let s' := stmts.foldl (runStmt codec showReal) s
    (∀ book book' provider row row', s'.links.lookup (book, provider) = some row →
      s'.links.lookup (book', provider) = some row' → row.remoteId = row'.remoteId →
      book = book') ∧
    (∀ book provider row, s'.pending.lookup (book, provider) = some row →
      (s'.links.lookup (book, provider)).isSome ∧ IsPercent row.progressPercent) ∧
    ∀ a b, ¬((s'.editions.lookup (a, b)).isSome ∧ (s'.editions.lookup (b, a)).isSome) := by
  intro s'
  replace h : Linked s' := linked_foldl h codec showReal stmts
  refine ⟨fun book book' provider row row' hrow hrow' hremote =>
      congrArg Prod.fst (h.claimed _ _ row row' hrow hrow' rfl hremote),
    fun book provider row hrow => h.queued _ row hrow, fun a b ⟨hab, hba⟩ => ?_⟩
  obtain ⟨at_, hat⟩ := Option.isSome_iff_exists.mp hab
  obtain ⟨at', hat'⟩ := Option.isSome_iff_exists.mp hba
  exact lt_asymm (h.ordered _ at_ hat) (h.ordered _ at' hat')

/-- **Two editions list each other** in every state of every run, a book is never its own edition,
and no edition is listed twice. -/
theorem listEditions_symm (codec : Codec) (showReal : ℚ → String) (s : Db) (h : Linked s)
    (stmts : List Stmt) (a b : String) (editions editions' : List EditionBook)
    (ha : (stmts.foldl (runStmt codec showReal) s).listEditions a = .ok editions)
    (hb : (stmts.foldl (runStmt codec showReal) s).listEditions b = .ok editions') :
    (b ∈ editions.map (·.bookUid) ↔ a ∈ editions'.map (·.bookUid)) ∧
      a ∉ editions.map (·.bookUid) ∧ (editions.map (·.bookUid)).Nodup := by
  have hlinked := linked_foldl h codec showReal stmts
  have hrecord {u : String} {l : List EditionBook}
      (hok : (stmts.foldl (runStmt codec showReal) s).listEditions u = .ok l) :
      (stmts.foldl (runStmt codec showReal) s).catalog.hasRecord u = true := by
    unfold listEditions at hok
    split_ifs at hok with hu
    exact hu
  refine ⟨?_, fun hself => ((mem_listEditions hlinked ha).mp hself).1 rfl,
    nodup_listEditions hlinked ha⟩
  rw [mem_listEditions hlinked ha, mem_listEditions hlinked hb, editionPair_comm]
  constructor
  · rintro ⟨hne, hpair, -⟩
    exact ⟨hne.symm, hpair, hrecord ha⟩
  · rintro ⟨hne, hpair, -⟩
    exact ⟨hne.symm, hpair, hrecord hb⟩

/-! ## A shelf with two editions -/

/-- Two books, the first one linked to a provider and read to a third. -/
def shelf : Db where
  catalog :=
    { records := (∅ : Table String RecordRow).insert "a" { createdAt := "1" } |>.insert "b"
        { createdAt := "2" }
      progress := (∅ : Table String ProgressRow).insert "a"
        { progressPercent := some 30, cfi := some "/6", updatedAt := "3" } }
  links := (∅ : Table (String × String) LinkRow).insert ("a", "readwise")
    { remoteId := "7", linkedAt := "3", updatedAt := "3" }
  pending := (∅ : Table (String × String) PendingRow).insert ("a", "readwise") ⟨30, "3"⟩

def plainCodec : Codec := ⟨fun _ => .null, fun _ => ""⟩

lemma linked_shelf : Linked shelf := by
  have hone : Linked { shelf with links := ∅, pending := ∅ } :=
    ⟨fun _ _ _ _ h => by simp at h, fun _ _ h => by simp at h, fun _ _ h => by cases h⟩
  have hlink : Linked { shelf with pending := ∅ } :=
    hone.putLink (k := ("a", "readwise")) fun _ _ h => by simp at h
  have hqueue : Linked { shelf with
      pending := [("a", "readwise")].foldl (fun t key => t.insert key ⟨30, "3"⟩) ∅ } := by
    refine hlink.queue "3" ?_ ?_
    · intro k hk
      rw [List.mem_singleton.mp hk]
      rfl
    · intro _
      decide
  exact hqueue

lemma linkable_shelf : Linkable shelf "a" "b" where
  hasSource := rfl
  hasTarget := rfl
  ne := by decide
  fresh := rfl
  free p := by
    rintro ⟨-, h⟩
    obtain ⟨row, hrow⟩ := Option.isSome_iff_exists.mp h
    have hmem := Table.lookup_eq_some_iff.mp hrow
    simp [shelf] at hmem

theorem linkBook_ok_iff_shelf :
    ((∃ row, (shelf.linkBook "b" "readwise" "7" "4").2 = .ok row) ↔
      trim "readwise" ≠ "" ∧ trim "7" ≠ "" ∧ shelf.catalog.hasRecord "b" ∧
        ∀ k row, shelf.links.lookup k = some row → k.2 = trim "readwise" →
          row.remoteId = trim "7" → k.1 = "b") ∧
      ∀ detail, (shelf.linkBook "b" "readwise" "7" "4").2 ≠ .error (.database detail) :=
  linkBook_ok_iff linked_shelf "b" "readwise" "7" "4"

theorem linkEditions_ok_iff_shelf :
    ((∃ linked, shelf.linkEditions plainCodec "a" "b" "4" = .ok linked) ↔
      Linkable shelf "a" "b") ∧
      ∀ detail, shelf.linkEditions plainCodec "a" "b" "4" ≠ .error (.database detail) :=
  linkEditions_ok_iff linked_shelf plainCodec "a" "b" "4"

/-- The two books are linked as editions. -/
def linkShelf : List Stmt := [.linkEditions "a" "b" "4"]

theorem linked_run_shelf :
    let s' := linkShelf.foldl (runStmt plainCodec fun _ => "") shelf
    (∀ book book' provider row row', s'.links.lookup (book, provider) = some row →
      s'.links.lookup (book', provider) = some row' → row.remoteId = row'.remoteId →
      book = book') ∧
    (∀ book provider row, s'.pending.lookup (book, provider) = some row →
      (s'.links.lookup (book, provider)).isSome ∧ IsPercent row.progressPercent) ∧
    ∀ a b, ¬((s'.editions.lookup (a, b)).isSome ∧ (s'.editions.lookup (b, a)).isSome) :=
  linked_run plainCodec (fun _ => "") shelf linked_shelf linkShelf

/-- The shelf once its two books are editions of one work. -/
def pairShelf : Db :=
  { shelf with editions := (∅ : Table (String × String) String).insert ("a", "b") "4" }

lemma linked_pairShelf : Linked pairShelf where
  claimed := linked_shelf.claimed
  queued := linked_shelf.queued
  ordered k at_ hat := by
    simp only [pairShelf, Table.lookup_insert'] at hat
    split_ifs at hat with hk
    · rw [hk]
      decide
    · cases hat

theorem listEditions_symm_pairShelf :
    ∃ editions editions', pairShelf.listEditions "a" = .ok editions ∧
      pairShelf.listEditions "b" = .ok editions' ∧
      ("b" ∈ editions.map (·.bookUid) ↔ "a" ∈ editions'.map (·.bookUid)) ∧
      "a" ∉ editions.map (·.bookUid) ∧ (editions.map (·.bookUid)).Nodup :=
  ⟨_, _, rfl, rfl, listEditions_symm plainCodec (fun _ => "") pairShelf linked_pairShelf [] "a" "b"
    _ _ rfl rfl⟩

end Lifecycle

end TuxBooks
