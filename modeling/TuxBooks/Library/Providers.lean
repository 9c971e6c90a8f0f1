import TuxBooks.Library.Forget
import TuxBooks.Reader.Saves

set_option relaxedAutoImplicit false
set_option autoImplicit false

/-!
# Reading providers

`sidecar/src/repository/providers.rs` and `sidecar/src/services/providers.rs`: a durable book is
linked to the same book of a third-party service, the service's status is cached on the link, and a
page turn is queued for every link of the book. The tables are those of `TuxBooks.Lifecycle.Db`,
which Reset, Forget and Restore write as well.

## Main definitions

* `TuxBooks.Lifecycle.Db.upsertLink`, `TuxBooks.Lifecycle.Db.queueProgressForBook` — the statements.
* `TuxBooks.Lifecycle.Db.linkBook`, `TuxBooks.Lifecycle.Db.applyRemoteUpdate`,
  `TuxBooks.Lifecycle.Db.queuePageTurn` — the service.
* `TuxBooks.Lifecycle.Db.Linked` — no two books claim one remote record, and every queued page turn
  has its link.

## Main results

* `TuxBooks.Lifecycle.Db.Linked.exec` — the requests of the trash keep the links sound.
* `TuxBooks.Lifecycle.Db.linkBook_ok_iff` — when a book can be linked.
* `TuxBooks.Lifecycle.Db.applyRemoteUpdate_spec` — what an update from the provider writes.
-/

namespace TuxBooks

namespace Lifecycle

/-- Only a finished book changes the progress that the reader shows. -/
def ProviderReadingStatus.completesBook : ProviderReadingStatus → Bool
  | .finished => true
  | _ => false

/-- `ON CONFLICT(book_uid, provider) DO UPDATE`: another remote record clears the status. -/
def LinkRow.repoint (row : LinkRow) (remoteId now : String) : LinkRow where
  remoteId := remoteId
  status := if row.remoteId = remoteId then row.status else none
  statusUpdatedAt := if row.remoteId = remoteId then row.statusUpdatedAt else none
  linkedAt := row.linkedAt
  updatedAt := now

namespace Db

/-! ## Statements -/

/-- The book that a link claims a remote record for. -/
def findBookUidByRemote (s : Db) (provider remoteId : String) : Option String :=
  (s.links.entries.find? fun e => e.1.2 == provider && e.2.remoteId == remoteId).map (·.1.1)

/-- `UNIQUE (provider, remote_id)` does not let a link have a remote record. -/
def remoteTaken (s : Db) (uid provider remoteId : String) : Bool :=
  s.links.entries.any fun e =>
    e.1 != (uid, provider) && e.1.2 == provider && e.2.remoteId == remoteId

/-- `trim(text) = ''` of SQLite, which drops spaces only. -/
def blank (text : String) : Bool := text.toList.all (· == ' ')

/-- Insert a link, or point it at another remote record. Without the book there is no row. -/
def upsertLink (s : Db) (uid provider remoteId now : String) :
    Except AppError (Db × Option LinkRow) :=
  if ¬s.catalog.hasRecord uid then .ok (s, none)
  else if blank provider || blank remoteId then
    .error (.database "CHECK constraint failed: book_provider_links")
  else if s.remoteTaken uid provider remoteId then
    .error (.database "UNIQUE constraint failed: book_provider_links")
  else
    let row := match s.links.lookup (uid, provider) with
      | some row => row.repoint remoteId now
      | none => { remoteId := remoteId, linkedAt := now, updatedAt := now }
    .ok ({ s with links := s.links.insert (uid, provider) row }, some row)

/-- Cache the status of the provider. -/
def updateStatus (s : Db) (uid provider : String) (status : ProviderReadingStatus) (now : String) :
    Except AppError (Db × LinkRow) :=
  match s.links.lookup (uid, provider) with
  | none => .error .notFound
  | some row =>
    let row := { row with status := some status, statusUpdatedAt := some now, updatedAt := now }
    .ok ({ s with links := s.links.insert (uid, provider) row }, row)

/-- The links of a book. -/
def linkKeys (s : Db) (uid : String) : List (String × String) :=
  s.links.keys.filter fun key => key.1 == uid

/-- A percentage that the tables accept. -/
def IsPercent (percent : ℚ) : Prop := 0 ≤ percent ∧ percent ≤ 100

instance (percent : ℚ) : Decidable (IsPercent percent) := inferInstanceAs (Decidable (_ ∧ _))

/-- Queue a page turn for every link of a book that has a file, and count the rows. -/
def queueProgressForBook (s : Db) (uid : String) (percent : ℚ) (now : String) :
    Except AppError (Db × ℕ) :=
  let keys := if s.fileCount uid = 0 then [] else s.linkKeys uid
  if keys ≠ [] ∧ ¬IsPercent percent then
    .error (.database "CHECK constraint failed: book_provider_pending_progress")
  else
    .ok ({ s with
      pending := keys.foldl (fun t key => t.insert key ⟨percent, now⟩) s.pending }, keys.length)

/-! ## The service -/

section Service

variable (codec : Codec) (showReal : ℚ → String)

/-- Link a book to a remote record. -/
def linkBook (s : Db) (uid provider remoteId now : String) : Db × Except AppError LinkRow :=
  if trim provider = "" then (s, .error (.invalidInput "provider is empty"))
  else if trim remoteId = "" then (s, .error (.invalidInput "remote id is empty"))
  else if (s.findBookUidByRemote (trim provider) (trim remoteId)).any (· != uid) then
    (s, .error (.invalidInput ("remote book " ++ trim remoteId ++
      " is already linked to another TuxBooks book")))
  else
    match s.upsertLink uid (trim provider) (trim remoteId) now with
    | .error err => (s, .error err)
    | .ok (s, none) => (s, .error .notFound)
    | .ok (s, some row) => (s, .ok row)

/-- Unlink one provider. -/
def unlinkBook (s : Db) (uid provider : String) : Db × Bool :=
  (s.deleteLink uid (trim provider), (s.links.lookup (uid, trim provider)).isSome)

/-- The percentage that an update from the provider sets. -/
def remotePercent (status : Option ProviderReadingStatus) (percent : Option ℚ) : Option ℚ :=
  if status.any (·.completesBook) then some 100 else percent

/-- `upsert_progress` with only a percentage. -/
def savePercent (s : Db) (uid : String) (percent : ℚ) (now : String) : Db × Except AppError Unit :=
  let saved := s.catalog.upsertProgress codec.real showReal uid
    { progressPercent := some percent } now
  ({ s with catalog := saved.1 }, saved.2)

/-- The progress part of an update from the provider. -/
def saveRemotePercent (s : Db) (uid : String) (percent : Option ℚ) (now : String) :
    Db × Except AppError Unit :=
  match percent with
  | none => (s, .ok ())
  | some percent =>
    if s.catalog.hasRecord uid then savePercent codec showReal s uid percent now
    else (s, .error .notFound)

/-- The status part of an update from the provider. -/
def cacheStatus (s : Db) (uid provider : String) (status : Option ProviderReadingStatus)
    (link : LinkRow) (now : String) : Db × Except AppError LinkRow :=
  match status with
  | none => (s, .ok link)
  | some status =>
    match s.updateStatus uid provider status now with
    | .ok (s, link) => (s, .ok link)
    | .error err => (s, .error err)

/-- Apply a status, a progress or both that came from the provider. -/
def applyRemoteUpdate (s : Db) (uid provider : String) (status : Option ProviderReadingStatus)
    (percent : Option ℚ) (now : String) : Db × Except AppError LinkRow :=
  if status.isNone && percent.isNone then
    (s, .error (.invalidInput "remote update carries neither status nor progress"))
  else
    match s.links.lookup (uid, trim provider) with
    | none => (s, .error .notFound)
    | some link =>
      Fallible.andThen
        (saveRemotePercent codec showReal s uid (remotePercent status percent) now)
        fun s _ => s.cacheStatus uid (trim provider) status link now

/-- Record a local page turn for every linked provider. -/
def queuePageTurn (s : Db) (uid : String) (percent : Option ℚ) (now : String) :
    Except AppError (Db × ℕ) :=
  match percent with
  | none => .ok (s, 0)
  | some percent =>
    if IsPercent percent then s.queueProgressForBook uid percent now
    else .error (.invalidInput ("progress_percent " ++ showReal percent ++ " outside 0..=100"))

end Service

/-! ## Sound links -/

/-- No two books claim one remote record, every queued page turn is a percentage for a link, and
two editions stand in one order. -/
structure Linked (s : Db) : Prop where
  claimed : ∀ k k' row row', s.links.lookup k = some row → s.links.lookup k' = some row' →
    k.2 = k'.2 → row.remoteId = row'.remoteId → k = k'
  queued : ∀ k row, s.pending.lookup k = some row →
    (s.links.lookup k).isSome ∧ IsPercent row.progressPercent
  ordered : ∀ k at_, s.editions.lookup k = some at_ → k.1 < k.2

variable {s s' : Db}

lemma remoteTaken_eq_false {uid provider remoteId : String} :
    s.remoteTaken uid provider remoteId = false ↔
      ∀ k row, s.links.lookup k = some row → k.2 = provider → row.remoteId = remoteId →
        k = (uid, provider) := by
  unfold remoteTaken
  rw [List.any_eq_false]
  constructor
  · intro h k row hlookup hprovider hremote
    have hnot := h ⟨k, row⟩ (Table.lookup_eq_some_iff.mp hlookup)
    by_contra hne
    simp [hne, hprovider, hremote] at hnot
  · rintro h ⟨k, row⟩ hmem hall
    simp only [Bool.and_eq_true, bne_iff_ne, beq_iff_eq] at hall
    exact hall.1.1 (h k row (Table.lookup_eq_some_iff.mpr hmem) hall.1.2 hall.2)

namespace Linked

/-- Nothing that the invariant reads changes. -/
lemma congr (h : Linked s) (hlinks : s'.links = s.links) (hpending : s'.pending = s.pending)
    (heditions : s'.editions = s.editions) : Linked s' where
  claimed := by
    rw [hlinks]
    exact h.claimed
  queued := by
    rw [hlinks, hpending]
    exact h.queued
  ordered := by
    rw [heditions]
    exact h.ordered

/-- Put a row under a key that may have its remote record. -/
lemma putLink (h : Linked s) {k : String × String} {row : LinkRow}
    (hfree : ∀ k' row', s.links.lookup k' = some row' → k'.2 = k.2 →
      row'.remoteId = row.remoteId → k' = k) :
    Linked { s with links := s.links.insert k row } where
  claimed k₁ k₂ r₁ r₂ h₁ h₂ hprovider hremote := by
    rw [Table.lookup_insert'] at h₁ h₂
    split_ifs at h₁ h₂ with hk₁ hk₂ hk₂
    · rw [hk₁, hk₂]
    · obtain rfl := Option.some.inj h₁
      rw [hk₁] at hprovider ⊢
      exact (hfree k₂ r₂ h₂ hprovider.symm hremote.symm).symm
    · obtain rfl := Option.some.inj h₂
      rw [hk₂] at hprovider ⊢
      exact hfree k₁ r₁ h₁ hprovider hremote
    · exact h.claimed k₁ k₂ r₁ r₂ h₁ h₂ hprovider hremote
  queued k' row' hrow := by
    refine ⟨?_, (h.queued k' row' hrow).2⟩
    rw [Table.lookup_insert']
    split_ifs
    · rfl
    · exact (h.queued k' row' hrow).1
  ordered := h.ordered

lemma deleteLink (h : Linked s) (uid provider : String) : Linked (s.deleteLink uid provider) where
  claimed k k' row row' hrow hrow' := by
    simp only [Db.deleteLink, Table.lookup_erase'] at hrow hrow'
    split_ifs at hrow hrow'
    exact h.claimed k k' row row' hrow hrow'
  queued k row hrow := by
    simp only [Db.deleteLink, Table.lookup_erase'] at hrow ⊢
    split_ifs at hrow with hk
    rw [if_neg hk]
    exact h.queued k row hrow
  ordered := h.ordered

/-- The links of some books go, with their queue. -/
lemma filterBooks (h : Linked s) (keep : String → Bool)
    (hlinks : s'.links = s.links.filterRows fun k _ => keep k.1)
    (hpending : s'.pending = s.pending.filterRows fun k _ => keep k.1)
    (heditions : ∀ k at_, s'.editions.lookup k = some at_ → s.editions.lookup k = some at_) :
    Linked s' where
  claimed k k' row row' hrow hrow' := by
    rw [hlinks, Table.lookup_filterRows, Option.filter_eq_some_iff] at hrow hrow'
    exact h.claimed k k' row row' hrow.1 hrow'.1
  queued k row hrow := by
    rw [hpending, Table.lookup_filterRows, Option.filter_eq_some_iff] at hrow
    obtain ⟨hsome, hpercent⟩ := h.queued k row hrow.1
    obtain ⟨link, hlink⟩ := Option.isSome_iff_exists.mp hsome
    refine ⟨?_, hpercent⟩
    rw [hlinks, Table.lookup_filterRows, hlink]
    simpa using hrow.2
  ordered k at_ hat := h.ordered k at_ (heditions k at_ hat)

/-- A list of page turns is queued for links of the book. -/
lemma queue (h : Linked s) {keys : List (String × String)} {percent : ℚ} (now : String)
    (hkeys : ∀ k ∈ keys, (s.links.lookup k).isSome) (hpercent : keys ≠ [] → IsPercent percent) :
    Linked { s with
      pending := keys.foldl (fun t key => t.insert key ⟨percent, now⟩) s.pending } where
  claimed := h.claimed
  queued := by
    have hfold : ∀ (keys : List (String × String)) (t : Table (String × String) PendingRow),
        (∀ k ∈ keys, (s.links.lookup k).isSome ∧ IsPercent percent) →
        (∀ k row, t.lookup k = some row →
          (s.links.lookup k).isSome ∧ IsPercent row.progressPercent) →
        ∀ k row, (keys.foldl (fun t key => t.insert key ⟨percent, now⟩) t).lookup k = some row →
          (s.links.lookup k).isSome ∧ IsPercent row.progressPercent := by
      intro keys
      induction keys with
      | nil => exact fun t _ ht => ht
      | cons key keys ih =>
        intro t hall ht
        refine ih _ (fun k hk => hall k (List.mem_cons_of_mem _ hk)) fun k row hrow => ?_
        rw [Table.lookup_insert'] at hrow
        split_ifs at hrow with hk
        · obtain rfl := Option.some.inj hrow
          exact hk ▸ hall key List.mem_cons_self
        · exact ht k row hrow
    exact hfold keys s.pending
      (fun k hk => ⟨hkeys k hk, hpercent (List.ne_nil_of_mem hk)⟩) h.queued
  ordered := h.ordered

/-! ### The requests of the trash -/

variable {codec : Codec} {drawn : Drawn}

lemma deleteRecord (h : Linked s) (uid : String) : Linked (s.deleteRecord uid) := by
  refine h.filterBooks (fun u => u != uid) rfl rfl fun k at_ hat => ?_
  simp only [Db.deleteRecord, Table.lookup_filterRows, Option.filter_eq_some_iff] at hat
  exact hat.1

lemma insertRecord (h : Linked s) {uid : String} {r : RecordRow}
    (hok : s.insertRecord uid r = .ok s') : Linked s' := by
  unfold Db.insertRecord at hok
  split_ifs at hok
  obtain rfl := Except.ok.inj hok
  exact h.congr rfl rfl rfl

/-- A link of a snapshot is skipped when its provider or its remote record has one. -/
lemma insertLink (h : Linked s) (uid : String) (link : ProviderSnapshot) :
    Linked (s.insertLink uid link) := by
  unfold Db.insertLink
  split
  · exact h
  · next hfree =>
    refine h.putLink fun k row hlookup hprovider hremote => absurd ?_ hfree
    rw [Bool.or_eq_true]
    right
    refine List.any_eq_true.mpr ⟨⟨k, row⟩, Table.lookup_eq_some_iff.mp hlookup, ?_⟩
    simpa using ⟨hprovider, hremote⟩

lemma foldl {α : Type} {f : Db → α → Db} (hf : ∀ s a, Linked s → Linked (f s a))
    (h : Linked s) (as : List α) : Linked (as.foldl f s) := by
  induction as generalizing s with
  | nil => exact h
  | cons a as ih => exact ih (hf s a h)

lemma putNote (h : Linked s) (uid : String) (a : AnnotationSnapshot) :
    Linked (s.putAnnotation codec uid a) := h.congr rfl rfl rfl

variable (codec) in
lemma insertOrIgnoreNote (h : Linked s) (uid : String) (a : AnnotationSnapshot) :
    Linked (s.insertOrIgnoreAnnotation codec uid a) := by
  unfold Db.insertOrIgnoreAnnotation
  split
  · exact h
  · exact h.putNote uid a

lemma insertMembership (h : Linked s) (uid : String) (membership : CollectionSnapshot) :
    Linked (s.insertMembership uid membership) := by
  unfold Db.insertMembership
  split
  · exact h
  · exact h.congr rfl rfl rfl

lemma putOverrides (h : Linked s) (uid : String) (r : Option OverrideRow) :
    Linked (s.putOverrides codec uid r) := by
  unfold Db.putOverrides
  split
  · exact h.congr rfl rfl rfl
  · exact h

lemma restoreProgress (h : Linked s) {uid : String} {progress : Option ProgressRow}
    (hok : s.restoreProgress codec uid progress = .ok s') : Linked s' := by
  unfold Db.restoreProgress at hok
  split at hok
  · unfold Db.insertProgress at hok
    split_ifs at hok
    obtain rfl := Except.ok.inj hok
    exact h.congr rfl rfl rfl
  · exact Except.ok.inj hok ▸ h

lemma restoreLists (h : Linked s) {uid : String} {authors subjects : List String}
    (hok : s.restoreLists codec uid authors subjects = .ok s') : Linked s' := by
  have hlist {s s' : Db} (h : Linked s) {list : BookList} {names : List String}
      (hok : s.replaceList codec list uid names = .ok s') : Linked s' := by
    unfold Db.replaceList at hok
    cases hresult : (s.catalog.replaceList codec.real list _ names).2 with
    | error err =>
      rw [hresult] at hok
      cases hok
    | ok _ =>
      rw [hresult] at hok
      obtain rfl := Except.ok.inj hok
      exact h.congr rfl rfl rfl
  unfold Db.restoreLists at hok
  obtain ⟨s₁, hauthors, hok⟩ := Fallible.bind_eq_ok hok
  exact hlist (hlist h hauthors) hok

lemma restoreState (h : Linked s) {uid : String} {snapshot : BookSnapshot}
    (hok : s.restoreState codec uid snapshot = .ok s') : Linked s' := by
  unfold Db.restoreState at hok
  obtain ⟨s₁, hprogress, hok⟩ := Fallible.bind_eq_ok hok
  obtain ⟨s₂, hlists, hok⟩ := Fallible.bind_eq_ok hok
  obtain rfl := Except.ok.inj hok
  have hnotes := foldl (fun _ a h => h.insertOrIgnoreNote codec uid a)
    (h.restoreProgress hprogress) snapshot.annotations
  have hmembers := foldl (fun _ m h => h.insertMembership uid m) hnotes snapshot.collections
  have hrestored := (hmembers.putOverrides uid snapshot.overrides).restoreLists hlists
  exact foldl (fun _ link h => h.insertLink uid link) hrestored snapshot.providers

lemma retire (h : Linked s) {snapshot : BookSnapshot} {retired : Retired}
    (hok : s.retire codec snapshot drawn = .ok (s', retired)) : Linked s' := by
  unfold Db.retire at hok
  dsimp only at hok
  split_ifs at hok
  obtain ⟨s₁, hhand, hok⟩ := Fallible.bind_eq_ok hok
  obtain ⟨⟨s₂, id⟩, htrash, hok⟩ := Fallible.bind_eq_ok hok
  obtain ⟨rfl, -⟩ := Prod.mk.inj (Except.ok.inj hok)
  have hmoved : Linked s₁ := by
    unfold Db.handOver at hhand
    split at hhand
    · unfold Db.rebindFiles at hhand
      obtain ⟨s₀, hinsert, hhand⟩ := Fallible.bind_eq_ok hhand
      obtain rfl := Except.ok.inj hhand
      exact (h.insertRecord hinsert).congr rfl rfl rfl
    · obtain rfl := Except.ok.inj hhand
      exact h.congr rfl rfl rfl
  have htrashed : Linked s₂ := by
    unfold Db.insertTrash at htrash
    split_ifs at htrash
    obtain ⟨rfl, -⟩ := Prod.mk.inj (Except.ok.inj htrash)
    exact hmoved.congr rfl rfl rfl
  exact htrashed.deleteRecord snapshot.book.uid

lemma dropFresh (h : Linked s) (fresh old : String) : Linked (s.dropFresh fresh old) := by
  unfold Db.dropFresh
  split
  · refine Linked.deleteRecord ?_ fresh
    exact h.congr rfl rfl rfl
  · exact h

lemma replaceBook (h : Linked s) {snapshot : BookSnapshot} {replacement : Option String}
    (hok : s.replaceBook codec snapshot replacement = .ok s') : Linked s' := by
  unfold Db.replaceBook at hok
  dsimp only at hok
  obtain ⟨s₁, hinsert, hok⟩ := Fallible.bind_eq_ok hok
  obtain ⟨s₂, hstate, hok⟩ := Fallible.bind_eq_ok hok
  obtain rfl := Except.ok.inj hok
  have hdropped : Linked
      (replacement.elim s fun fresh => s.dropFresh fresh snapshot.book.uid) := by
    cases replacement with
    | none => exact h
    | some fresh => exact h.dropFresh fresh snapshot.book.uid
  have hrecord := (hdropped.deleteRecord snapshot.book.uid).insertRecord hinsert
  exact (hrecord.restoreState hstate).congr rfl rfl rfl

lemma mergeBook (h : Linked s) {snapshot : BookSnapshot} {uid : String} {oldIsNewer : Bool}
    (hok : s.mergeBook codec snapshot uid oldIsNewer = .ok s') : Linked s' := by
  unfold Db.mergeBook at hok
  dsimp only at hok
  obtain ⟨s₁, hnotes, hok⟩ := Fallible.bind_eq_ok hok
  obtain ⟨s₂, hoverrides, hok⟩ := Fallible.bind_eq_ok hok
  obtain rfl := Except.ok.inj hok
  have hprogress : ∀ progress, Linked (s.mergeProgress codec uid progress) := by
    intro progress
    unfold Db.mergeProgress
    split
    · exact h.congr rfl rfl rfl
    · exact h
  have hnoted : Linked s₁ := by
    refine Fallible.foldlM_inv (P := Linked) (fun t a t' ht hok => ?_) (hprogress _) hnotes
    unfold Db.insertAnnotation at hok
    split_ifs at hok
    obtain rfl := Except.ok.inj hok
    exact ht.putNote uid a
  have hmembers := foldl (fun _ m h => h.insertMembership uid m) hnoted snapshot.collections
  have hmerged : Linked s₂ := by
    unfold Db.mergeOverrides at hoverrides
    split_ifs at hoverrides
    · exact Except.ok.inj hoverrides ▸ hmembers
    · exact (hmembers.putOverrides uid snapshot.overrides).restoreLists hoverrides
  exact (foldl (fun _ link h => h.insertLink uid link) hmerged snapshot.providers).congr rfl rfl rfl

lemma transact {r : Except AppError Db} (h : Linked s) (hr : ∀ s', r = .ok s' → Linked s') :
    Linked (Lifecycle.transact s r).1 := by
  cases r with
  | error err => exact h
  | ok s' => exact hr s' rfl

/-- **The requests of the trash keep the links sound**, whatever snapshot they carry. -/
theorem exec (h : Linked s) (codec : Codec) (drawn : Drawn) (q : Req) :
    Linked (Lifecycle.exec codec drawn q s).1 := by
  cases q with
  | unlink uid provider => exact h.deleteLink uid provider
  | retire snapshot =>
    simp only [Lifecycle.exec]
    cases hresult : s.retire codec snapshot drawn with
    | error err => exact h
    | ok retired => exact h.retire hresult
  | replace snapshot replacement => exact h.transact fun s' hok => h.replaceBook hok
  | merge snapshot uid oldIsNewer => exact h.transact fun s' hok => h.mergeBook hok
  | clear uid => exact h.filterBooks (fun u => u != uid) rfl rfl fun _ _ hat => hat
  | markRestored id resolution =>
    simp only [Lifecycle.exec, Db.markRestored]
    split
    · exact h
    · exact h.congr rfl rfl rfl
  | _ => exact h.congr rfl rfl rfl

/-! ### The statements of the providers -/

lemma upsertLink (h : Linked s) {uid provider remoteId now : String} {row : Option LinkRow}
    (hok : s.upsertLink uid provider remoteId now = .ok (s', row)) : Linked s' := by
  unfold Db.upsertLink at hok
  split_ifs at hok with hrecord hblank htaken
  · obtain ⟨rfl, -⟩ := Prod.mk.inj (Except.ok.inj hok)
    refine h.putLink fun k' row' hlookup hprovider hremote => ?_
    have hfree := remoteTaken_eq_false.mp (Bool.eq_false_of_not_eq_true htaken)
    refine hfree k' row' hlookup hprovider ?_
    rw [hremote]
    cases s.links.lookup (uid, provider) <;> rfl
  · obtain ⟨rfl, -⟩ := Prod.mk.inj (Except.ok.inj hok)
    exact h

lemma updateStatus (h : Linked s) {uid provider now : String} {status : ProviderReadingStatus}
    {row : LinkRow} (hok : s.updateStatus uid provider status now = .ok (s', row)) :
    Linked s' := by
  unfold Db.updateStatus at hok
  split at hok
  · cases hok
  · next old hold =>
    obtain ⟨rfl, -⟩ := Prod.mk.inj (Except.ok.inj hok)
    exact h.putLink fun k' row' hlookup hprovider hremote =>
      h.claimed k' _ row' old hlookup hold hprovider hremote

lemma queueProgressForBook (h : Linked s) {uid now : String} {percent : ℚ} {count : ℕ}
    (hok : s.queueProgressForBook uid percent now = .ok (s', count)) : Linked s' := by
  unfold Db.queueProgressForBook at hok
  dsimp only at hok
  split_ifs at hok with hfiles hcheck hcheck
  · obtain ⟨rfl, -⟩ := Prod.mk.inj (Except.ok.inj hok)
    exact h.queue _ (by simp) (by simp)
  · obtain ⟨rfl, -⟩ := Prod.mk.inj (Except.ok.inj hok)
    refine h.queue _ (fun k hk => ?_) fun hne => ?_
    · exact AList.lookup_isSome.mpr (List.mem_filter.mp hk).1
    · by_contra hnot
      exact hcheck ⟨hne, hnot⟩

end Linked

/-! ## The service -/

/-- Text that is not empty without white space is not blank. -/
lemma blank_trim {text : String} (h : trim text ≠ "") : blank (trim text) = false := by
  refine Bool.eq_false_of_not_eq_true fun hblank => h ?_
  have hwhite : ∀ c ∈ (trim text).toList, isWhite c = true := fun c hc => by
    have hspace := List.all_eq_true.mp hblank c hc
    rw [beq_iff_eq] at hspace
    subst hspace
    decide
  rw [← trim_trim text, trim, List.dropWhile_eq_nil_iff.mpr hwhite]
  rfl

/-- The book that claims a remote record, if there is one, is the one with the link. -/
lemma findBookUidByRemote_any (h : Linked s) (uid provider remoteId : String) :
    (s.findBookUidByRemote provider remoteId).any (· != uid) = true ↔
      ∃ k row, s.links.lookup k = some row ∧ k.2 = provider ∧ row.remoteId = remoteId ∧
        k.1 ≠ uid := by
  unfold findBookUidByRemote
  cases hfind : s.links.entries.find? fun e => e.1.2 == provider && e.2.remoteId == remoteId with
  | none =>
    simp only [Option.map_none, Option.any_none, Bool.false_eq_true, false_iff]
    rintro ⟨k, row, hlookup, hprovider, hremote, -⟩
    have hnot := List.find?_eq_none.mp hfind ⟨k, row⟩ (Table.lookup_eq_some_iff.mp hlookup)
    simp [hprovider, hremote] at hnot
  | some e =>
    obtain ⟨k, row⟩ := e
    have hrow := Table.lookup_eq_some_iff.mpr (List.mem_of_find?_eq_some hfind)
    have hfound := List.find?_some hfind
    simp only [Bool.and_eq_true, beq_iff_eq] at hfound
    simp only [Option.map_some, Option.any_some, bne_iff_ne]
    constructor
    · exact fun hne => ⟨k, row, hrow, hfound.1, hfound.2, hne⟩
    · rintro ⟨k', row', hlookup, hprovider, hremote, hne⟩
      have hkey := h.claimed k' k row' row hlookup hrow (hprovider.trans hfound.1.symm)
        (hremote.trans hfound.2.symm)
      exact hkey ▸ hne

/-- **When a book can be linked.** Both names must say something, the book must be there, and no
other book may claim the remote record. No constraint of the database is ever hit. -/
theorem linkBook_ok_iff (h : Linked s) (uid provider remoteId now : String) :
    ((∃ row, (s.linkBook uid provider remoteId now).2 = .ok row) ↔
      trim provider ≠ "" ∧ trim remoteId ≠ "" ∧ s.catalog.hasRecord uid ∧
        ∀ k row, s.links.lookup k = some row → k.2 = trim provider →
          row.remoteId = trim remoteId → k.1 = uid) ∧
      ∀ detail, (s.linkBook uid provider remoteId now).2 ≠ .error (.database detail) := by
  have hclaimed := findBookUidByRemote_any h uid (trim provider) (trim remoteId)
  unfold linkBook
  split_ifs with hprovider hremote howner
  · simp [hprovider]
  · simp [hremote]
  · obtain ⟨k, row, hlookup, hkey, hrow, hne⟩ := hclaimed.mp howner
    refine ⟨iff_of_false (by simp) ?_, by simp⟩
    rintro ⟨-, -, -, hall⟩
    exact hne (hall k row hlookup hkey hrow)
  · have hown : ∀ k row, s.links.lookup k = some row → k.2 = trim provider →
        row.remoteId = trim remoteId → k.1 = uid := by
      intro k row hlookup hkey hrow
      by_contra hne
      exact howner (hclaimed.mpr ⟨k, row, hlookup, hkey, hrow, hne⟩)
    have htaken : s.remoteTaken uid (trim provider) (trim remoteId) = false :=
      remoteTaken_eq_false.mpr fun k row hlookup hkey hrow =>
        Prod.ext (hown k row hlookup hkey hrow) hkey
    unfold Db.upsertLink
    rw [htaken, blank_trim hprovider, blank_trim hremote]
    by_cases hrecord : s.catalog.hasRecord uid
    · simp only [hrecord, not_true_eq_false, if_false, Bool.or_self, Bool.false_eq_true]
      exact ⟨iff_of_true ⟨_, rfl⟩ ⟨hprovider, hremote, trivial, hown⟩, by simp⟩
    · simp [hrecord]

/-- What is saved of a book once a percentage may have been set. -/
def percentSet (columns : ProgressUpdate) : Option ℚ → ProgressUpdate
  | some percent => { columns with progressPercent := some percent }
  | none => columns

section Remote

variable {codec : Codec} {showReal : ℚ → String} {uid now : String} {percent : ℚ}

/-- Saving a percentage keeps the position of the book. -/
lemma savedColumns_savePercent (hok : (s.savePercent codec showReal uid percent now).2 = .ok ()) :
    (s.savePercent codec showReal uid percent now).1.catalog.savedColumns uid =
      percentSet (s.catalog.savedColumns uid) (some percent) := by
  unfold savePercent Catalog.upsertProgress at hok ⊢
  dsimp only at hok ⊢
  split at hok
  · cases hok
  · split at hok
    · cases hok
    · split_ifs at hok with hcheck hrecord
      rw [if_neg (not_not.mpr hcheck), if_pos hrecord, Catalog.savedColumns,
        Catalog.progress_putProgress, AList.lookup_insert, Catalog.savedColumns]
      cases s.catalog.progress.lookup uid <;> rfl

/-- Saving a percentage touches no other book. -/
lemma savedColumns_savePercent_of_ne {other : String} (hne : other ≠ uid) :
    (s.savePercent codec showReal uid percent now).1.catalog.savedColumns other =
      s.catalog.savedColumns other := by
  unfold savePercent Catalog.upsertProgress
  dsimp only
  split
  · rfl
  · split
    · rfl
    · split_ifs
      · dsimp only
        rw [Catalog.savedColumns, Catalog.progress_putProgress, AList.lookup_insert_ne hne]
        rfl
      · rfl
      · rfl

/-- What an update from the provider leaves as it is, for one link. -/
structure SameElsewhere (uid provider : String) (s s' : Db) : Prop where
  pending : s'.pending = s.pending
  editions : s'.editions = s.editions
  links : ∀ k, k ≠ (uid, provider) → s'.links.lookup k = s.links.lookup k
  saved : ∀ other, other ≠ uid → s'.catalog.savedColumns other = s.catalog.savedColumns other

variable (codec showReal) in
lemma saveRemotePercent_same (s : Db) (uid : String) (percent : Option ℚ) (now : String) :
    (s.saveRemotePercent codec showReal uid percent now).1.links = s.links ∧
      ∀ provider, SameElsewhere uid provider s
        (s.saveRemotePercent codec showReal uid percent now).1 := by
  unfold saveRemotePercent
  split
  · exact ⟨rfl, fun _ => ⟨rfl, rfl, fun _ _ => rfl, fun _ _ => rfl⟩⟩
  · split
    · exact ⟨rfl, fun _ => ⟨rfl, rfl, fun _ _ => rfl,
        fun other hne => savedColumns_savePercent_of_ne hne⟩⟩
    · exact ⟨rfl, fun _ => ⟨rfl, rfl, fun _ _ => rfl, fun _ _ => rfl⟩⟩

variable (codec showReal uid now) in
lemma savedColumns_saveRemotePercent (percent : Option ℚ)
    (hok : (s.saveRemotePercent codec showReal uid percent now).2 = .ok ()) :
    (s.saveRemotePercent codec showReal uid percent now).1.catalog.savedColumns uid =
      percentSet (s.catalog.savedColumns uid) percent := by
  unfold saveRemotePercent at hok ⊢
  split at hok
  · rfl
  · split_ifs at hok with hrecord
    rw [if_pos hrecord]
    exact savedColumns_savePercent hok

variable (now) in
lemma cacheStatus_spec {provider : String} (status : Option ProviderReadingStatus) {old : LinkRow}
    (hold : s.links.lookup (uid, provider) = some old) :
    SameElsewhere uid provider s (s.cacheStatus uid provider status old now).1 ∧
      (s.cacheStatus uid provider status old now).1.catalog = s.catalog ∧
      ∀ link, (s.cacheStatus uid provider status old now).2 = .ok link →
        (s.cacheStatus uid provider status old now).1.links.lookup (uid, provider) = some link ∧
          link.remoteId = old.remoteId ∧ link.status = status.or old.status := by
  cases status with
  | none =>
    refine ⟨⟨rfl, rfl, fun _ _ => rfl, fun _ _ => rfl⟩, rfl, fun link hlink => ?_⟩
    obtain rfl := Except.ok.inj hlink
    exact ⟨hold, rfl, rfl⟩
  | some status =>
    simp only [cacheStatus, updateStatus, hold]
    refine ⟨⟨rfl, rfl, fun k hk => AList.lookup_insert_ne hk, fun _ _ => rfl⟩, trivial,
      fun link hlink => ?_⟩
    obtain rfl := Except.ok.inj hlink
    exact ⟨AList.lookup_insert _, rfl, rfl⟩

end Remote

end Db

end Lifecycle

end TuxBooks
