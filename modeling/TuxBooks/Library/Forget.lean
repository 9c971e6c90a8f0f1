import TuxBooks.Catalog.Rows
import TuxBooks.Library.Lifecycle

set_option relaxedAutoImplicit false
set_option autoImplicit false

/-!
# The commands of the trash

The routines of `sidecar/src/repository/lifecycle/`: each request is one statement that commits by
itself, or one whole transaction. Alone, a command reads a snapshot as if at one moment, unlinks all
providers, and recomputes the metadata as `TuxBooks.Catalog.recomputeEffective` does.

## Main definitions

* `TuxBooks.Lifecycle.Req`, `TuxBooks.Lifecycle.exec` — the requests.
* `TuxBooks.Lifecycle.forget`, `TuxBooks.Lifecycle.restore`, `TuxBooks.Lifecycle.reset` — the
  commands.

## Main results

* `TuxBooks.Lifecycle.run_loadSnapshot`, `TuxBooks.Lifecycle.run_recomputeEffective` — what the
  parts of a command do alone.
-/

namespace TuxBooks

namespace Lifecycle

/-! ## Requests -/

/-- What a command asks the database. -/
inductive Req where
  | bookRow (uid : String)
  | progress (uid : String)
  | annotations (uid : String)
  | collections (uid : String)
  | overrides (uid : String)
  | names (list : BookList) (uid : String)
  | providers (uid : String)
  | aliases (uid : String)
  | unlink (uid provider : String)
  | retire (snapshot : BookSnapshot)
  | openTrash (id : ℤ)
  | hasRecord (uid : String)
  | annotationCount (uid : String)
  | replace (snapshot : BookSnapshot) (replacement : Option String)
  | merge (snapshot : BookSnapshot) (uid : String) (oldIsNewer : Bool)
  | markRestored (id : ℤ) (resolution : Resolution)
  | clear (uid : String)
  | primaryFile (uid : String)
  | source (file : ℤ)
  | deleteList (list : BookList) (uid : String)
  | insertName (list : BookList) (uid name : String)
  | ensureSeries (name : String)
  | applyEffective (uid : String) (values : EffectiveValues)
  | sweepOrphans
  | fail (err : AppError)

abbrev Ans : Req → Type
  | .bookRow _ => Option BookRowSnapshot
  | .progress _ => Option ProgressRow
  | .annotations _ => List AnnotationSnapshot
  | .collections _ => List CollectionSnapshot
  | .overrides _ => Option OverrideRow
  | .names _ _ | .aliases _ => List String
  | .providers _ => List ProviderSnapshot
  | .retire _ => Db.Retired
  | .openTrash _ => Option TrashEntry
  | .hasRecord _ => Bool
  | .annotationCount _ => ℕ
  | .primaryFile _ => Option ℤ
  | .source _ => SourceMetadata
  | .fail _ => Empty
  | _ => Unit

/-- A transaction takes effect as a whole or not at all. -/
def transaction {α : Type} (s : Db) (r : Except AppError (Db × α)) : Db × Except AppError α :=
  match r with
  | .ok (s, a) => (s, .ok a)
  | .error err => (s, .error err)

/-- A transaction without an answer. -/
def transact (s : Db) (r : Except AppError Db) : Db × Except AppError Unit :=
  transaction s (r.map (·, ()))

/-- One request. -/
def exec (codec : Codec) (drawn : Drawn) : (q : Req) → Db → Db × Except AppError (Ans q)
  | .bookRow uid, s => (s, .ok (s.bookRow uid))
  | .progress uid, s => (s, .ok (s.catalog.progress.lookup uid))
  | .annotations uid, s => (s, .ok (s.annotationRows uid))
  | .collections uid, s => (s, .ok (s.collectionRows uid))
  | .overrides uid, s => (s, .ok (s.catalog.overrides.lookup uid))
  | .names list uid, s => (s, .ok (s.catalog.listNames list uid))
  | .providers uid, s => (s, .ok (s.providerRows uid))
  | .aliases uid, s => (s, .ok (s.aliasRows uid))
  | .unlink uid provider, s => (s.deleteLink uid provider, .ok ())
  | .retire snapshot, s => transaction s (s.retire codec snapshot drawn)
  | .openTrash id, s => (s, .ok (s.openTrash id drawn.now))
  | .hasRecord uid, s => (s, .ok (s.catalog.hasRecord uid))
  | .annotationCount uid, s => (s, .ok (s.annotationRows uid).length)
  | .replace snapshot replacement, s => transact s (s.replaceBook codec snapshot replacement)
  | .merge snapshot uid oldIsNewer, s => transact s (s.mergeBook codec snapshot uid oldIsNewer)
  | .markRestored id resolution, s => (s.markRestored codec id drawn.now resolution, .ok ())
  | .clear uid, s => (s.clearState codec uid, .ok ())
  | .primaryFile uid, s => (s, .ok ((s.catalog.primaryFile uid).map (·.1)))
  | .source file, s => (s, .ok (((s.catalog.files.lookup file).map (·.loadSource)).getD {}))
  | .deleteList list uid, s =>
    ({ s with catalog := s.catalog.deleteList codec.real list uid }, .ok ())
  | .insertName list uid name, s =>
    ({ s with catalog := (Catalog.insertName codec.real list uid s.catalog name).1 },
      (Catalog.insertName codec.real list uid s.catalog name).2)
  | .ensureSeries name, s => ({ s with series := s.series.insert name }, .ok ())
  | .applyEffective uid values, s =>
    ({ s with catalog := s.catalog.applyEffective uid values }, .ok ())
  | .sweepOrphans, s => (s.sweepOrphans, .ok ())
  | .fail err, s => (s, .error err)

/-- A command with its answer. -/
abbrev Cmd (α : Type) : Type := Routine Ans α

def ask (q : Req) : Cmd (Ans q) := Routine.request q

/-- Return an error. -/
def stop {α : Type} (err : AppError) : Cmd α := Routine.ask (.fail err) fun e => e.elim

/-! ## Metadata -/

/-- `INSERT INTO book_authors` or `book_subjects` for each name. -/
def insertNames (list : BookList) (uid : String) : List String → Cmd Unit
  | [] => pure ()
  | name :: names => do
    ask (.insertName list uid name)
    insertNames list uid names

/-- `replace_book_authors` and `replace_book_subjects`. -/
def replaceNames (list : BookList) (uid : String) (names : List String) : Cmd Unit := do
  ask (.deleteList list uid)
  insertNames list uid names

/-- The authors that the effective view shows. -/
def followAuthors (uid : String) (overrides : OverrideRow) (source : SourceMetadata) :
    Cmd (List String) :=
  if overrides.authorsCustomized then ask (.names .authors uid)
  else do
    replaceNames .authors uid source.authors
    pure source.authors

def followSubjects (uid : String) (overrides : OverrideRow) (source : SourceMetadata) : Cmd Unit :=
  if overrides.subjectsCustomized then pure () else replaceNames .subjects uid source.subjects

def ensureSeries : Option String → Cmd Unit
  | some name => ask (.ensureSeries name)
  | none => pure ()

/-- The effective values of a book whose title was cleaned. -/
def effectiveOf (title : String) (authors : List String) (overrides : OverrideRow)
    (source : SourceMetadata) : EffectiveValues :=
  let series := effectiveSeries overrides source
  { title := some title
    subtitle := scalarValue overrides.subtitle source.subtitle
    author := displayAuthors authors
    publisher := scalarValue overrides.publisher source.publisher
    language := scalarValue overrides.language source.language
    isbn := scalarValue overrides.isbn source.isbn
    description := scalarValue overrides.description source.description
    publicationDate := scalarValue overrides.publicationDate source.publicationDate
    series := series.1
    seriesIndex := series.2
    coverPath := overrides.coverPath.or source.coverPath }

def recomputeEffective (uid : String) (file : ℤ) : Cmd Unit := do
  let source : SourceMetadata ← ask (.source file)
  let row : Option OverrideRow ← ask (.overrides uid)
  let overrides := row.getD {}
  let authors ← followAuthors uid overrides source
  followSubjects uid overrides source
  match cleanRequired (rawTitle overrides source) "title" with
  | .error err => stop err
  | .ok title => do
    ensureSeries (effectiveSeries overrides source).1
    ask (.applyEffective uid (effectiveOf title authors overrides source))

/-- Recompute from the primary file, when the book has a file. -/
def refresh (uid : String) : Cmd Unit := do
  let file : Option ℤ ← ask (.primaryFile uid)
  match file with
  | some file => recomputeEffective uid file
  | none => pure ()

/-! ## Forget and Reset -/

def loadSnapshot (uid : String) : Cmd (Option BookSnapshot) := do
  let book : Option BookRowSnapshot ← ask (.bookRow uid)
  match book with
  | none => pure none
  | some book => do
    let progress : Option ProgressRow ← ask (.progress uid)
    let annotations : List AnnotationSnapshot ← ask (.annotations uid)
    let collections : List CollectionSnapshot ← ask (.collections uid)
    let overrides : Option OverrideRow ← ask (.overrides uid)
    let authors : List String ← ask (.names .authors uid)
    let subjects : List String ← ask (.names .subjects uid)
    let providers : List ProviderSnapshot ← ask (.providers uid)
    let aliases : List String ← ask (.aliases uid)
    pure (some ⟨book, progress, annotations, collections, overrides, authors, subjects, providers,
      aliases⟩)

/-- `unlink_book` for each link of the snapshot. -/
def unlinkAll (uid : String) : List ProviderSnapshot → Cmd Unit
  | [] => pure ()
  | link :: links => do
    ask (.unlink uid link.provider)
    unlinkAll uid links

/-- The record of the fresh identity is read, and its metadata starts from the file. -/
def refreshFresh : Option String → Cmd Unit
  | some fresh => do
    let _ ← ask (.hasRecord fresh)
    refresh fresh
  | none => pure ()

/-- Forget one book. -/
def forget (uid : String) : Cmd Db.Retired := do
  match ← loadSnapshot uid with
  | none => stop .notFound
  | some snapshot => do
    unlinkAll uid snapshot.providers
    let retired : Db.Retired ← ask (.retire snapshot)
    refreshFresh retired.replacement
    pure retired

/-- Clear the user-owned state while keeping the durable identity. -/
def reset (uid : String) : Cmd Unit := do
  let found : Bool ← ask (.hasRecord uid)
  if found then do
    let file : Option ℤ ← ask (.primaryFile uid)
    ask (.clear uid)
    match file with
    | some file => recomputeEffective uid file
    | none => pure ()
    ask .sweepOrphans
  else stop .notFound

/-! ## Restore -/

inductive RestoreMode where
  | replace
  | keep
  | merge
  deriving DecidableEq, Repr

inductive RestoreStatus where
  | restored
  | conflict
  | kept
  | notFound
  deriving DecidableEq, Repr

structure RestoreConflict where
  progressPercent : Option ℚ
  annotationCount : ℕ
  deriving DecidableEq

structure RestoreOutcome where
  status : RestoreStatus
  bookUid : Option String := none
  conflict : Option RestoreConflict := none
  deriving DecidableEq

def restoreReplace (snapshot : BookSnapshot) (replacement : Option String) : Cmd Unit := do
  ask (.replace snapshot replacement)
  refresh snapshot.book.uid

/-- Newer wins. With no fresh row, the old row is the only state there is. -/
def oldIsNewer (old fresh : Option ProgressRow) : Bool :=
  match old, fresh with
  | some old, some fresh => decide (old.updatedAt > fresh.updatedAt)
  | some _, none => true
  | none, _ => false

/-- Merge a snapshot into the identity that replaced the forgotten book. -/
def mergeInto (snapshot : BookSnapshot) (uid : String) : Cmd Unit := do
  let found : Bool ← ask (.hasRecord uid)
  if found then do
    let file : Option ℤ ← ask (.primaryFile uid)
    let fresh : Option ProgressRow ← ask (.progress uid)
    ask (.merge snapshot uid (oldIsNewer snapshot.progress fresh))
    match file with
    | some file => recomputeEffective uid file
    | none => pure ()
  else stop (.database "no rows returned")

/-- The progress and the annotations that the fresh identity has gained. -/
def restoreConflict (uid : String) : Cmd (Option RestoreConflict) := do
  let progress : Option ProgressRow ← ask (.progress uid)
  let count : ℕ ← ask (.annotationCount uid)
  let percent := progress.bind (·.progressPercent)
  pure (if percent.isNone && count == 0 then none else some ⟨percent, count⟩)

/-- The identity that Forget left in the library, if it is still there. -/
def findReplacement : Option String → Cmd (Option String)
  | some uid => do
    let found : Bool ← ask (.hasRecord uid)
    pure (if found then some uid else none)
  | none => pure none

/-- Put the old record back. -/
def restoreOld (id : ℤ) (snapshot : BookSnapshot) (replacement : Option String) :
    Cmd RestoreOutcome := do
  let _ ← ask (.hasRecord snapshot.book.uid)
  restoreReplace snapshot replacement
  ask (.markRestored id .restore)
  pure { status := .restored, bookUid := some snapshot.book.uid }

/-- Close the trash entry and name the book that stays. -/
def discard (id : ℤ) (uid : String) (status : RestoreStatus) : Cmd RestoreOutcome := do
  ask (.markRestored id .discard)
  let found : Bool ← ask (.hasRecord uid)
  pure { status, bookUid := if found then some uid else none }

/-- Restore a forgotten book. -/
def restore (id : ℤ) (mode : Option RestoreMode) : Cmd RestoreOutcome := do
  let row : Option TrashEntry ← ask (.openTrash id)
  match row with
  | none => pure { status := .notFound }
  | some row => do
    match ← findReplacement row.replacement with
    | none => restoreOld id row.snapshot none
    | some fresh => do
      let conflict ← restoreConflict fresh
      match mode with
      | none =>
        if conflict.isSome then
          pure { status := .conflict, bookUid := row.replacement, conflict }
        else restoreOld id row.snapshot (some fresh)
      | some .replace => restoreOld id row.snapshot (some fresh)
      | some .keep => discard id fresh .kept
      | some .merge => do
        mergeInto row.snapshot fresh
        discard id fresh .restored

/-! ## A command alone -/

/-- All that a snapshot holds, read at one moment. -/
def Db.snapshot (s : Db) (uid : String) : Option BookSnapshot :=
  (s.bookRow uid).map fun book =>
    { book := book
      progress := s.catalog.progress.lookup uid
      annotations := s.annotationRows uid
      collections := s.collectionRows uid
      overrides := s.catalog.overrides.lookup uid
      authors := s.catalog.listNames .authors uid
      subjects := s.catalog.listNames .subjects uid
      providers := s.providerRows uid
      aliases := s.aliasRows uid }

/-- A computation on the catalog. -/
def Db.lift {α : Type} (s : Db) (r : Catalog × Except AppError α) : Db × Except AppError α :=
  ({ s with catalog := r.1 }, r.2)

/-- The links of a list go, with their queued page turns. -/
def Db.unlinked (s : Db) (uid : String) (links : List ProviderSnapshot) : Db :=
  links.foldl (fun s link => s.deleteLink uid link.provider) s

section Alone

variable (codec : Codec) (drawn : Drawn)

/-- `recompute_effective`: the series row of the effective series is there afterwards. -/
def Db.recompute (s : Db) (uid : String) (source : SourceMetadata) : Db × Except AppError Unit :=
  let r := s.catalog.recomputeEffective codec.real uid source
  let name := (effectiveSeries ((s.catalog.overrides.lookup uid).getD {}) source).1
  ({ s with
      catalog := r.1
      series := if r.2.isOk then name.elim s.series s.series.insert else s.series }, r.2)

def Db.refreshed (s : Db) (uid : String) : Db × Except AppError Unit :=
  match s.catalog.primaryFile uid with
  | some (_, file) => s.recompute codec uid file.loadSource
  | none => (s, .ok ())

/-- Run a command with no other beside it. -/
def runAlone {α : Type} (r : Cmd α) (s : Db) : Db × Except AppError α :=
  r.run (exec codec) drawn s

lemma runAlone_ask (q : Req) (s : Db) : runAlone codec drawn (ask q) s = exec codec drawn q s :=
  Routine.run_request (exec codec) drawn q s

lemma runAlone_bind {α β : Type} (r : Cmd α) (f : α → Cmd β) (s : Db) :
    runAlone codec drawn (r >>= f) s =
      Fallible.andThen (runAlone codec drawn r s) fun s a => runAlone codec drawn (f a) s :=
  Routine.run_bind (exec codec) drawn r f s

/-- **Alone, the statements of `load_snapshot` read one moment.** -/
theorem run_loadSnapshot (uid : String) (s : Db) :
    runAlone codec drawn (loadSnapshot uid) s = (s, .ok (s.snapshot uid)) := by
  rw [loadSnapshot, runAlone_bind, runAlone_ask, exec, Fallible.andThen_ok, Db.snapshot]
  cases s.bookRow uid <;> rfl

/-! ### Metadata -/

lemma run_insertNames (list : BookList) (uid : String) (names : List String) (s : Db) :
    runAlone codec drawn (insertNames list uid names) s =
      s.lift (Fallible.each (Catalog.insertName codec.real list uid) s.catalog names) := by
  induction names generalizing s with
  | nil => rfl
  | cons name names ih =>
    rw [insertNames, runAlone_bind, runAlone_ask, exec, Fallible.each_cons]
    rcases Catalog.insertName codec.real list uid s.catalog name with ⟨c, err | a⟩
    · rfl
    · exact ih { s with catalog := c }

lemma run_replaceNames (list : BookList) (uid : String) (names : List String) (s : Db) :
    runAlone codec drawn (replaceNames list uid names) s =
      s.lift (s.catalog.replaceList codec.real list uid names) := by
  rw [replaceNames, runAlone_bind, runAlone_ask, exec, Fallible.andThen_ok, run_insertNames]
  rfl

lemma run_followSubjects (uid : String) (o : OverrideRow) (source : SourceMetadata) (s : Db) :
    runAlone codec drawn (followSubjects uid o source) s =
      s.lift (s.catalog.followSource codec.real .subjects uid o source) := by
  rw [followSubjects, Catalog.followSource, OverrideRow.customized]
  split
  · rfl
  · exact run_replaceNames codec drawn .subjects uid source.subjects s

/-- The authors that the effective view shows. -/
def shownAuthors (c : Catalog) (uid : String) (o : OverrideRow) (source : SourceMetadata) :
    List String :=
  if o.authorsCustomized then c.listNames .authors uid else source.authors

lemma run_followAuthors (uid : String) (o : OverrideRow) (source : SourceMetadata) (s : Db) :
    runAlone codec drawn (followAuthors uid o source) s =
      Fallible.andThen (s.lift (s.catalog.followSource codec.real .authors uid o source))
        fun s _ => (s, .ok (shownAuthors s.catalog uid o source)) := by
  unfold followAuthors Catalog.followSource OverrideRow.customized shownAuthors
  cases o.authorsCustomized with
  | true => exact runAlone_ask codec drawn (.names .authors uid) s
  | false =>
    rw [if_neg Bool.false_ne_true, runAlone_bind, run_replaceNames]
    rfl

lemma listOf_replaceList_other (c : Catalog) (list : BookList) (uid : String)
    (names : List String) {other : BookList} (h : other ≠ list) :
    (c.replaceList codec.real list uid names).1.listOf other uid = c.listOf other uid := by
  have hne : (other, uid) ≠ (list, uid) := fun heq => h (congrArg Prod.fst heq)
  refine Fallible.each_inv (P := fun c' : Catalog => c'.listOf other uid = c.listOf other uid)
    (fun c' name hc' => ?_) names _ ?_
  · unfold Catalog.insertName
    split_ifs
    · exact hc'
    · rw [← hc', Catalog.listOf, Catalog.bookLists_markList]
      dsimp only
      rw [Table.lookup_insert', if_neg hne]
      rfl
    · exact hc'
  · rw [Catalog.listOf, Catalog.bookLists_deleteList, Table.lookup_erase', if_neg hne]
    rfl

lemma shownAuthors_followSource (c : Catalog) (uid : String) (o : OverrideRow)
    (source : SourceMetadata) :
    shownAuthors (c.followSource codec.real .subjects uid o source).1 uid o source =
      shownAuthors c uid o source := by
  unfold shownAuthors Catalog.followSource
  split
  · split
    · rfl
    · exact listOf_replaceList_other codec c .subjects uid _ (by decide)
  · rfl

/-- **Alone, the statements of `recompute_effective` compute the effective metadata.** -/
theorem run_recomputeEffective (uid : String) (file : ℤ) (s : Db) :
    runAlone codec drawn (recomputeEffective uid file) s =
      s.recompute codec uid (((s.catalog.files.lookup file).map (·.loadSource)).getD {}) := by
  rw [recomputeEffective, runAlone_bind, runAlone_ask, exec, Fallible.andThen_ok]
  generalize ((s.catalog.files.lookup file).map (·.loadSource)).getD {} = source
  rw [runAlone_bind, runAlone_ask, exec, Fallible.andThen_ok, Db.recompute,
    Catalog.recomputeEffective]
  generalize (s.catalog.overrides.lookup uid).getD {} = o
  dsimp only
  rw [runAlone_bind, run_followAuthors, Db.lift]
  rcases s.catalog.followSource codec.real .authors uid o source with ⟨c, err | _⟩
  · rfl
  · dsimp only [Fallible.andThen_ok]
    rw [runAlone_bind, run_followSubjects, Db.lift]
    have hshown := shownAuthors_followSource codec c uid o source
    obtain ⟨c', r, hfollow⟩ : ∃ c' r, c.followSource codec.real .subjects uid o source = (c', r) :=
      ⟨_, _, rfl⟩
    rw [hfollow] at hshown
    simp only [hfollow]
    rcases r with err | _
    · rfl
    · dsimp only [Fallible.andThen_ok]
      rw [← hshown]
      cases cleanRequired (rawTitle o source) "title" with
      | error err => rfl
      | ok title =>
        cases hname : (effectiveSeries o source).1 <;> rfl

end Alone

end Lifecycle

end TuxBooks
