import TuxBooks.Catalog.Covers
import TuxBooks.Library.Forget

set_option relaxedAutoImplicit false
set_option autoImplicit false

/-!
# The covers that the trash names

A snapshot in the trash names the cover that the book showed and the one that the user chose. The
commands of the trash move these names between the catalog and the trash, and make up none: what a
request writes was named before, or is in the snapshot that it carries.

## Main definitions

* `TuxBooks.Lifecycle.Db.coverNames` — the covers that the catalog and the snapshots name which can
  be restored at some time.
* `TuxBooks.Lifecycle.named`, `TuxBooks.Lifecycle.learned` — the covers that a request carries, and
  those that its answer shows.

## Main results

* `TuxBooks.Lifecycle.coversIn_exec`, `TuxBooks.Lifecycle.learned_exec` — one request.
* `TuxBooks.Lifecycle.obeys_forget`, `TuxBooks.Lifecycle.obeys_restore` — the commands carry only
  what they have been shown.
-/

namespace TuxBooks

open Fallible

namespace Lifecycle

/-- The effective cover and the override of a snapshot. -/
def BookSnapshot.coverNames (snapshot : BookSnapshot) : List String :=
  snapshot.book.values.coverPath.toList ++ (snapshot.overrides.bind (·.coverPath)).toList

/-- A snapshot can be restored at a time. -/
def TrashEntry.restorable (row : TrashEntry) (now : String) : Bool :=
  row.restoredAt.isNone && decide (row.expiresAt > now)

namespace Db

/-- The covers that snapshots name which can be restored. -/
def trashNames (s : Db) (now : String) : List String :=
  (s.bookTrash.entries.filter (·.2.restorable now)).flatMap (·.2.snapshot.coverNames)

def coverNames (s : Db) (now : String) : List String := s.catalog.coverNames ++ s.trashNames now

/-- Every cover that the database names at a time is in a set. -/
structure CoversIn (S : String → Prop) (now : String) (s : Db) : Prop where
  catalog : s.catalog.CoversIn S
  trash : ∀ id row, s.bookTrash.lookup id = some row → row.restorable now = true →
    ∀ name ∈ row.snapshot.coverNames, S name

variable {S : String → Prop} {now : String} {s s' : Db} {codec : Codec}

lemma coversIn_iff : CoversIn S now s ↔ ∀ name ∈ s.coverNames now, S name := by
  unfold coverNames trashNames
  rw [List.forall_mem_append, ← Catalog.coversIn_iff]
  constructor
  · intro h
    refine ⟨h.catalog, fun name hname => ?_⟩
    obtain ⟨⟨id, row⟩, hrow, hname⟩ := List.mem_flatMap.mp hname
    obtain ⟨hrow, hrestorable⟩ := List.mem_filter.mp hrow
    exact h.trash id row (Table.lookup_eq_some_iff.mpr hrow) hrestorable name hname
  · rintro ⟨hcatalog, htrash⟩
    refine ⟨hcatalog, fun id row hrow hrestorable name hname => htrash name ?_⟩
    refine List.mem_flatMap.mpr ⟨⟨id, row⟩, List.mem_filter.mpr ⟨?_, hrestorable⟩, hname⟩
    exact Table.lookup_eq_some_iff.mp hrow

namespace CoversIn

/-- The trash stays. -/
lemma of_catalog (h : CoversIn S now s) (hcatalog : s'.catalog.CoversIn S)
    (htrash : s'.bookTrash = s.bookTrash) : CoversIn S now s' where
  catalog := hcatalog
  trash := by
    rw [htrash]
    exact h.trash

/-- What a later time leaves to restore could be restored before. -/
lemma later (h : CoversIn S now s) {now' : String} (hnow : now ≤ now') : CoversIn S now' s where
  catalog := h.catalog
  trash id row hrow hrestorable := by
    refine h.trash id row hrow ?_
    unfold TrashEntry.restorable at hrestorable ⊢
    rw [Bool.and_eq_true, decide_eq_true_iff] at hrestorable ⊢
    exact ⟨hrestorable.1, lt_of_le_of_lt hnow hrestorable.2⟩

/-! ## Transactions -/

lemma insertRecord (h : CoversIn S now s) {uid : String} {r : RecordRow}
    (hr : ∀ name ∈ r.values.coverPath, S name) (hok : s.insertRecord uid r = .ok s') :
    CoversIn S now s' := by
  unfold Db.insertRecord at hok
  split_ifs at hok
  obtain rfl := Except.ok.inj hok
  exact h.of_catalog (h.catalog.putRecord uid hr) rfl

lemma rebindFiles (h : CoversIn S now s) {snapshot : BookSnapshot} {drawn : Drawn}
    (hnames : ∀ name ∈ snapshot.coverNames, S name) (hok : s.rebindFiles snapshot drawn = .ok s') :
    CoversIn S now s' := by
  unfold Db.rebindFiles at hok
  obtain ⟨s₁, hinsert, hok⟩ := bind_eq_ok hok
  obtain rfl := Except.ok.inj hok
  have hrecord := h.insertRecord (fun name hname => hnames name
    (List.mem_append_left _ (Option.mem_toList.mpr hname))) hinsert
  exact hrecord.of_catalog (hrecord.catalog.moveFiles snapshot.book.uid drawn.fresh) rfl

lemma insertTrash (h : CoversIn S now s) {row : TrashEntry}
    (hrow : ∀ name ∈ row.snapshot.coverNames, S name) {id : ℤ}
    (hok : s.insertTrash codec row = .ok (s', id)) : CoversIn S now s' := by
  unfold Db.insertTrash at hok
  split_ifs at hok
  obtain ⟨rfl, -⟩ := Prod.mk.inj (Except.ok.inj hok)
  refine ⟨h.catalog.mark _ _, fun id' row' hlookup hrestorable => ?_⟩
  dsimp only at hlookup
  rw [Table.lookup_insert'] at hlookup
  split_ifs at hlookup
  · exact Option.some.inj hlookup ▸ hrow
  · exact h.trash id' row' hlookup hrestorable

lemma deleteRecord (h : CoversIn S now s) (uid : String) : CoversIn S now (s.deleteRecord uid) :=
  h.of_catalog (h.catalog.deleteRecord uid) rfl

lemma handOver (h : CoversIn S now s) {snapshot : BookSnapshot} {drawn : Drawn}
    (hnames : ∀ name ∈ snapshot.coverNames, S name) (hok : s.handOver snapshot drawn = .ok s') :
    CoversIn S now s' := by
  unfold Db.handOver at hok
  split at hok
  · exact h.rebindFiles hnames hok
  · obtain rfl := Except.ok.inj hok
    exact h.of_catalog h.catalog rfl

/-- **Forget puts the names of the snapshot into the trash.** -/
theorem retire (h : CoversIn S now s) {snapshot : BookSnapshot} {drawn : Drawn}
    (hnames : ∀ name ∈ snapshot.coverNames, S name) {retired : Retired}
    (hok : s.retire codec snapshot drawn = .ok (s', retired)) : CoversIn S now s' := by
  unfold Db.retire at hok
  dsimp only at hok
  split_ifs at hok
  obtain ⟨s₁, hhand, hok⟩ := bind_eq_ok hok
  obtain ⟨⟨s₂, id⟩, htrash, hok⟩ := bind_eq_ok hok
  obtain ⟨rfl, -⟩ := Prod.mk.inj (Except.ok.inj hok)
  have htrashed : CoversIn S now s₂ := (h.handOver hnames hhand).insertTrash hnames htrash
  exact htrashed.deleteRecord snapshot.book.uid

lemma dropFresh (h : CoversIn S now s) (fresh old : String) :
    CoversIn S now (s.dropFresh fresh old) := by
  unfold Db.dropFresh
  split
  · have hmoved : CoversIn S now ((s.moveFiles fresh old).deleteAliases fresh) :=
      h.of_catalog (h.catalog.moveFiles fresh old) rfl
    exact hmoved.deleteRecord fresh
  · exact h

lemma restoreProgress (h : CoversIn S now s) {uid : String} {progress : Option ProgressRow}
    (hok : s.restoreProgress codec uid progress = .ok s') : CoversIn S now s' := by
  unfold Db.restoreProgress at hok
  split at hok
  · unfold Db.insertProgress at hok
    split_ifs at hok
    obtain rfl := Except.ok.inj hok
    exact h.of_catalog (h.catalog.putProgress codec.real _ _) rfl
  · exact Except.ok.inj hok ▸ h

lemma putNote (h : CoversIn S now s) (uid : String) (a : AnnotationSnapshot) :
    CoversIn S now (s.putAnnotation codec uid a) := by
  have hseq : { s.catalog with annotationSeq := s.catalog.annotationSeq + 1 }.CoversIn S :=
    h.catalog.of_plain rfl rfl rfl rfl
  exact h.of_catalog (hseq.putNote codec.real _ _) rfl

variable (codec) in
lemma insertOrIgnoreNote (h : CoversIn S now s) (uid : String) (a : AnnotationSnapshot) :
    CoversIn S now (s.insertOrIgnoreAnnotation codec uid a) := by
  unfold Db.insertOrIgnoreAnnotation
  split
  · exact h
  · exact h.putNote uid a

lemma insertMembership (h : CoversIn S now s) (uid : String) (membership : CollectionSnapshot) :
    CoversIn S now (s.insertMembership uid membership) := by
  unfold Db.insertMembership
  split
  · exact h
  · exact h.of_catalog (h.catalog.putMembership _ _ _) rfl

lemma insertLink (h : CoversIn S now s) (uid : String) (link : ProviderSnapshot) :
    CoversIn S now (s.insertLink uid link) := by
  unfold Db.insertLink
  split
  · exact h
  · exact h.of_catalog h.catalog rfl

lemma foldl {α : Type} {f : Db → α → Db} (hf : ∀ s a, CoversIn S now s → CoversIn S now (f s a))
    (h : CoversIn S now s) (as : List α) : CoversIn S now (as.foldl f s) := by
  induction as generalizing s with
  | nil => exact h
  | cons a as ih => exact ih (hf s a h)

variable (codec) in
lemma putOverrides (h : CoversIn S now s) (uid : String) {r : Option OverrideRow}
    (hr : ∀ name ∈ r.bind (·.coverPath), S name) :
    CoversIn S now (s.putOverrides codec uid r) := by
  unfold Db.putOverrides
  split
  · exact h.of_catalog (h.catalog.upsertOverrides codec.real uid hr) rfl
  · exact h

lemma replaceList (h : CoversIn S now s) {list : BookList} {uid : String} {names : List String}
    (hok : s.replaceList codec list uid names = .ok s') : CoversIn S now s' := by
  unfold Db.replaceList at hok
  cases hresult : (s.catalog.replaceList codec.real list uid names).2 with
  | error err =>
    rw [hresult] at hok
    cases hok
  | ok _ =>
    rw [hresult] at hok
    obtain rfl := Except.ok.inj hok
    have hnames := each_inv (P := Catalog.CoversIn S)
      (fun _ name h => h.insertName codec.real list uid name) names _
      (h.catalog.deleteList codec.real list uid)
    exact h.of_catalog hnames rfl

lemma restoreLists (h : CoversIn S now s) {uid : String} {authors subjects : List String}
    (hok : s.restoreLists codec uid authors subjects = .ok s') : CoversIn S now s' := by
  unfold Db.restoreLists at hok
  obtain ⟨s₁, hauthors, hok⟩ := bind_eq_ok hok
  exact (h.replaceList hauthors).replaceList hok

lemma restoreState (h : CoversIn S now s) {uid : String} {snapshot : BookSnapshot}
    (hnames : ∀ name ∈ snapshot.coverNames, S name)
    (hok : s.restoreState codec uid snapshot = .ok s') : CoversIn S now s' := by
  unfold Db.restoreState at hok
  obtain ⟨s₁, hprogress, hok⟩ := bind_eq_ok hok
  obtain ⟨s₂, hlists, hok⟩ := bind_eq_ok hok
  obtain rfl := Except.ok.inj hok
  have hnotes := foldl (fun _ a h => h.insertOrIgnoreNote codec uid a)
    (h.restoreProgress hprogress) snapshot.annotations
  have hmembers := foldl (fun _ m h => h.insertMembership uid m) hnotes snapshot.collections
  have hput := hmembers.putOverrides codec uid fun name hname =>
    hnames name (List.mem_append_right _ (Option.mem_toList.mpr hname))
  exact foldl (fun _ link h => h.insertLink uid link) (hput.restoreLists hlists) snapshot.providers

/-- **Restoring puts the names of the snapshot back.** -/
theorem replaceBook (h : CoversIn S now s) {snapshot : BookSnapshot} {replacement : Option String}
    (hnames : ∀ name ∈ snapshot.coverNames, S name)
    (hok : s.replaceBook codec snapshot replacement = .ok s') : CoversIn S now s' := by
  unfold Db.replaceBook at hok
  dsimp only at hok
  obtain ⟨s₁, hinsert, hok⟩ := bind_eq_ok hok
  obtain ⟨s₂, hstate, hok⟩ := bind_eq_ok hok
  obtain rfl := Except.ok.inj hok
  have hdropped : CoversIn S now
      (replacement.elim s fun fresh => s.dropFresh fresh snapshot.book.uid) := by
    cases replacement with
    | none => exact h
    | some fresh => exact h.dropFresh fresh snapshot.book.uid
  have hrecord := (hdropped.deleteRecord snapshot.book.uid).insertRecord (fun name hname =>
    hnames name (List.mem_append_left _ (Option.mem_toList.mpr hname))) hinsert
  have hrestored := hrecord.restoreState hnames hstate
  exact hrestored.of_catalog hrestored.catalog rfl

lemma mergeProgress (h : CoversIn S now s) (uid : String) (progress : Option ProgressRow) :
    CoversIn S now (s.mergeProgress codec uid progress) := by
  unfold Db.mergeProgress
  split
  · exact h.of_catalog (h.catalog.putProgress codec.real uid _) rfl
  · exact h

lemma mergeNotes (h : CoversIn S now s) {uid : String} {notes : List AnnotationSnapshot}
    (hok : s.mergeAnnotations codec uid notes = .ok s') : CoversIn S now s' := by
  unfold Db.mergeAnnotations at hok
  refine foldlM_inv (P := CoversIn S now) (fun s₁ a s₂ h₁ hstep => ?_) h hok
  unfold Db.insertAnnotation at hstep
  split_ifs at hstep
  exact Except.ok.inj hstep ▸ h₁.putNote uid a

lemma mergeOverrides (h : CoversIn S now s) {uid : String} {snapshot : BookSnapshot}
    (hnames : ∀ name ∈ snapshot.coverNames, S name)
    (hok : s.mergeOverrides codec uid snapshot = .ok s') : CoversIn S now s' := by
  unfold Db.mergeOverrides at hok
  split_ifs at hok
  · exact Except.ok.inj hok ▸ h
  · have hput := h.putOverrides codec uid fun name hname =>
      hnames name (List.mem_append_right _ (Option.mem_toList.mpr hname))
    exact hput.restoreLists hok

theorem mergeBook (h : CoversIn S now s) {snapshot : BookSnapshot} {uid : String}
    {oldIsNewer : Bool} (hnames : ∀ name ∈ snapshot.coverNames, S name)
    (hok : s.mergeBook codec snapshot uid oldIsNewer = .ok s') : CoversIn S now s' := by
  unfold Db.mergeBook at hok
  dsimp only at hok
  obtain ⟨s₁, hnotes, hok⟩ := bind_eq_ok hok
  obtain ⟨s₂, hoverrides, hok⟩ := bind_eq_ok hok
  obtain rfl := Except.ok.inj hok
  have hmerged := (h.mergeProgress uid _).mergeNotes hnotes
  have hmembers := foldl (fun _ m h => h.insertMembership uid m) hmerged snapshot.collections
  have hlinks := foldl (fun _ link h => h.insertLink uid link)
    (hmembers.mergeOverrides hnames hoverrides) snapshot.providers
  exact hlinks.of_catalog (hlinks.catalog.refreshRecord uid) rfl

lemma markRestored (h : CoversIn S now s) (id : ℤ) (at_ : String) (resolution : Resolution) :
    CoversIn S now (s.markRestored codec id at_ resolution) := by
  unfold Db.markRestored
  split
  · exact h
  · refine ⟨h.catalog.markWhen _ _ _, fun id' row' hlookup hrestorable => ?_⟩
    dsimp only at hlookup
    rw [Table.lookup_insert'] at hlookup
    split_ifs at hlookup
    · -- a closed entry cannot be restored
      rw [← Option.some.inj hlookup] at hrestorable
      exact absurd hrestorable (by simp [TrashEntry.restorable])
    · exact h.trash id' row' hlookup hrestorable

lemma clearState (h : CoversIn S now s) (uid : String) :
    CoversIn S now (s.clearState codec uid) := by
  have hnotes : (deleteNotes codec (s.catalog.deleteProgress codec.real uid) uid).CoversIn S :=
    (h.catalog.deleteProgress codec.real uid).of_plain
      (Catalog.plain_foldl_deleteAnnotation codec.real _ _ _) rfl rfl rfl
  unfold Db.clearState
  dsimp only
  generalize deleteNotes codec (s.catalog.deleteProgress codec.real uid) uid = c at hnotes ⊢
  have hmembers : (deleteMemberships c uid).CoversIn S :=
    hnotes.of_plain (Catalog.plain_foldl_deleteMembership uid _ _ _) rfl rfl rfl
  have hlists := ((hmembers.clearOverrides uid).deleteList codec.real .authors uid).deleteList
    codec.real .subjects uid
  exact h.of_catalog (hlists.mapRecords fun uid' r => by split <;> rfl) rfl

end CoversIn

end Db

/-! ## Requests -/

/-- The covers that a request carries. -/
def named : Req → List String
  | .retire snapshot | .replace snapshot _ | .merge snapshot _ _ => snapshot.coverNames
  | .applyEffective _ values => values.coverPath.toList
  | _ => []

/-- The covers that an answer shows. -/
def learned : (q : Req) → Ans q → List String
  | .bookRow _, row => (row.bind (·.values.coverPath)).toList
  | .overrides _, row => (row.bind (·.coverPath)).toList
  | .source _, source => source.coverPath.toList
  | .openTrash _, row => (row.map (·.snapshot.coverNames)).getD []
  | _, _ => []

variable {S : String → Prop} {now : String} {s : Db} {codec : Codec} {drawn : Drawn}

lemma coversIn_transaction {α : Type} {r : Except AppError (Db × α)} (h : Db.CoversIn S now s)
    (hr : ∀ s' a, r = .ok (s', a) → Db.CoversIn S now s') :
    Db.CoversIn S now (transaction s r).1 := by
  cases r with
  | error err => exact h
  | ok result => exact hr result.1 result.2 rfl

lemma coversIn_transact {r : Except AppError Db} (h : Db.CoversIn S now s)
    (hr : ∀ s', r = .ok s' → Db.CoversIn S now s') : Db.CoversIn S now (transact s r).1 := by
  cases r with
  | error err => exact h
  | ok s' => exact hr s' rfl

/-- **A request writes names that were there, or that it carries.** -/
theorem coversIn_exec (h : Db.CoversIn S now s) (q : Req) (hq : ∀ name ∈ named q, S name) :
    Db.CoversIn S now (exec codec drawn q s).1 := by
  cases q with
  | unlink uid provider => exact h.of_catalog h.catalog rfl
  | retire snapshot => exact coversIn_transaction h fun s' retired hok => h.retire hq hok
  | replace snapshot replacement => exact coversIn_transact h fun s' hok => h.replaceBook hq hok
  | merge snapshot uid oldIsNewer => exact coversIn_transact h fun s' hok => h.mergeBook hq hok
  | markRestored id resolution => exact h.markRestored id drawn.now resolution
  | clear uid => exact h.clearState uid
  | deleteList list uid => exact h.of_catalog (h.catalog.deleteList codec.real list uid) rfl
  | insertName list uid name =>
    exact h.of_catalog (h.catalog.insertName codec.real list uid name) rfl
  | ensureSeries name => exact h.of_catalog h.catalog rfl
  | applyEffective uid values =>
    exact h.of_catalog (h.catalog.applyEffective uid fun name hname =>
      hq name (Option.mem_toList.mpr hname)) rfl
  | sweepOrphans => exact h.of_catalog h.catalog.sweepOrphans rfl
  | _ => exact h

/-- **An answer shows names that are there.** The time of the request is not earlier. -/
theorem learned_exec (h : Db.CoversIn S now s) (hnow : now ≤ drawn.now) {q : Req} {a : Ans q}
    (hok : (exec codec drawn q s).2 = .ok a) : ∀ name ∈ learned q a, S name := by
  cases q with
  | bookRow uid =>
    obtain rfl := Except.ok.inj hok
    intro name hname
    obtain ⟨row, hrow, hname⟩ := Option.bind_eq_some_iff.mp (Option.mem_toList.mp hname)
    obtain ⟨r, hr, rfl⟩ := Option.map_eq_some_iff.mp hrow
    exact h.catalog.record uid r hr name hname
  | overrides uid =>
    obtain rfl := Except.ok.inj hok
    intro name hname
    obtain ⟨r, hr, hname⟩ := Option.bind_eq_some_iff.mp (Option.mem_toList.mp hname)
    exact h.catalog.override uid r hr name hname
  | source file =>
    obtain rfl := Except.ok.inj hok
    intro name hname
    replace hname := Option.mem_toList.mp hname
    cases hf : s.catalog.files.lookup file with
    | none => simp [hf] at hname
    | some f =>
      rw [hf] at hname
      exact h.catalog.loadSource hf name hname
  | openTrash id =>
    obtain rfl := Except.ok.inj hok
    intro name hname
    cases hrow : s.openTrash id drawn.now with
    | none => simp [learned, hrow] at hname
    | some row =>
      simp only [learned, hrow, Option.map_some, Option.getD_some] at hname
      obtain ⟨hlookup, hopen⟩ := Option.filter_eq_some_iff.mp hrow
      exact (h.later hnow).trash id row hlookup hopen name hname
  | _ => exact fun name hname => absurd hname List.not_mem_nil

/-! ## Commands -/

/-- The covers that the answers so far have shown. -/
def held (log : Routine.Log Ans) : List String := log.flatMap fun e => learned e.1 e.2

/-- A request carries what its call has been shown. -/
def May (log : Routine.Log Ans) (q : Req) : Prop := ∀ name ∈ named q, name ∈ held log

/-- A command that carries only what it has been shown. -/
abbrev Obeys {α : Type} (post : α → Routine.Log Ans → Prop) (r : Cmd α) (log : Routine.Log Ans) :
    Prop := Routine.Obeys May post r log

variable {log log' : Routine.Log Ans}

lemma held_suffix (h : log <:+ log') {name : String} (hname : name ∈ held log) :
    name ∈ held log' := by
  obtain ⟨newer, rfl⟩ := h
  exact List.mem_flatMap.mpr (by
    obtain ⟨e, he, hname⟩ := List.mem_flatMap.mp hname
    exact ⟨e, List.mem_append_right _ he, hname⟩)

/-- A request that carries no cover. -/
lemma obeys_ask {q : Req} (hq : named q = []) :
    Obeys (fun a log => ∀ name ∈ learned q a, name ∈ held log) (ask q) log := by
  refine Routine.obeys_request (fun name hname => absurd (hq ▸ hname) List.not_mem_nil) ?_
  exact fun a name hname => List.mem_append_left _ hname

/-- A request that carries a cover which was shown. -/
lemma obeys_write {q : Req} (hq : ∀ name ∈ named q, name ∈ held log) :
    Obeys (fun _ _ => True) (ask q) log :=
  Routine.obeys_request hq fun _ => trivial

lemma obeys_stop {α : Type} {post : α → Routine.Log Ans → Prop} (err : AppError) :
    Obeys post (stop err) log :=
  ⟨fun _ hname => absurd hname List.not_mem_nil, fun e => e.elim⟩

lemma obeys_insertNames (list : BookList) (uid : String) (names : List String) :
    Obeys (fun _ _ => True) (insertNames list uid names) log := by
  induction names generalizing log with
  | nil => exact trivial
  | cons name names ih => exact (obeys_ask rfl).bind fun _ _ _ _ => ih

lemma obeys_replaceNames (list : BookList) (uid : String) (names : List String) :
    Obeys (fun _ _ => True) (replaceNames list uid names) log :=
  (obeys_ask rfl).bind fun _ _ _ _ => obeys_insertNames list uid names

lemma obeys_followAuthors (uid : String) (overrides : OverrideRow) (source : SourceMetadata) :
    Obeys (fun _ _ => True) (followAuthors uid overrides source) log := by
  unfold followAuthors
  split
  · exact (obeys_ask rfl).mono fun _ _ _ _ => trivial
  · exact (obeys_replaceNames _ _ _).bind fun _ _ _ _ => trivial

lemma obeys_followSubjects (uid : String) (overrides : OverrideRow) (source : SourceMetadata) :
    Obeys (fun _ _ => True) (followSubjects uid overrides source) log := by
  unfold followSubjects
  split
  · exact trivial
  · exact obeys_replaceNames _ _ _

lemma obeys_ensureSeries (name : Option String) :
    Obeys (fun _ _ => True) (ensureSeries name) log := by
  cases name with
  | none => exact trivial
  | some _ => exact obeys_write fun name hname => absurd hname List.not_mem_nil

/-- **Recomputing writes the override or the cover of the source that it has read.** -/
theorem obeys_recomputeEffective (uid : String) (file : ℤ) :
    Obeys (fun _ _ => True) (recomputeEffective uid file) log := by
  unfold recomputeEffective
  refine (obeys_ask rfl).bind fun source log₁ _ hsource => ?_
  refine (obeys_ask rfl).bind fun row log₂ h₂ hrow => ?_
  refine (obeys_followAuthors uid _ source).bind fun authors log₃ h₃ _ => ?_
  refine (obeys_followSubjects uid _ source).bind fun _ log₄ h₄ _ => ?_
  split
  · exact obeys_stop _
  · refine (obeys_ensureSeries _).bind fun _ log₅ h₅ _ => obeys_write fun name hname => ?_
    refine held_suffix ((h₃.trans h₄).trans h₅) ?_
    rcases Option.or_eq_some_iff.mp (Option.mem_toList.mp hname) with hname | ⟨-, hname⟩
    · refine hrow name (Option.mem_toList.mpr ?_)
      cases row with
      | none => cases hname
      | some row => exact hname
    · exact held_suffix h₂ (hsource name (Option.mem_toList.mpr hname))

lemma obeys_refresh (uid : String) : Obeys (fun _ _ => True) (refresh uid) log := by
  refine (obeys_ask rfl).bind fun file _ _ _ => ?_
  cases file with
  | none => exact trivial
  | some file => exact obeys_recomputeEffective uid file

/-- A snapshot names what was shown. -/
lemma obeys_loadSnapshot (uid : String) :
    Obeys (fun snapshot log => ∀ book ∈ snapshot, ∀ name ∈ book.coverNames, name ∈ held log)
      (loadSnapshot uid) log := by
  refine (obeys_ask rfl).bind fun book log₁ _ hbook => ?_
  cases book with
  | none => exact fun book hmem => absurd hmem (by simp)
  | some book =>
    refine (obeys_ask rfl).bind fun _ log₂ h₂ _ => (obeys_ask rfl).bind fun _ log₃ h₃ _ => ?_
    refine (obeys_ask rfl).bind fun _ log₄ h₄ _ => ?_
    refine (obeys_ask rfl).bind fun overrides log₅ h₅ hoverrides => ?_
    refine (obeys_ask rfl).bind fun _ log₆ h₆ _ => (obeys_ask rfl).bind fun _ log₇ h₇ _ => ?_
    refine (obeys_ask rfl).bind fun _ log₈ h₈ _ => (obeys_ask rfl).bind fun _ log₉ h₉ _ => ?_
    refine Routine.obeys_pure fun snapshot hmem name hname => ?_
    obtain rfl := Option.some.inj hmem
    have hlate : log₅ <:+ log₉ := (((h₆.trans h₇).trans h₈).trans h₉)
    have hearly : log₁ <:+ log₅ := ((h₂.trans h₃).trans h₄).trans h₅
    rcases List.mem_append.mp hname with hname | hname
    · exact held_suffix (hearly.trans hlate) (hbook name hname)
    · exact held_suffix hlate (hoverrides name hname)

lemma obeys_unlinkAll (uid : String) (links : List ProviderSnapshot) :
    Obeys (fun _ _ => True) (unlinkAll uid links) log := by
  induction links generalizing log with
  | nil => exact trivial
  | cons link links ih => exact (obeys_ask rfl).bind fun _ _ _ _ => ih

lemma obeys_refreshFresh (fresh : Option String) :
    Obeys (fun _ _ => True) (refreshFresh fresh) log := by
  cases fresh with
  | none => exact trivial
  | some fresh => exact (obeys_ask rfl).bind fun _ _ _ _ => obeys_refresh fresh

/-- **Forget carries what it has read.** -/
theorem obeys_forget (uid : String) : Obeys (fun _ _ => True) (forget uid) log := by
  refine (obeys_loadSnapshot uid).bind fun snapshot log₁ _ hsnapshot => ?_
  cases snapshot with
  | none => exact obeys_stop _
  | some snapshot =>
    refine (obeys_unlinkAll uid snapshot.providers).bind fun _ log₂ h₂ _ => ?_
    have hmay : May log₂ (.retire snapshot) :=
      fun name hname => held_suffix h₂ (hsnapshot snapshot rfl name hname)
    refine (obeys_write hmay).bind fun retired _ _ _ => ?_
    exact (obeys_refreshFresh retired.replacement).bind fun _ _ _ _ => trivial

lemma obeys_reset (uid : String) : Obeys (fun _ _ => True) (reset uid) log := by
  refine (obeys_ask rfl).bind fun found _ _ _ => ?_
  split
  · refine (obeys_ask rfl).bind fun file _ _ _ => (obeys_ask rfl).bind fun _ _ _ _ => ?_
    cases file with
    | none => exact obeys_write fun name hname => absurd hname List.not_mem_nil
    | some file =>
      refine (obeys_recomputeEffective uid file).bind fun _ _ _ _ => ?_
      exact obeys_write fun name hname => absurd hname List.not_mem_nil
  · exact obeys_stop _

/-! ### Restore -/

lemma obeys_restoreReplace {snapshot : BookSnapshot} (replacement : Option String)
    (h : ∀ name ∈ snapshot.coverNames, name ∈ held log) :
    Obeys (fun _ _ => True) (restoreReplace snapshot replacement) log := by
  have hmay : May log (.replace snapshot replacement) := h
  exact (obeys_write hmay).bind fun _ _ _ _ => obeys_refresh _

lemma obeys_mergeInto {snapshot : BookSnapshot} (uid : String)
    (h : ∀ name ∈ snapshot.coverNames, name ∈ held log) :
    Obeys (fun _ _ => True) (mergeInto snapshot uid) log := by
  refine (obeys_ask rfl).bind fun found log₁ h₁ _ => ?_
  split
  · refine (obeys_ask rfl).bind fun file log₂ h₂ _ => (obeys_ask rfl).bind fun fresh log₃ h₃ _ => ?_
    have hmay : May log₃ (.merge snapshot uid (oldIsNewer snapshot.progress fresh)) :=
      fun name hname => held_suffix ((h₁.trans h₂).trans h₃) (h name hname)
    refine (obeys_write hmay).bind fun _ _ _ _ => ?_
    cases file with
    | none => exact trivial
    | some file => exact obeys_recomputeEffective uid file
  · exact obeys_stop _

lemma obeys_restoreConflict (uid : String) :
    Obeys (fun _ _ => True) (restoreConflict uid) log :=
  (obeys_ask rfl).bind fun _ _ _ _ => (obeys_ask rfl).bind fun _ _ _ _ => trivial

lemma obeys_findReplacement (replacement : Option String) :
    Obeys (fun _ _ => True) (findReplacement replacement) log := by
  cases replacement with
  | none => exact trivial
  | some uid => exact (obeys_ask rfl).bind fun _ _ _ _ => trivial

lemma obeys_restoreOld (id : ℤ) {snapshot : BookSnapshot} (replacement : Option String)
    (h : ∀ name ∈ snapshot.coverNames, name ∈ held log) :
    Obeys (fun _ _ => True) (restoreOld id snapshot replacement) log := by
  refine (obeys_ask rfl).bind fun _ log₁ h₁ _ => ?_
  refine (obeys_restoreReplace replacement fun name hname => held_suffix h₁ (h name hname)).bind
    fun _ _ _ _ => ?_
  exact (obeys_ask rfl).bind fun _ _ _ _ => trivial

lemma obeys_discard (id : ℤ) (uid : String) (status : RestoreStatus) :
    Obeys (fun _ _ => True) (discard id uid status) log :=
  (obeys_ask rfl).bind fun _ _ _ _ => (obeys_ask rfl).bind fun _ _ _ _ => trivial

/-- **Restore carries the snapshot that it has read.** -/
theorem obeys_restore (id : ℤ) (mode : Option RestoreMode) :
    Obeys (fun _ _ => True) (restore id mode) log := by
  refine (obeys_ask rfl).bind fun row log₁ _ hrow => ?_
  cases row with
  | none => exact trivial
  | some row =>
    replace hrow : ∀ name ∈ row.snapshot.coverNames, name ∈ held log₁ := hrow
    refine (obeys_findReplacement row.replacement).bind fun found log₂ h₂ _ => ?_
    cases found with
    | none => exact obeys_restoreOld id none fun name hname => held_suffix h₂ (hrow name hname)
    | some fresh =>
      refine (obeys_restoreConflict fresh).bind fun conflict log₃ h₃ _ => ?_
      have hheld : ∀ name ∈ row.snapshot.coverNames, name ∈ held log₃ :=
        fun name hname => held_suffix (h₂.trans h₃) (hrow name hname)
      cases mode with
      | none =>
        dsimp only
        split
        · exact trivial
        · exact obeys_restoreOld id (some fresh) hheld
      | some mode =>
        cases mode with
        | replace => exact obeys_restoreOld id (some fresh) hheld
        | keep => exact obeys_discard id fresh .kept
        | merge =>
          exact (obeys_mergeInto fresh hheld).bind fun _ _ _ _ => obeys_discard id fresh .restored

end Lifecycle

end TuxBooks
