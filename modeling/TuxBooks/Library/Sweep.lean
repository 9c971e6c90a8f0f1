import TuxBooks.Library.Artwork

set_option relaxedAutoImplicit false
set_option autoImplicit false

/-!
# Which covers a sweep keeps

Covers are named in five places: by durable records, file rows, source snapshots, overrides, and the
snapshots of the trash. A command in progress may hold the name of a cover that it writes into one
of them later. A request writes names that were there or that it carries, a command carries names
that it was shown, and a sweep deletes only files that are not in its list; so what the list has at
the start, it has until the end.

## Main definitions

* `TuxBooks.Artwork.May` — what a command may ask after what it was shown.
* `TuxBooks.Artwork.names` — every cover that is named, or that a command in progress may name.
* `TuxBooks.Artwork.RequestMeets` — the condition on a sweep.

## Main results

* `TuxBooks.Artwork.obeys_routine` — every command obeys `May`.
* `TuxBooks.Artwork.Kept.step` — a step keeps every named cover.
* `TuxBooks.Artwork.covers_kept` — while sweeps meet the condition, every named cover exists.
* `TuxBooks.Artwork.forgotten_cover_lost` — Forget, a sweep, and Restore.
-/

namespace TuxBooks

open Fallible Relink Import

namespace Artwork

/-! ## What a request writes and shows -/

/-- The covers that a request carries. -/
def named : Req → List String
  | .life q => Lifecycle.named q
  | .updateRow _ b | .insertRow _ b | .putSource _ b | .moveRow _ _ b | .attachRow _ _ b =>
    b.coverPath.toList
  | .putOverrides _ row => row.coverPath.toList
  | _ => []

/-- The covers that an answer shows. -/
def learned : (q : Req) → Ans q → List String
  | .life q, a => Lifecycle.learned q a
  | .existingCover _, cover | .snapshotCover _, cover => cover.toList
  | .knownBook _, known => (known.bind (·.2)).toList
  | .historyCover _, known => known.join.toList
  | .isCached dest, cached => if cached then [dest] else []
  | .writeCover dest, _ => [dest]
  | _, _ => []

/-- The covers of the cache that a request looks up or writes. -/
def stored : Req → List String
  | .isCached dest | .writeCover dest => [dest]
  | _ => []

/-- Every cover that the database names at its time is in a set. -/
def CoversIn (S : String → Prop) (s : Artwork) : Prop := s.toDb.CoversIn S s.clock

variable {S : String → Prop} {s : Artwork} {codec : Lifecycle.Codec} {e : Drawn}

lemma CoversIn.setShelf (h : CoversIn S s) {sh : Shelf} (hsh : sh.device.catalog.CoversIn S) :
    CoversIn S (s.setShelf sh) :=
  Lifecycle.Db.CoversIn.of_catalog h hsh rfl

lemma CoversIn.setCatalog (h : CoversIn S s) {c : Catalog} (hc : c.CoversIn S) :
    CoversIn S (s.setCatalog c) :=
  Lifecycle.Db.CoversIn.of_catalog h hc rfl

/-- The record of a bound file row starts with its cover. -/
lemma coversIn_ensureBookRecord {c : Catalog} (h : c.CoversIn S) (file : ℤ) (now : String) :
    (c.ensureBookRecord file now).CoversIn S := by
  unfold Catalog.ensureBookRecord
  split
  · next f hf =>
    split
    · split
      · exact h
      · refine h.putRecord _ fun name hname => h.file file f hf name ?_
        exact List.mem_append_left _ (Option.mem_toList.mpr hname)
    · exact h
  · exact h

/-- A file row is rewritten. -/
lemma coversIn_mapFile {c : Catalog} (h : c.CoversIn S) {file : ℤ} {g : FileRow → FileRow}
    (hg : ∀ f, (∀ name ∈ f.coverNames, S name) → ∀ name ∈ (g f).coverNames, S name) :
    Catalog.CoversIn S { c with
      files := c.files.mapRows fun i (f : FileRow) => if i = file then (g f) else f } := by
  refine ⟨fun i f' hf' => ?_, h.record, h.override⟩
  rw [Table.lookup_mapRows] at hf'
  obtain ⟨f, hf, rfl⟩ := Option.map_eq_some_iff.mp hf'
  split
  · exact hg f (h.file i f hf)
  · exact h.file i f hf

/-- **Binding a file makes up no cover.** -/
lemma stable_coversIn (jsonReal : ℚ → Value) : Stable jsonReal (Catalog.CoversIn S) where
  fold _ h := (h.mergeBook jsonReal _ _).recomputePrimary jsonReal _
  point {_ file} _ uid now h := by
    refine coversIn_ensureBookRecord (c := Catalog.pointFile _ file uid) ?_ file now
    exact coversIn_mapFile (g := fun f => { f with bookUid := some uid }) h fun _ hf => hf
  mark key marker h := h.mark key marker

lemma CoversIn.ensureIdentity (h : CoversIn S s) (file : ℤ) (onDisk : Except String Hashed) :
    CoversIn S (s.ensureIdentity codec e file onDisk) := by
  unfold Artwork.ensureIdentity
  split
  · exact h
  · next hfile =>
    have hsome : (s.catalog.files.lookup file).isSome := by
      simpa [Option.isNone_iff_eq_none, Option.isSome_iff_ne_none] using hfile
    exact h.setShelf ((stable_coversIn codec.real).ensureBookIdentity hsome h.catalog _ _)

lemma CoversIn.settleFile (h : CoversIn S s) (file : ℤ) (onDisk : Except String Hashed) :
    CoversIn S (s.settleFile codec e file onDisk) := by
  unfold Artwork.settleFile
  split
  · exact h
  · split_ifs
    · exact h
    · exact h.ensureIdentity file onDisk
    · exact h.setShelf h.catalog

/-- A file row is inserted. -/
lemma coversIn_insertFile {c : Catalog} (h : c.CoversIn S) (file : ℤ) {row : FileRow}
    (hrow : ∀ name ∈ row.coverNames, S name) :
    Catalog.CoversIn S { c with files := c.files.insert file row } := by
  refine ⟨fun i f hf => ?_, h.record, h.override⟩
  rw [Table.lookup_insert'] at hf
  split_ifs at hf
  · exact Option.some.inj hf ▸ hrow
  · exact h.file i f hf

lemma coverNames_refresh {f : FileRow} {b : NewBook} {now : String}
    (hf : ∀ name ∈ f.coverNames, S name) (hb : ∀ name ∈ b.coverPath.toList, S name) :
    ∀ name ∈ (refresh f b now).coverNames, S name := by
  intro name hname
  rcases List.mem_append.mp hname with hname | hname
  · exact hb name hname
  · exact hf name (List.mem_append_right _ hname)

lemma coversIn_updateRow (h : CoversIn S s) {b : NewBook} (file : ℤ) (now : String)
    (hb : ∀ name ∈ b.coverPath.toList, S name) :
    CoversIn S (s.onShelf (updateBookByPath s.shelf file b now)).1 := by
  refine h.setShelf ?_
  unfold updateBookByPath
  split_ifs
  · exact coversIn_mapFile h.catalog fun f hf => coverNames_refresh hf hb
  · exact h.catalog

lemma coversIn_insertRow (h : CoversIn S s) {b : NewBook} (path : String) (drawn : Relink.Drawn)
    (hb : ∀ name ∈ b.coverPath.toList, S name) :
    CoversIn S (s.onShelf (insertFileRow s.shelf path b drawn)).1 := by
  refine h.setShelf ?_
  unfold insertFileRow
  split_ifs with htitled
  · refine coversIn_ensureBookRecord (coversIn_insertFile h.catalog s.shelf.nextFile ?_) _ _
    exact coverNames_refresh (fun name hname => absurd hname List.not_mem_nil) hb
  · exact h.catalog

lemma coversIn_moveRow (h : CoversIn S s) {b : NewBook} (file : ℤ) (path now : String)
    (hb : ∀ name ∈ b.coverPath.toList, S name) :
    CoversIn S (s.onShelf (moveRow s.shelf file path b now)).1 := by
  refine h.setShelf ?_
  unfold moveRow
  split_ifs
  · exact h.catalog
  · exact coversIn_mapFile h.catalog fun f hf => coverNames_refresh hf hb
  · exact h.catalog

lemma coversIn_attachRow (h : CoversIn S s) {b : NewBook} (uid path now : String)
    (hb : ∀ name ∈ b.coverPath.toList, S name) :
    CoversIn S (s.onShelf (attachRow s.shelf uid path b now)).1 := by
  refine h.setShelf ?_
  unfold attachRow
  split_ifs
  · refine coversIn_insertFile h.catalog s.shelf.nextFile ?_
    exact coverNames_refresh (fun name hname => absurd hname List.not_mem_nil) hb
  · exact h.catalog
  · exact h.catalog

lemma coversIn_bindNewFile {sh : Shelf} (h : sh.device.catalog.CoversIn S) (file : ℤ)
    (hashed : Except String Hashed) {drawn : Relink.Drawn} :
    (bindNewFile codec.real drawn sh file hashed).1.device.catalog.CoversIn S := by
  unfold bindNewFile
  cases hashed with
  | error err => exact h
  | ok hash =>
    have hbound := (stable_coversIn (S := S) codec.real).bindHash h file hash.contentHash
      hash.size hash.mtime drawn.fresh drawn.now
    dsimp only
    split
    · exact hbound
    · exact hbound

lemma CoversIn.deleteFiles (h : CoversIn S s) (p : ℤ → FileRow → Bool) :
    CoversIn S (s.deleteFiles p) := by
  refine Lifecycle.Db.CoversIn.of_catalog h ⟨fun i f hf => ?_, h.catalog.record,
    h.catalog.override⟩ rfl
  replace hf := (Table.lookup_filterRows _ s.catalog.files i).symm.trans hf
  exact h.catalog.file i f (Option.filter_eq_some_iff.mp hf).1

/-- **A request writes names that were there, or that it carries.** -/
theorem coversIn_answer (h : CoversIn S s) (q : Req) (hq : ∀ name ∈ named q, S name) :
    CoversIn S (answer codec e s q).1 := by
  cases q with
  | life q => exact Lifecycle.coversIn_exec h q hq
  | writeCover dest =>
    change CoversIn S (s.putCover e dest).1
    unfold putCover
    split
    · exact h
    · exact h
  | updateRow path b =>
    change CoversIn S (s.updateRow e path b).1
    unfold Artwork.updateRow
    split
    · exact coversIn_updateRow h _ e.now hq
    · exact h
  | insertRow path b => exact coversIn_insertRow h path _ hq
  | putSource file b =>
    refine h.setCatalog ?_
    exact coversIn_mapFile (g := fun f => { f with source := some b.sourceMetadata }) h.catalog
      fun f hf name hname => (List.mem_append.mp hname).elim
        (fun hname => hf name (List.mem_append_left _ hname)) (hq name)
  | bindFile file onDisk => exact h.ensureIdentity file onDisk
  | waitForFile file onDisk => exact h.settleFile file onDisk
  | moveRow file path b => exact coversIn_moveRow h file path e.now hq
  | attachRow uid path b => exact coversIn_attachRow h uid path e.now hq
  | bindNewFile file hashed => exact h.setShelf (coversIn_bindNewFile h.catalog file hashed)
  | markAvailable uid =>
    exact h.setCatalog (h.catalog.mapRecords fun u r => by split <;> rfl)
  | putOverrides uid row =>
    refine h.setCatalog (h.catalog.upsertOverrides codec.real uid fun name hname => ?_)
    exact hq name (Option.mem_toList.mpr hname)
  | clearOverrides uid => exact h.setCatalog (h.catalog.clearOverrides uid)
  | deleteBook uid => exact h.deleteFiles _
  | deleteFileRow file => exact h.deleteFiles _
  | removeFile path =>
    change CoversIn S (s.removeFile e path)
    unfold Artwork.removeFile
    split
    · exact h
    · exact h
  | _ => exact h

/-- **An answer shows names that are there**, or a cover of the cache. -/
theorem learned_answer (h : CoversIn S s) (hclock : s.clock = e.now) {q : Req} {a : Ans q}
    (hstored : ∀ name ∈ stored q, name ∈ learned q a → S name)
    (hok : (answer codec e s q).2 = .ok a) : ∀ name ∈ learned q a, S name := by
  cases q with
  | life q =>
    have hexec : (Lifecycle.exec codec e.toDrawn q s.toDb).2 = .ok a := by
      replace hok : (Lifecycle.exec codec e.toDrawn q s.toDb).2.mapError Failure.app = .ok a := hok
      cases hr : (Lifecycle.exec codec e.toDrawn q s.toDb).2 with
      | error err =>
        rw [hr] at hok
        cases hok
      | ok a' =>
        rw [hr] at hok
        exact congrArg Except.ok (Except.ok.inj hok)
    exact Lifecycle.learned_exec h hclock.le hexec
  | existingCover path =>
    obtain rfl := Except.ok.inj hok
    intro name hname
    obtain ⟨uid, -, hname⟩ := Option.bind_eq_some_iff.mp (Option.mem_toList.mp hname)
    obtain ⟨r, hr, hname⟩ := Option.bind_eq_some_iff.mp hname
    exact h.catalog.record uid r hr name hname
  | snapshotCover path =>
    obtain rfl := Except.ok.inj hok
    intro name hname
    obtain ⟨f, hf, hname⟩ := Option.bind_eq_some_iff.mp (Option.mem_toList.mp hname)
    obtain ⟨file, -, hf⟩ := Option.bind_eq_some_iff.mp hf
    exact h.catalog.file file f hf name (List.mem_append_left _ (Option.mem_toList.mpr hname))
  | knownBook uid =>
    obtain rfl := Except.ok.inj hok
    intro name hname
    obtain ⟨known, hknown, hname⟩ := Option.bind_eq_some_iff.mp (Option.mem_toList.mp hname)
    obtain ⟨file, -, rfl⟩ := Option.map_eq_some_iff.mp hknown
    obtain ⟨r, hr, hname⟩ := Option.bind_eq_some_iff.mp hname
    exact h.catalog.record uid r hr name hname
  | historyCover uid =>
    obtain rfl := Except.ok.inj hok
    intro name hname
    obtain ⟨r, hr, hname⟩ := Option.map_eq_some_iff.mp
      (Option.join_eq_some_iff.mp (Option.mem_toList.mp hname))
    exact h.catalog.record uid r hr name hname
  | isCached dest =>
    intro name hname
    cases a with
    | true => exact hstored name hname hname
    | false => exact absurd hname List.not_mem_nil
  | writeCover dest => exact fun name hname => hstored name hname hname
  | _ => exact fun name hname => absurd hname List.not_mem_nil

/-- A request deletes the file that it names, and no other. -/
lemma mem_covers_answer {name : String} (h : name ∈ s.covers) {q : Req}
    (hq : ∀ path, q = .removeFile path → name ≠ path) :
    name ∈ (answer codec e s q).1.covers := by
  cases q with
  | writeCover dest =>
    change name ∈ (s.putCover e dest).1.covers
    unfold putCover
    split
    · exact h
    · exact List.mem_cons_of_mem _ h
  | updateRow path b =>
    change name ∈ (s.updateRow e path b).1.covers
    unfold Artwork.updateRow
    split
    · exact h
    · exact h
  | bindFile file onDisk =>
    change name ∈ (s.ensureIdentity codec e file onDisk).covers
    unfold Artwork.ensureIdentity
    split
    · exact h
    · exact h
  | waitForFile file onDisk =>
    change name ∈ (s.settleFile codec e file onDisk).covers
    unfold Artwork.settleFile Artwork.ensureIdentity
    split
    · exact h
    · split_ifs <;> exact h
  | removeFile path =>
    change name ∈ (s.removeFile e path).covers
    unfold Artwork.removeFile
    split
    · exact h
    · exact List.mem_filter.mpr ⟨h, by simpa using hq path rfl⟩
  | _ => exact h

/-- No request changes the time. -/
lemma clock_answer (q : Req) : (answer codec e s q).1.clock = s.clock := by
  cases q with
  | writeCover dest =>
    change (s.putCover e dest).1.clock = _
    unfold putCover
    split <;> rfl
  | updateRow path b =>
    change (s.updateRow e path b).1.clock = _
    unfold Artwork.updateRow
    split <;> rfl
  | bindFile file onDisk =>
    change (s.ensureIdentity codec e file onDisk).clock = _
    unfold Artwork.ensureIdentity
    split <;> rfl
  | waitForFile file onDisk =>
    change (s.settleFile codec e file onDisk).clock = _
    unfold Artwork.settleFile Artwork.ensureIdentity
    split
    · rfl
    · split_ifs <;> rfl
  | removeFile path =>
    change (s.removeFile e path).clock = _
    unfold Artwork.removeFile
    split <;> rfl
  | _ => rfl

/-- A cover that was found or written is there. -/
lemma stored_answer {q : Req} {a : Ans q} (hok : (answer codec e s q).2 = .ok a) :
    ∀ name ∈ stored q, name ∈ learned q a → name ∈ (answer codec e s q).1.covers := by
  intro name hstored hlearned
  cases q with
  | isCached dest =>
    obtain rfl := List.mem_singleton.mp hstored
    obtain rfl := Except.ok.inj hok
    cases hfound : s.covers.contains name with
    | true => exact List.contains_iff_mem.mp hfound
    | false =>
      rw [hfound] at hlearned
      exact absurd hlearned List.not_mem_nil
  | writeCover dest =>
    obtain rfl := List.mem_singleton.mp hstored
    replace hok : (s.putCover e name).2 = .ok a := hok
    change name ∈ (s.putCover e name).1.covers
    unfold putCover at hok ⊢
    split at hok
    · cases hok
    · exact List.mem_cons_self
  | _ => exact absurd hstored List.not_mem_nil

/-! ## What a command may ask -/

/-- The covers that the answers so far have shown to a call. -/
def held (log : Routine.Log Ans) : List String := log.flatMap fun e => learned e.1 e.2

/-- The lists that a call has read for its sweep. -/
def listings (log : Routine.Log Ans) : List (List String) :=
  log.filterMap fun
    | ⟨.coverPaths, paths⟩ => some paths
    | _ => none

/-- A request carries what its call was shown, and a sweep deletes no file of its list. -/
def May (log : Routine.Log Ans) (q : Req) : Prop :=
  (∀ name ∈ named q, name ∈ held log) ∧
    ∀ path, q = .removeFile path → ∃ paths ∈ listings log, path ∉ paths

abbrev Obeys {α : Type} (post : α → Routine.Log Ans → Prop) (r : Cmd α) (log : Routine.Log Ans) :
    Prop := Routine.Obeys May post r log

variable {log log' : Routine.Log Ans}

lemma held_suffix (h : log <:+ log') {name : String} (hname : name ∈ held log) :
    name ∈ held log' := by
  obtain ⟨newer, rfl⟩ := h
  obtain ⟨e, he, hname⟩ := List.mem_flatMap.mp hname
  exact List.mem_flatMap.mpr ⟨e, List.mem_append_right _ he, hname⟩

lemma listings_suffix (h : log <:+ log') {paths : List String} (hpaths : paths ∈ listings log) :
    paths ∈ listings log' := by
  obtain ⟨newer, rfl⟩ := h
  unfold listings at hpaths ⊢
  rw [List.filterMap_append]
  exact List.mem_append_right _ hpaths

/-- A request that deletes no file. -/
def keeps : Req → Bool
  | .removeFile _ => false
  | _ => true

lemma may_of_keeping {q : Req} (hkeep : keeps q = true) (hq : ∀ name ∈ named q, name ∈ held log) :
    May log q := by
  refine ⟨hq, ?_⟩
  rintro path rfl
  cases hkeep

/-- A request that carries no cover and deletes none. -/
lemma obeys_ask {q : Req} (hq : ((named q).isEmpty && keeps q) = true) :
    Obeys (fun a log => ∀ name ∈ learned q a, name ∈ held log) (ask q) log := by
  obtain ⟨hempty, hkeep⟩ := Bool.and_eq_true_iff.mp hq
  refine Routine.obeys_request (may_of_keeping hkeep fun name hname => ?_) ?_
  · rw [List.isEmpty_iff.mp hempty] at hname
    exact absurd hname List.not_mem_nil
  · exact fun a name hname => List.mem_append_left _ hname

/-- A request that carries covers which were shown. -/
lemma obeys_write {q : Req} (hq : ∀ name ∈ named q, name ∈ held log) (hkeep : keeps q = true) :
    Obeys (fun _ _ => True) (ask q) log :=
  Routine.obeys_request (may_of_keeping hkeep hq) fun _ => trivial

lemma obeys_stop {α : Type} {post : α → Routine.Log Ans → Prop} (err : AppError) :
    Obeys post (stop err) log :=
  ⟨may_of_keeping rfl fun _ hname => absurd hname List.not_mem_nil, fun e => e.elim⟩

/-- **A routine of the trash asks the same here.** -/
theorem obeys_life {α : Type} {post : α → Routine.Log Lifecycle.Ans → Prop}
    {r : Lifecycle.Cmd α} {inner : Routine.Log Lifecycle.Ans} (h : Lifecycle.Obeys post r inner)
    (hheld : ∀ name ∈ Lifecycle.held inner, name ∈ held log) :
    Obeys (fun _ _ => True) (life r) log := by
  induction r generalizing inner log with
  | done a => exact trivial
  | ask q next ih =>
    refine ⟨may_of_keeping rfl fun name hname => hheld name (h.1 name hname), fun a => ?_⟩
    refine ih a (h.2 a) fun name hname => ?_
    rcases List.mem_append.mp hname with hname | hname
    · exact List.mem_append_left _ hname
    · exact List.mem_append_right _ (hheld name hname)

/-- A routine of the trash that starts now. -/
lemma obeys_life_nil {α : Type} {post : α → Routine.Log Lifecycle.Ans → Prop}
    {r : Lifecycle.Cmd α} (h : Lifecycle.Obeys post r []) :
    Obeys (fun _ _ => True) (life r) log :=
  obeys_life h fun _ hname => absurd hname List.not_mem_nil

/-! ### Imports -/

lemma obeys_writeCoverBytes (coversDir : String) (image : Image) :
    Obeys (fun cover log => ∀ name ∈ cover, name ∈ held log) (writeCoverBytes coversDir image)
      log := by
  refine (obeys_ask rfl).bind fun cached log₁ _ hcached => ?_
  cases cached with
  | true =>
    refine Routine.obeys_pure fun name hname => ?_
    exact hcached name (List.mem_singleton.mpr (Option.some.inj hname).symm)
  | false =>
    refine (obeys_ask rfl).bind fun _ log₂ _ hwritten => Routine.obeys_pure fun name hname => ?_
    exact hwritten name (List.mem_singleton.mpr (Option.some.inj hname).symm)

/-- The new row names the cover that was written, or the one that was there. -/
lemma obeys_newBookFromParsed (coversDir : String) (stats : FileStats) {previous : Option String}
    (hprevious : ∀ name ∈ previous, name ∈ held log) (document : Document) :
    Obeys (fun b log => ∀ name ∈ b.coverPath.toList, name ∈ held log)
      (newBookFromParsed coversDir stats previous document) log := by
  unfold newBookFromParsed
  split
  · exact Routine.obeys_pure fun name hname => absurd hname List.not_mem_nil
  · refine (obeys_writeCoverBytes _ _).bind fun cover log₁ _ hcover => Routine.obeys_pure ?_
    exact fun name hname => hcover name (Option.mem_toList.mp hname)
  · refine (obeys_writeCoverBytes _ _).bind fun cover log₁ _ hcover => Routine.obeys_pure ?_
    exact fun name hname => hcover name (Option.mem_toList.mp hname)
  · exact Routine.obeys_pure fun name hname => hprevious name (Option.mem_toList.mp hname)

lemma obeys_recordImportedSource (file : ℤ) {b : NewBook}
    (hb : ∀ name ∈ b.coverPath.toList, name ∈ held log) :
    Obeys (fun _ _ => True) (recordImportedSource file b) log := by
  have hput : ∀ name ∈ named (.putSource file b), name ∈ held log := hb
  refine (obeys_write hput rfl).bind fun _ _ _ _ => ?_
  refine (obeys_ask rfl).bind fun uid _ _ _ => ?_
  cases uid with
  | none => exact trivial
  | some uid =>
    exact obeys_life_nil (Lifecycle.obeys_recomputeEffective uid file)

lemma obeys_upsertFile (path : String) {b : NewBook}
    (hb : ∀ name ∈ b.coverPath.toList, name ∈ held log) :
    Obeys (fun _ _ => True) (upsertFile path b) log := by
  refine (obeys_ask rfl).bind fun found log₁ h₁ _ => ?_
  have hb₁ : ∀ name ∈ b.coverPath.toList, name ∈ held log₁ :=
    fun name hname => held_suffix h₁ (hb name hname)
  cases found with
  | some file =>
    have hrow : ∀ name ∈ named (.updateRow path b), name ∈ held log₁ := hb₁
    refine (obeys_write hrow rfl).bind fun _ log₂ h₂ _ => ?_
    refine (obeys_recordImportedSource file fun name hname =>
      held_suffix h₂ (hb₁ name hname)).bind fun _ _ _ _ => ?_
    refine (obeys_ask rfl).bind fun durable _ _ _ => ?_
    split
    · exact trivial
    · exact obeys_stop _
  | none =>
    have hrow : ∀ name ∈ named (.insertRow path b), name ∈ held log₁ := hb₁
    refine (obeys_write hrow rfl).bind fun file log₂ h₂ _ => ?_
    refine (obeys_recordImportedSource file fun name hname =>
      held_suffix h₂ (hb₁ name hname)).bind fun _ _ _ _ => ?_
    refine (obeys_ask rfl).bind fun durable _ _ _ => ?_
    split
    · exact trivial
    · exact obeys_stop _

/-- **An import names the cover that it wrote, or the one that it read.** -/
theorem obeys_importParsed (coversDir path : String) (document : Document) (stats : FileStats)
    (onDisk : Except String Hashed) {previous : Option String}
    (hprevious : ∀ name ∈ previous, name ∈ held log) :
    Obeys (fun _ _ => True) (importParsed coversDir path document stats onDisk previous) log := by
  refine (obeys_newBookFromParsed coversDir stats hprevious document).bind fun b log₁ _ hb => ?_
  refine (obeys_upsertFile path hb).bind fun file log₂ h₂ _ => ?_
  refine (obeys_recordImportedSource file fun name hname => held_suffix h₂ (hb name hname)).bind
    fun _ _ _ _ => ?_
  refine (obeys_ask rfl).bind fun _ _ _ _ => (obeys_ask rfl).bind fun _ _ _ _ => ?_
  split
  · exact trivial
  · exact obeys_stop _

/-- A file that the user picks keeps the cover that its book shows, or gets its own. -/
theorem obeys_reconnectBook (coversDir uid path : String) (document : Except AppError Document)
    (stats : FileStats) :
    Obeys (fun _ _ => True) (reconnectBook coversDir uid path document stats) log := by
  unfold reconnectBook
  cases document with
  | error err => exact obeys_stop err
  | ok document =>
    refine (obeys_ask rfl).bind fun known log₁ _ hknown => ?_
    cases known with
    | none => exact obeys_stop _
    | some known =>
      obtain ⟨file, previous⟩ := known
      refine (obeys_newBookFromParsed coversDir stats (fun name hname =>
        hknown name (Option.mem_toList.mpr hname)) document).bind fun b log₂ _ hb => ?_
      refine (obeys_ask rfl).bind fun existing log₃ h₃ _ => ?_
      have hb₃ : ∀ name ∈ b.coverPath.toList, name ∈ held log₃ :=
        fun name hname => held_suffix h₃ (hb name hname)
      split
      · exact obeys_stop _
      · have hrow : ∀ name ∈ named (.moveRow file path b), name ∈ held log₃ := hb₃
        refine (obeys_write hrow rfl).bind fun _ log₄ h₄ _ => ?_
        exact obeys_recordImportedSource file fun name hname => held_suffix h₄ (hb₃ name hname)

lemma obeys_attachFile (uid path : String) {b : NewBook} (hashed : Except String Hashed)
    (expectedUid : Option String) (hb : ∀ name ∈ b.coverPath.toList, name ∈ held log) :
    Obeys (fun _ _ => True) (attachFile uid path b hashed expectedUid) log := by
  refine (obeys_ask rfl).bind fun _ log₁ h₁ _ => ?_
  have hrow : ∀ name ∈ named (.attachRow uid path b), name ∈ held log₁ :=
    fun name hname => held_suffix h₁ (hb name hname)
  refine (obeys_write hrow rfl).bind fun file log₂ h₂ _ => ?_
  refine (obeys_recordImportedSource file fun name hname => held_suffix h₂ (hrow name hname)).bind
    fun _ _ _ _ => ?_
  exact (obeys_ask rfl).bind fun _ _ _ _ => (obeys_ask rfl).mono fun _ _ _ _ => trivial

theorem obeys_relinkBook (coversDir uid path : String) (document : Except AppError Document)
    (stats : FileStats) (hashed : Except String Hashed) (expectedUid : Option String) :
    Obeys (fun _ _ => True) (relinkBook coversDir uid path document stats hashed expectedUid)
      log := by
  refine (obeys_ask rfl).bind fun known log₁ _ hknown => ?_
  cases known with
  | none => exact obeys_stop _
  | some previous =>
    refine (obeys_ask rfl).bind fun files log₂ h₂ _ => ?_
    refine (obeys_ask rfl).bind fun existing log₃ h₃ _ => ?_
    split
    · exact obeys_stop _
    · split
      · exact obeys_stop _
      · cases document with
        | error err => exact obeys_stop err
        | ok document =>
          have hprevious : ∀ name ∈ previous, name ∈ held log₃ := fun name hname =>
            held_suffix h₃ (held_suffix h₂ (hknown name (Option.mem_toList.mpr hname)))
          refine (obeys_newBookFromParsed coversDir stats hprevious document).bind
            fun b log₄ _ hb => ?_
          exact obeys_attachFile uid path hashed expectedUid hb

/-! ### Overrides and sweeps -/

lemma obeys_sourceFile (uid : String) : Obeys (fun _ _ => True) (sourceFile uid) log := by
  refine (obeys_ask rfl).bind fun found _ _ _ => ?_
  split
  · refine (obeys_ask rfl).bind fun file _ _ _ => ?_
    cases file with
    | none => exact obeys_stop _
    | some file => exact trivial
  · exact obeys_stop _

lemma obeys_storeCover (uid : String) (file : ℤ) {cover : Option String}
    (hcover : ∀ name ∈ cover, name ∈ held log) :
    Obeys (fun _ _ => True) (storeCover uid file cover) log := by
  refine (obeys_ask rfl).bind fun row log₁ h₁ _ => ?_
  have hput : ∀ name ∈ named (.putOverrides uid { row.getD {} with coverPath := cover }),
      name ∈ held log₁ :=
    fun name hname => held_suffix h₁ (hcover name (Option.mem_toList.mp hname))
  refine (obeys_write hput rfl).bind fun _ _ _ _ => ?_
  exact obeys_life_nil (Lifecycle.obeys_recomputeEffective uid file)

/-- The end of every edit of the overrides. -/
lemma obeys_recompute (uid : String) (file : ℤ) :
    Obeys (fun _ _ => True) (do
      life (Lifecycle.recomputeEffective uid file)
      ask (.life .sweepOrphans)) log := by
  refine (obeys_life_nil (Lifecycle.obeys_recomputeEffective uid file)).bind fun _ _ _ _ => ?_
  exact (obeys_ask rfl).mono fun _ _ _ _ => trivial

lemma obeys_customize (customized : Bool) (list : BookList) (uid : String) (names : List String) :
    Obeys (fun _ _ => True) (customize customized list uid names) log := by
  unfold customize
  split
  · exact obeys_life_nil (Lifecycle.obeys_replaceNames list uid names)
  · exact trivial

/-- A form keeps the cover override that it read. -/
theorem obeys_applyForm (uid : String) (form : SourceMetadata → Except AppError Edit) :
    Obeys (fun _ _ => True) (applyForm uid form) log := by
  refine (obeys_sourceFile uid).bind fun file _ _ _ => ?_
  refine (obeys_ask rfl).bind fun source _ _ _ => ?_
  refine (obeys_ask rfl).bind fun existing log₁ _ hexisting => ?_
  cases form source with
  | error err => exact obeys_stop err
  | ok edit =>
    refine (obeys_customize _ _ _ _).bind fun _ log₂ h₂ _ => ?_
    refine (obeys_customize _ _ _ _).bind fun _ log₃ h₃ _ => ?_
    have hput : ∀ name ∈ named
        (.putOverrides uid { edit.overrides with coverPath := (existing.getD {}).coverPath }),
        name ∈ held log₃ := by
      intro name hname
      refine held_suffix h₃ (held_suffix h₂ (hexisting name ?_))
      cases existing with
      | none => exact absurd hname List.not_mem_nil
      | some row => exact hname
    refine (obeys_write hput rfl).bind fun _ _ _ _ => ?_
    exact obeys_recompute uid file

/-- The new source snapshot keeps the cover of the old one. -/
lemma obeys_refreshSource (file : ℤ) (rewritten : Document) (stats : FileStats) :
    Obeys (fun _ _ => True) (refreshSource file rewritten stats) log := by
  refine (obeys_ask rfl).bind fun source log₁ _ hsource => ?_
  have hput : ∀ name ∈ named
      (.putSource file (bibliographicNewBook stats source.coverPath rewritten)),
      name ∈ held log₁ := by
    intro name hname
    cases rewritten <;> exact hsource name hname
  refine (obeys_write hput rfl).bind fun _ _ _ _ => ?_
  exact (obeys_ask rfl).bind fun _ _ _ _ => (obeys_ask rfl).mono fun _ _ _ _ => trivial

theorem obeys_embedBookMetadata (uid : String)
    (form saved : SourceMetadata → Except AppError Edit) (rewritten : Except AppError Document)
    (stats : FileStats) :
    Obeys (fun _ _ => True) (embedBookMetadata uid form saved rewritten stats) log := by
  refine (obeys_ask rfl).bind fun known _ _ _ => ?_
  cases known with
  | none => exact obeys_stop _
  | some known =>
    refine (obeys_applyForm uid form).bind fun _ _ _ _ => ?_
    refine (obeys_ask rfl).bind fun _ _ _ _ => ?_
    cases rewritten with
    | error err => exact obeys_stop err
    | ok rewritten =>
      refine (obeys_refreshSource known.1 rewritten stats).bind fun _ _ _ _ => ?_
      exact obeys_applyForm uid saved

/-- The files that a sweep deletes are not in its list. -/
lemma obeys_removeUnreferenced {referenced : List String} (h : referenced ∈ listings log)
    (entries : List String) :
    Obeys (fun _ _ => True) (removeUnreferenced referenced entries) log := by
  induction entries generalizing log with
  | nil => exact trivial
  | cons path entries ih =>
    refine (obeys_ask rfl).bind fun isFile log₁ h₁ _ => ?_
    have hlist := listings_suffix h₁ h
    split
    · next hremove =>
      have hnot : path ∉ referenced := by simpa using (Bool.and_eq_true_iff.mp hremove).2
      have hmay : May log₁ (.removeFile path) := by
        refine ⟨fun name hname => absurd hname List.not_mem_nil, fun path' heq => ?_⟩
        obtain rfl := Req.removeFile.inj heq
        exact ⟨referenced, hlist, hnot⟩
      have hstep : Obeys (fun _ _ => True) (ask (.removeFile path)) log₁ :=
        Routine.obeys_request hmay fun _ => trivial
      exact hstep.bind fun _ log₂ h₂ _ => ih (listings_suffix h₂ hlist)
    · exact ih hlist

lemma obeys_sweep : Obeys (fun _ _ => True) sweepUnreferencedCovers log := by
  have hlist : Obeys (fun paths log => paths ∈ listings log) (ask .coverPaths) log :=
    Routine.obeys_request (may_of_keeping rfl fun name hname => absurd hname List.not_mem_nil)
      fun paths => List.mem_cons_self
  refine hlist.bind fun referenced log₁ _ h₁ => ?_
  refine (obeys_ask rfl).bind fun entries log₂ h₂ _ => ?_
  exact obeys_removeUnreferenced (listings_suffix h₂ h₁) entries

lemma obeys_waitForBooks (onDisk : ℤ → Except String Hashed) (files : List ℤ) :
    Obeys (fun _ _ => True) (waitForBooks onDisk files) log := by
  induction files generalizing log with
  | nil => exact trivial
  | cons file files ih => exact (obeys_ask rfl).bind fun _ _ _ _ => ih

lemma obeys_deleteFileRows (onDisk : ℤ → Except String Hashed) (files : List ℤ) :
    Obeys (fun _ _ => True) (deleteFileRows onDisk files) log := by
  induction files generalizing log with
  | nil => exact trivial
  | cons file files ih =>
    exact (obeys_ask rfl).bind fun _ _ _ _ => (obeys_ask rfl).bind fun _ _ _ _ => ih

lemma obeys_ownerOf (uid : String) (file : Option ℤ) :
    Obeys (fun _ _ => True) (ownerOf uid file) log := by
  cases file with
  | none => exact trivial
  | some file => exact (obeys_ask rfl).bind fun _ _ _ _ => trivial

/-- **Every command carries only covers that it was shown**, and sweeps only by its list. -/
theorem obeys_routine (coversDir : String) (command : Command) :
    Obeys (fun _ _ => True) (routine coversDir command) [] := by
  cases command with
  | importFile path document stats onDisk =>
    refine (obeys_ask rfl).bind fun previous _ _ hprevious => ?_
    cases document with
    | none => exact trivial
    | some document =>
      exact obeys_importParsed _ _ _ _ _ fun name hname =>
        hprevious name (Option.mem_toList.mpr hname)
  | importListed path document stats onDisk =>
    refine (obeys_ask rfl).bind fun previous _ _ hprevious => ?_
    cases document with
    | none => exact trivial
    | some document =>
      exact obeys_importParsed _ _ _ _ _ fun name hname =>
        hprevious name (Option.mem_toList.mpr hname)
  | reconnectBook uid path document stats =>
    exact obeys_reconnectBook coversDir uid path document stats
  | relinkBook uid path document stats hashed expectedUid =>
    exact obeys_relinkBook coversDir uid path document stats hashed expectedUid
  | setBookCover uid data =>
    refine (obeys_sourceFile uid).bind fun file _ _ _ => ?_
    cases data with
    | error err => exact obeys_stop err
    | ok data =>
      dsimp only
      split
      · exact obeys_stop _
      · refine (obeys_writeCoverBytes coversDir _).bind fun cover _ _ hcover => ?_
        exact obeys_storeCover uid file hcover
  | clearBookCoverOverride uid =>
    refine (obeys_sourceFile uid).bind fun file _ _ _ => ?_
    exact obeys_storeCover uid file fun name hname => absurd hname (by simp)
  | embedBookMetadata uid form saved rewritten stats =>
    exact obeys_embedBookMetadata uid form saved rewritten stats
  | resetBookMetadata uid =>
    refine (obeys_sourceFile uid).bind fun file _ _ _ => ?_
    refine (obeys_ask rfl).bind fun _ _ _ _ => ?_
    exact obeys_recompute uid file
  | removeBook uid onDisk =>
    refine (obeys_ask rfl).bind fun files _ _ _ => ?_
    refine (obeys_waitForBooks onDisk files).bind fun _ _ _ _ => ?_
    refine (obeys_ownerOf uid files.head?).bind fun owner _ _ _ => ?_
    refine (obeys_ask rfl).bind fun removed _ _ _ => ?_
    split
    · exact obeys_sweep
    · exact trivial
  | unwatch doomed onDisk =>
    refine (obeys_deleteFileRows onDisk doomed).bind fun _ _ _ _ => ?_
    split
    · exact trivial
    · exact obeys_sweep
  | forget uid =>
    refine (obeys_life_nil (Lifecycle.obeys_forget uid)).bind fun _ _ _ _ => ?_
    exact trivial
  | restore id mode =>
    refine (obeys_life_nil (Lifecycle.obeys_restore id mode)).bind fun _ _ _ _ => ?_
    exact trivial
  | reset uid => exact obeys_life_nil (Lifecycle.obeys_reset uid)
  | sweep => exact obeys_sweep

/-! ## Runs -/

abbrev Pool : Type := Routine.Pool Ans Unit Artwork

/-- A command starts, goes on with its next request, or ends early. -/
abbrev Move : Type := Routine.Move Command Drawn

/-- The calls that have not returned. -/
def running (p : Pool) : List (Routine.Call Ans Unit) := p.calls.filter fun c => !c.rest.isDone

/-- The covers that calls in progress hold. -/
def promised (p : Pool) : List String := (running p).flatMap fun c => held c.log

/-- Every cover that the database names at a time, or that a command in progress may name. -/
def names (p : Pool) (now : String) : List String := p.store.coverNames now ++ promised p

/-- The lists of the sweeps in progress. -/
def sweeps (p : Pool) : List (List String) := (running p).flatMap fun c => listings c.log

/-- The request that reads the list of a sweep. -/
def lists : Req → Bool
  | .coverPaths => true
  | _ => false

/-- The condition on a request of a call. A sweep reads its list when a record or a file row names
every cover that anything names, and while it goes on a cover is looked up or written only if it is
in the list. -/
def RequestMeets (p : Pool) (now : String) (q : Req) : Prop :=
  (lists q = true → ∀ name ∈ names p now, p.store.catalog.ShowsCover name) ∧
    ∀ dest ∈ stored q, ∀ paths ∈ sweeps p, dest ∈ paths

instance (p : Pool) (now : String) (q : Req) : Decidable (RequestMeets p now q) :=
  inferInstanceAs (Decidable (_ ∧ _))

/-- The condition on a step: on its request, and the clock does not go back. -/
def StepMeets (p : Pool) : Move → Prop
  | .step i e =>
    match p.calls[i]? with
    | some ⟨_, .ask q _⟩ => p.store.clock ≤ e.now ∧ RequestMeets p e.now q
    | _ => True
  | _ => True

instance (p : Pool) : DecidablePred (StepMeets p)
  | .start _ | .abort _ => isTrue trivial
  | .step i e =>
    match hcall : p.calls[i]? with
    | some ⟨log, .ask q next⟩ => decidable_of_iff (p.store.clock ≤ e.now ∧ RequestMeets p e.now q)
        (by simp only [StepMeets, hcall])
    | some ⟨_, .done _⟩ => isTrue (by simp only [StepMeets, hcall])
    | none => isTrue (by simp only [StepMeets, hcall])

/-- Every cover that is named at a time is in a set. -/
structure Within (S : String → Prop) (now : String) (p : Pool) : Prop where
  store : p.store.toDb.CoversIn S now
  calls : ∀ c ∈ p.calls, c.rest.isDone = false → ∀ name ∈ held c.log, S name

lemma within_iff {now : String} {p : Pool} : Within S now p ↔ ∀ name ∈ names p now, S name := by
  unfold names promised running
  rw [List.forall_mem_append, ← Lifecycle.Db.coversIn_iff]
  simp only [List.mem_flatMap, List.mem_filter]
  constructor
  · intro h
    refine ⟨h.store, ?_⟩
    rintro name ⟨c, ⟨hc, hrest⟩, hname⟩
    exact h.calls c hc (by simpa using hrest) name hname
  · rintro ⟨hstore, hcalls⟩
    exact ⟨hstore, fun c hc hrest name hname => hcalls name ⟨c, ⟨hc, by simpa using hrest⟩, hname⟩⟩

section Step

variable {p : Pool} {i : ℕ} {q : Req} {next : Ans q → Cmd Unit}

/-- A call that asks its next request, or stops at it. -/
lemma askNext_eq (hcall : p.calls[i]? = some ⟨log, .ask q next⟩) :
    p.askNext (exec codec) i e =
      ⟨(exec codec e q p.store).1, match (exec codec e q p.store).2 with
        | .ok a => p.calls.set i ⟨⟨q, a⟩ :: log, next a⟩
        | .error _ => p.calls.eraseIdx i⟩ := by
  unfold Routine.Pool.askNext
  simp only [hcall]
  rcases exec codec e q p.store with ⟨s, err | a⟩
  · rfl
  · rfl

/-- The calls after a step: the others, and the one that asked. -/
lemma mem_askNext (hcall : p.calls[i]? = some ⟨log, .ask q next⟩) {c : Routine.Call Ans Unit}
    (hc : c ∈ (p.askNext (exec codec) i e).calls) :
    c ∈ p.calls ∨ ∃ a, (exec codec e q p.store).2 = .ok a ∧ c = ⟨⟨q, a⟩ :: log, next a⟩ := by
  rw [askNext_eq hcall] at hc
  cases hresult : (exec codec e q p.store).2 with
  | error err =>
    simp only [hresult] at hc
    exact .inl (List.mem_of_mem_eraseIdx hc)
  | ok a =>
    simp only [hresult] at hc
    rcases List.mem_or_eq_of_mem_set hc with hc | rfl
    · exact .inl hc
    · exact .inr ⟨a, rfl, rfl⟩

/-- **A step names covers that were named**, and what it looks up or writes. -/
theorem Within.askNext (h : Within S e.now p) (hcall : p.calls[i]? = some ⟨log, .ask q next⟩)
    (hmay : May log q)
    (hstored : ∀ a, (exec codec e q p.store).2 = .ok a →
      ∀ name ∈ stored q, name ∈ learned q a → S name) :
    Within S e.now (p.askNext (exec codec) i e) := by
  have hmem : (⟨log, .ask q next⟩ : Routine.Call Ans Unit) ∈ p.calls := List.mem_of_getElem? hcall
  have hheld : ∀ name ∈ held log, S name := h.calls _ hmem rfl
  have hstore : CoversIn S { p.store with clock := e.now } := h.store
  constructor
  · have hanswer : CoversIn S (exec codec e q p.store).1 :=
      coversIn_answer hstore q fun name hname => hheld name (hmay.1 name hname)
    rw [CoversIn, exec, clock_answer] at hanswer
    rw [askNext_eq hcall]
    exact hanswer
  · intro c hc hrest name hname
    rcases mem_askNext hcall hc with hc | ⟨a, hok, rfl⟩
    · exact h.calls c hc hrest name hname
    · rcases List.mem_append.mp hname with hname | hname
      · exact learned_answer hstore rfl (hstored a hok) hok name hname
      · exact hheld name hname

end Step

/-- A later time names no more. -/
lemma Within.later {now now' : String} {p : Pool} (h : Within S now p) (hnow : now ≤ now') :
    Within S now' p :=
  ⟨h.store.later hnow, h.calls⟩

/-- Calls that were there, and calls that have asked nothing. -/
lemma Within.of_calls {now : String} {p p' : Pool} (h : Within S now p)
    (hstore : p'.store = p.store)
    (hcalls : ∀ c ∈ p'.calls, c ∈ p.calls ∨ c.log = []) : Within S now p' := by
  refine ⟨hstore ▸ h.store, fun c hc hrest name hname => ?_⟩
  rcases hcalls c hc with hc | hlog
  · exact h.calls c hc hrest name hname
  · rw [hlog] at hname
    exact absurd hname List.not_mem_nil

/-- Every named cover exists, and is in the list of every sweep that is going on. -/
structure Kept (p : Pool) : Prop where
  present : Within (· ∈ p.store.covers) p.store.clock p
  obeys : ∀ c ∈ p.calls, Obeys (fun _ _ => True) c.rest c.log
  listed : ∀ c ∈ p.calls, c.rest.isDone = false → ∀ paths ∈ listings c.log,
    Within (· ∈ paths) p.store.clock p

namespace Kept

variable {p : Pool}

/-- The list of a sweep that goes on. -/
lemma mem_sweeps {c : Routine.Call Ans Unit} (hc : c ∈ p.calls) (hrest : c.rest.isDone = false)
    {paths : List String} (hpaths : paths ∈ listings c.log) : paths ∈ sweeps p :=
  List.mem_flatMap.mpr ⟨c, List.mem_filter.mpr ⟨hc, by simpa using hrest⟩, hpaths⟩

/-- A list is from before, or it is the answer. -/
lemma mem_listings_cons {q : Req} {a : Ans q} {paths : List String}
    (h : paths ∈ listings (⟨q, a⟩ :: log)) :
    paths ∈ listings log ∨ (⟨q, a⟩ : Sigma Ans) = ⟨.coverPaths, paths⟩ := by
  unfold listings at h ⊢
  rw [List.filterMap_cons] at h
  split at h
  · exact .inl h
  · next paths' heq =>
    split at heq
    · next paths'' hanswer =>
      obtain rfl := Option.some.inj heq
      rcases List.mem_cons.mp h with rfl | h
      · exact .inr hanswer
      · exact .inl h
    · cases heq

variable {i : ℕ} {q : Req} {next : Ans q → Cmd Unit}

/-- **A request keeps what is named**: a sweep deletes a file only if its list does not have it. -/
theorem askNext (h : Kept p) (hcall : p.calls[i]? = some ⟨log, .ask q next⟩)
    (hclock : p.store.clock ≤ e.now) (hmeets : RequestMeets p e.now q)
    (hobeys : ∀ c ∈ (p.askNext (exec codec) i e).calls, Obeys (fun _ _ => True) c.rest c.log) :
    Kept (p.askNext (exec codec) i e) := by
  have hmem : (⟨log, .ask q next⟩ : Routine.Call Ans Unit) ∈ p.calls := List.mem_of_getElem? hcall
  have hmay : May log q := (h.obeys _ hmem).1
  have hlisted : ∀ c ∈ p.calls, c.rest.isDone = false → ∀ paths ∈ listings c.log,
      Within (· ∈ paths) e.now (p.askNext (exec codec) i e) := by
    intro c hc hrest paths hpaths
    refine ((h.listed c hc hrest paths hpaths).later hclock).askNext hcall hmay ?_
    exact fun a _ name hname _ => hmeets.2 name hname _ (mem_sweeps hc hrest hpaths)
  have hnow : (p.askNext (exec codec) i e).store.clock = e.now := by
    rw [askNext_eq hcall]
    exact clock_answer q
  refine ⟨?_, hobeys, fun c hc hrest paths hpaths => ?_⟩
  · -- a named cover that was there is not the one that the request deletes
    have hpresent : Within (· ∈ (exec codec e q p.store).1.covers) e.now p := by
      refine within_iff.mpr fun name hname => mem_covers_answer ?_ fun path hpath => ?_
      · exact within_iff.mp (h.present.later hclock) name hname
      · obtain ⟨paths, hpaths, hnot⟩ := hmay.2 path hpath
        have hin := within_iff.mp ((h.listed _ hmem rfl paths hpaths).later hclock) name hname
        exact ne_of_mem_of_not_mem hin hnot
    have hstep : Within (· ∈ (exec codec e q p.store).1.covers) e.now
        (p.askNext (exec codec) i e) :=
      hpresent.askNext hcall hmay fun a hok => stored_answer hok
    rw [hnow]
    rw [askNext_eq hcall] at hstep ⊢
    exact hstep
  · rw [hnow]
    rcases mem_askNext hcall hc with hc | ⟨a, hok, rfl⟩
    · exact hlisted c hc hrest paths hpaths
    · rcases mem_listings_cons hpaths with hpaths | hanswer
      · exact hlisted _ hmem rfl paths hpaths
      · -- the list was read when it had every named cover
        obtain ⟨rfl, hanswer⟩ := Sigma.mk.inj hanswer
        obtain rfl := eq_of_heq hanswer
        obtain rfl := Except.ok.inj hok
        have hall : Within (· ∈ p.store.catalog.listCoverPaths) e.now p :=
          within_iff.mpr fun name hname => Catalog.mem_listCoverPaths.mpr (hmeets.1 rfl name hname)
        refine hall.askNext hcall hmay ?_
        exact fun _ _ name hname => absurd hname List.not_mem_nil

/-- A command starts or ends early. -/
lemma of_calls {p' : Pool} (h : Kept p) (hstore : p'.store = p.store)
    (hcalls : ∀ c ∈ p'.calls, c ∈ p.calls ∨ c.log = [])
    (hobeys : ∀ c ∈ p'.calls, Obeys (fun _ _ => True) c.rest c.log) : Kept p' := by
  refine ⟨?_, hobeys, fun c hc hrest paths hpaths => ?_⟩
  · rw [hstore]
    exact h.present.of_calls hstore hcalls
  · rw [hstore]
    rcases hcalls c hc with hc | hlog
    · exact (h.listed c hc hrest paths hpaths).of_calls hstore hcalls
    · rw [hlog] at hpaths
      exact absurd hpaths List.not_mem_nil

/-- **A step keeps what is named.** -/
theorem step (coversDir : String) (h : Kept p) (move : Move) (hmeets : StepMeets p move) :
    Kept (p.step (exec codec) (routine coversDir) move) := by
  have hobeys := Routine.Pool.obeys_step (exec codec) (routine coversDir) h.obeys
    (obeys_routine coversDir) move
  cases move with
  | start command =>
    refine h.of_calls rfl (fun c hc => ?_) hobeys
    rcases List.mem_append.mp hc with hc | hc
    · exact .inl hc
    · exact .inr (by rw [List.mem_singleton.mp hc])
  | abort i => exact h.of_calls rfl (fun c hc => .inl (List.mem_of_mem_eraseIdx hc)) hobeys
  | step i e =>
    change Kept (p.askNext (exec codec) i e)
    cases hcall : p.calls[i]? with
    | none =>
      have heq : p.askNext (exec codec) i e = p := by
        unfold Routine.Pool.askNext
        rw [hcall]
      exact heq.symm ▸ h
    | some c =>
      obtain ⟨log, rest⟩ := c
      cases rest with
      | done a =>
        have heq : p.askNext (exec codec) i e = p := by
          unfold Routine.Pool.askNext
          rw [hcall]
        exact heq.symm ▸ h
      | ask q next =>
        unfold StepMeets at hmeets
        simp only [hcall] at hmeets
        exact h.askNext hcall hmeets.1 hmeets.2 hobeys

end Kept

/-- The commands on one store. -/
def run (codec : Lifecycle.Codec) (coversDir : String) (s : Artwork) (moves : List Move) : Pool :=
  moves.foldl (Routine.Pool.step (exec codec) (routine coversDir)) ⟨s, []⟩

/-- Every step of the commands meets the condition. -/
def RunMeets (codec : Lifecycle.Codec) (coversDir : String) (s : Artwork) (moves : List Move) :
    Prop :=
  Guarded.Meets (Routine.Pool.step (exec codec) (routine coversDir)) StepMeets ⟨s, []⟩ moves

/-- **The covers stay.** In a run that meets the condition, every cover that is named by a record, a
file row, an override, a source snapshot or a snapshot that can be restored, or that a command in
progress may name, exists in every state. -/
theorem covers_kept (codec : Lifecycle.Codec) (coversDir : String) (s : Artwork)
    (hs : ∀ name ∈ s.coverNames s.clock, name ∈ s.covers) (moves : List Move)
    (hmeets : RunMeets codec coversDir s moves) :
    ∀ name ∈ names (run codec coversDir s moves) (run codec coversDir s moves).store.clock,
      name ∈ (run codec coversDir s moves).store.covers := by
  have hinit : Kept (⟨s, []⟩ : Pool) := by
    refine ⟨within_iff.mpr fun name hname => hs name ?_, ?_, ?_⟩
    · simpa [names, promised, running] using hname
    · exact fun c hc => absurd hc List.not_mem_nil
    · exact fun c hc => absurd hc List.not_mem_nil
  have hkept := hmeets.invariant (fun p move h hok => h.step coversDir move hok) hinit
  exact within_iff.mp hkept.present

/-! ## A book that comes back without its cover -/

def plainCodec : Lifecycle.Codec := ⟨fun _ => .null, fun _ => ""⟩

/-- What a command draws at a time. -/
def drawnAt (now fresh : String) (entries : List String) : Drawn where
  now := now
  expiresAt := "9"
  fresh := fresh
  entries := entries

/-- The next command, up to its end. -/
def alone (i : ℕ) (command : Command) (drawn : Drawn) : List Move :=
  .start command :: List.replicate 40 (.step i drawn)

/-- The signature of a PNG. -/
def pickedImage : Image := ⟨"image/png", [0x89, 0x50, 0x4e, 0x47, 0x0d, 0x0a, 0x1a, 0x0a]⟩

def pickedCover : String := destination "covers" pickedImage

/-- A file without a cover is imported, and its book gets the picked one. -/
def coverPicked : List Move :=
  alone 0 (.importFile "/a.pdf" (some (.pdf ⟨"A", none, none⟩ (.error "no PDFium"))) (some (1, 1))
    (.ok ⟨"hash", 1, 1⟩)) (drawnAt "1" "a" []) ++
  alone 1 (.setBookCover "a" (.ok pickedImage.data)) (drawnAt "2" "" [])

/-- A sweep of the covers directory, which holds an old file too. -/
def sweepAt (i : ℕ) (now : String) : List Move :=
  alone i .sweep (drawnAt now "" ["covers/old.png", pickedCover])

/-- A sweep deletes an old cover and keeps the picked one. -/
theorem covers_kept_sample :
    pickedCover ∈ (run plainCodec "covers" { covers := ["covers/old.png"] }
      (coverPicked ++ sweepAt 2 "3")).store.covers :=
  covers_kept plainCodec "covers" { covers := ["covers/old.png"] } (by decide) _
    (by unfold RunMeets; decide +kernel) _ (by decide +kernel)

/-- Forget, a sweep, and Restore. -/
def forgotten : List Move :=
  coverPicked ++ alone 2 (.forget "a") (drawnAt "3" "b" []) ++ sweepAt 3 "4" ++
    alone 4 (.restore 1 none) (drawnAt "5" "" [])

/-- **A restored book has lost its cover.** While the book is in the trash no record and no file row
names the picked cover, so a sweep deletes it. -/
theorem forgotten_cover_lost :
    (run plainCodec "covers" {} forgotten).Returned ∧
    ((run plainCodec "covers" {} forgotten).store.catalog.records.lookup "a").bind
      (·.values.coverPath) = some pickedCover ∧
    pickedCover ∉ (run plainCodec "covers" {} forgotten).store.covers := by
  decide +kernel

end Artwork

end TuxBooks
