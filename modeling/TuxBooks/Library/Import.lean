import Mathlib.Data.List.Basic
import TuxBooks.Device.Steps
import TuxBooks.Epub.Metadata
import TuxBooks.Library.Relink

set_option relaxedAutoImplicit false
set_option autoImplicit false

/-!
# Importing a directory

`import_directory`: the files that changed are parsed by a few workers, and what they produce is
persisted in the order of arrival. A file that does not parse goes into the report. Persisting a
file writes its row, the source snapshot, the effective metadata and the binding of its hash, each
in its own transaction. An import that is not cancelled is meant here.

What a document parses to, the cover that is drawn and the bytes that are hashed come with the file.

## Main definitions

* `TuxBooks.Import.persist` — persist one parsed file.
* `TuxBooks.Import.importDirectory` — a whole run.
* `TuxBooks.Import.Isolates` — what a run over some files is to do.
* `TuxBooks.Import.Accepts` — the catalog takes the metadata of a file.

## Main results

* `TuxBooks.Import.isolates_iff` — a run isolates its files exactly when the catalog takes each one
  when its turn comes.
* `TuxBooks.Import.accepts_parsed_iff` — what that means for a package document that was parsed.
-/

namespace TuxBooks

namespace Import

open Fallible Relink

/-! ## Parsed files -/

structure PdfMetadata where
  title : String
  author : Option String
  description : Option String

inductive ScannedBook where
  | epub (metadata : Epub.EpubMetadata)
  | pdf (metadata : PdfMetadata)

/-- Size and time of a file; nothing stands for a file that cannot be read. -/
abbrev FileStats := Option (ℤ × ℤ)

def toNewBook (metadata : Epub.EpubMetadata) (coverPath : Option String) (stats : FileStats) :
    NewBook where
  title := metadata.title
  subtitle := metadata.subtitle
  author := metadata.author
  authors := metadata.authors
  subjects := metadata.subjects
  publisher := metadata.publisher
  language := metadata.language
  isbn := metadata.isbn
  description := metadata.description
  publicationDate := metadata.publicationDate
  series := metadata.series
  seriesIndex := metadata.seriesIndex
  coverPath := coverPath
  fileSize := (stats.getD (0, 0)).1
  fileMtime := (stats.getD (0, 0)).2

def pdfToNewBook (metadata : PdfMetadata) (coverPath : Option String) (stats : FileStats) :
    NewBook where
  title := metadata.title
  author := metadata.author
  authors := metadata.author.toList
  description := metadata.description
  coverPath := coverPath
  fileSize := (stats.getD (0, 0)).1
  fileMtime := (stats.getD (0, 0)).2

/-- A file that the walk of the directory finds. -/
structure Found where
  path : String
  stats : FileStats
  parsed : Except String ScannedBook
  /-- The cover that is drawn, given the one of the file row. -/
  cover : ScannedBook → Option String → Except String (Option String)
  /-- What hashing the file reads. -/
  onDisk : Except String Hashed
  drawn : Drawn

/-- What a worker sends. -/
structure Message where
  path : String
  result : Except String NewBook
  onDisk : Except String Hashed
  drawn : Drawn

/-- `parse_book`, then `new_book_from_parsed`. -/
def Found.message (f : Found) (previousCover : Option String) : Message where
  path := f.path
  result := do
    let parsed ← f.parsed
    let coverPath ← f.cover parsed previousCover
    return match parsed with
      | .epub metadata => toNewBook metadata coverPath f.stats
      | .pdf metadata => pdfToNewBook metadata coverPath f.stats
  onDisk := f.onDisk
  drawn := f.drawn

/-- The files that are parsed: those that are new or have changed. -/
def queue (s : Shelf) (files : List Found) : List Message :=
  files.filterMap fun f =>
    match s.places.entries.find? fun e => e.2.path == f.path with
    | some ⟨file, place⟩ =>
      if place.available ∧ f.stats = some (place.fileSize, place.fileMtime) then none
      else some (f.message ((s.device.catalog.files.lookup file).bind (·.coverPath)))
    | none => some (f.message none)

/-! ## Persisting one file -/

section

variable (jsonReal : ℚ → Value)

/-- A row that was just seen on disk again. -/
def seenAgain (p : Place) (b : NewBook) : Place :=
  { p with
    fileSize := b.fileSize
    fileMtime := b.fileMtime
    available := true
    hashState := if p.available = false ∨ p.fileSize ≠ b.fileSize ∨ p.fileMtime ≠ b.fileMtime then
        .pending
      else p.hashState }

/-- `update_book_by_path`, for the row of the path. -/
def updateBookByPath (s : Shelf) (file : ℤ) (b : NewBook) (now : String) :
    Shelf × Except AppError Unit :=
  if ¬b.Titled then (s, .error (.database "CHECK constraint failed"))
  else
    ({ s with
      device := { s.device with catalog := { s.device.catalog with
        files := s.device.catalog.files.mapRows fun i (f : FileRow) =>
          if i = file then refresh f b now else f } }
      places := s.places.mapRows fun i (p : Place) => if i = file then seenAgain p b else p },
      .ok ())

/-- `insert_file_row`: a file row with a new book, whose record a trigger inserts. -/
def insertFileRow (s : Shelf) (path : String) (b : NewBook) (drawn : Drawn) :
    Shelf × Except AppError ℤ :=
  if ¬b.Titled then (s, .error (.database "CHECK constraint failed"))
  else
    let row : FileRow :=
      refresh { bookUid := some drawn.fresh, modifiedAt := drawn.now, title := b.title } b drawn.now
    let c : Catalog := { s.device.catalog with
      files := s.device.catalog.files.insert s.nextFile row }
    ({ s.setCatalog (c.ensureBookRecord s.nextFile drawn.now) with
      places := s.places.insert s.nextFile (seenAt path b) }, .ok s.nextFile)

/-- `record_imported_source` on the shelf. -/
def recordSource (s : Shelf) (file : ℤ) (b : NewBook) : Shelf × Except AppError Unit :=
  let recorded := recordImportedSource jsonReal s.device.catalog file b
  (s.setCatalog recorded.1, recorded.2)

/-- The file row points at a durable record. -/
def durable (s : Shelf) (file : ℤ) : Bool :=
  (s.device.catalog.fileUid file).any s.device.catalog.hasRecord

/-- `upsert_file`: the file row, and whether it was inserted. -/
def upsertFile (s : Shelf) (path : String) (b : NewBook) (drawn : Drawn) :
    Shelf × Except AppError (ℤ × Bool) :=
  match s.fileAt path with
  | some file =>
    andThen (updateBookByPath s file b drawn.now) fun s _ =>
    andThen (recordSource jsonReal s file b) fun s _ =>
    if durable s file then (s, .ok (file, false))
    else (s, .error (.invalidInput "book row has no durable record"))
  | none =>
    andThen (insertFileRow s path b drawn) fun s file =>
    andThen (recordSource jsonReal s file b) fun s _ =>
    if durable s file then (s, .ok (file, true))
    else (s, .error (.invalidInput "new book has no durable record"))

/-- The row, the source snapshot and the effective metadata of a parsed file. -/
def store (s : Shelf) (path : String) (b : NewBook) (drawn : Drawn) :
    Shelf × Except AppError (ℤ × Bool) :=
  andThen (upsertFile jsonReal s path b drawn) fun s upserted =>
  andThen (recordSource jsonReal s upserted.1 b) fun s _ => (s, .ok upserted)

/-- `finalize_import`: hash the file and bind the row before the book is shown. -/
def finalizeImport (s : Shelf) (file : ℤ) (onDisk : Except String Hashed) (drawn : Drawn) :
    Shelf × Except AppError Unit :=
  let s := ensureBookIdentity jsonReal drawn s file onDisk
  if durable s file then (s, .ok ())
  else (s, .error (.invalidInput "imported book has no durable record"))

/-- Persist a parsed file, and whether its row was inserted. -/
def persist (s : Shelf) (m : Message) (b : NewBook) : Shelf × Except AppError Bool :=
  andThen (store jsonReal s m.path b m.drawn) fun s upserted =>
  andThen (finalizeImport jsonReal s upserted.1 m.onDisk m.drawn) fun s _ => (s, .ok upserted.2)

/-! ## A run -/

structure FailedImport where
  path : String
  error : String
  deriving DecidableEq

structure ImportReport where
  imported : ℕ := 0
  updated : ℕ := 0
  skipped : ℕ := 0
  failed : List FailedImport := []
  deriving DecidableEq

def bump (report : ImportReport) (inserted : Bool) : ImportReport :=
  if inserted then { report with imported := report.imported + 1 }
  else { report with updated := report.updated + 1 }

/-- The messages of the workers in their order of arrival. A file that is not persisted ends the
run. -/
def receive (s : Shelf) (report : ImportReport) :
    List Message → Shelf × Except AppError ImportReport
  | [] => (s, .ok report)
  | m :: messages =>
    match m.result with
    | .error error =>
      receive s { report with failed := report.failed ++ [⟨m.path, error⟩] } messages
    | .ok b => andThen (persist jsonReal s m b) fun s inserted =>
      receive s (bump report inserted) messages

/-- `import_directory`. The parsed files arrive in some order. -/
def importDirectory (s : Shelf) (files : List Found) (arrival : List Message → List Message) :
    Shelf × Except AppError ImportReport :=
  let queued := queue s files
  receive jsonReal s { skipped := files.length - queued.length } (arrival queued)

end

/-! ## What binding a file leaves -/

/-- The file row points at a book that has its record. -/
def Bound (file : ℤ) (c : Catalog) : Prop :=
  ∃ uid, c.fileUid file = some uid ∧ c.hasRecord uid = true

/-- The source snapshot of a file row. -/
def Sourced (file : ℤ) (source : SourceMetadata) (c : Catalog) : Prop :=
  ∃ f, c.files.lookup file = some f ∧ f.source = some source

/-- What no step of a binding makes false. -/
structure Stable (jsonReal : ℚ → Value) (P : Catalog → Prop) : Prop where
  fold : ∀ {c : Catalog} {loser winner : String}, loser ≠ winner → P c →
    P ((c.mergeBook jsonReal loser winner).recomputePrimary jsonReal winner).1
  point : ∀ {c : Catalog} {file : ℤ}, (c.files.lookup file).isSome → ∀ uid now, P c →
    P ((c.pointFile file uid).ensureBookRecord file now)
  mark : ∀ {c : Catalog} key marker, P c → P (c.mark key marker)

/-- What the frame and the fold of a book keep. -/
structure Steady (P : Catalog → Prop) : Prop where
  frame : ∀ {c c'}, Catalog.Frame c c' → P c → P c'
  folded : ∀ {loser winner c c'}, loser ≠ winner → Catalog.Folded loser winner c c' → P c → P c'
  point : ∀ {c : Catalog} {file : ℤ}, (c.files.lookup file).isSome → ∀ uid now, P c →
    P ((c.pointFile file uid).ensureBookRecord file now)
  mark : ∀ {c : Catalog} key marker, P c → P (c.mark key marker)

section Steady

lemma files_ensureBookRecord (c : Catalog) (file : ℤ) (now : String) :
    (c.ensureBookRecord file now).files = c.files := by
  unfold Catalog.ensureBookRecord
  split
  · split
    · split <;> rfl
    · rfl
  · rfl

lemma fileUid_ensureBookRecord (c : Catalog) (file : ℤ) (now : String) (i : ℤ) :
    (c.ensureBookRecord file now).fileUid i = c.fileUid i := by
  unfold Catalog.fileUid
  rw [files_ensureBookRecord]

/-- No record goes. -/
lemma hasRecord_ensureBookRecord {c : Catalog} {uid : String} (h : c.hasRecord uid = true)
    (file : ℤ) (now : String) : (c.ensureBookRecord file now).hasRecord uid = true := by
  unfold Catalog.ensureBookRecord
  split
  · split
    · split
      · exact h
      · rw [Catalog.hasRecord_insert_eq, h, Bool.or_true]
    · exact h
  · exact h

/-- A file row that points at a book is bound afterwards. -/
lemma bound_ensureBookRecord {c : Catalog} {file : ℤ} {uid : String}
    (h : c.fileUid file = some uid) (now : String) : Bound file (c.ensureBookRecord file now) := by
  refine ⟨uid, ?_, ?_⟩
  · rw [fileUid_ensureBookRecord]
    exact h
  · obtain ⟨f, hf, huid⟩ := Option.bind_eq_some_iff.mp h
    unfold Catalog.ensureBookRecord
    simp only [hf, huid]
    split
    · assumption
    · rw [Catalog.hasRecord_insert_eq]
      simp

lemma lookup_pointFile (c : Catalog) (file : ℤ) (uid : String) (i : ℤ) :
    (c.pointFile file uid).files.lookup i =
      (c.files.lookup i).map fun f => if i = file then { f with bookUid := some uid } else f :=
  Table.lookup_mapRows _ _ _

lemma lookup_moveFiles (c : Catalog) (loser winner : String) (i : ℤ) :
    (c.moveFiles loser winner).files.lookup i = (c.files.lookup i).map fun f =>
      if f.bookUid = some loser then { f with bookUid := some winner } else f :=
  Table.lookup_mapRows _ _ _

lemma steady_sourced (file : ℤ) (source : SourceMetadata) : Steady (Sourced file source) where
  frame h := by
    rintro ⟨f, hf, hsource⟩
    exact ⟨f, h.files ▸ hf, hsource⟩
  folded {loser winner c c'} _ h := by
    rintro ⟨f, hf, hsource⟩
    refine ⟨if f.bookUid = some loser then { f with bookUid := some winner } else f, ?_, ?_⟩
    · rw [h.files, lookup_moveFiles, hf]
      rfl
    · split
      · exact hsource
      · exact hsource
  point {c file'} _ uid now := by
    rintro ⟨f, hf, hsource⟩
    refine ⟨if file = file' then { f with bookUid := some uid } else f, ?_, ?_⟩
    · rw [files_ensureBookRecord, lookup_pointFile, hf]
      rfl
    · split
      · exact hsource
      · exact hsource
  mark _ _ h := h

lemma steady_bound (file : ℤ) : Steady (Bound file) where
  frame {c c'} h := by
    rintro ⟨uid, huid, hrecord⟩
    refine ⟨uid, ?_, (h.record uid).trans hrecord⟩
    unfold Catalog.fileUid
    rw [h.files]
    exact huid
  folded {loser winner c c'} hne h := by
    rintro ⟨uid, huid, hrecord⟩
    obtain ⟨f, hf, hbook⟩ := Option.bind_eq_some_iff.mp huid
    have huid' : c'.fileUid file = if uid = loser then some winner else some uid := by
      unfold Catalog.fileUid
      rw [h.files, lookup_moveFiles, hf, Option.map_some, Option.bind_some, hbook]
      by_cases heq : uid = loser
      · rw [if_pos (congrArg some heq), if_pos heq]
      · rw [if_neg fun h => heq (Option.some.inj h), if_neg heq]
        exact hbook
    by_cases heq : uid = loser
    · refine ⟨winner, huid'.trans (if_pos heq), ?_⟩
      rw [h.record, ← heq, hrecord]
      simp [heq, hne.symm]
    · refine ⟨uid, huid'.trans (if_neg heq), ?_⟩
      rw [h.record, hrecord]
      simp [heq]
  point {c file'} hfile uid now := by
    rintro ⟨uid', huid', hrecord⟩
    obtain ⟨f, hf⟩ := Option.isSome_iff_exists.mp hfile
    by_cases heq : file = file'
    · subst heq
      refine bound_ensureBookRecord (?_ : (c.pointFile file uid).fileUid file = some uid) now
      unfold Catalog.fileUid
      rw [lookup_pointFile, hf, Option.map_some, if_pos rfl, Option.bind_some]
    · refine ⟨uid', ?_, hasRecord_ensureBookRecord (c := c.pointFile file' uid) hrecord file' now⟩
      unfold Catalog.fileUid at huid' ⊢
      rw [files_ensureBookRecord, lookup_pointFile, Option.bind_map]
      simp only [Function.comp_def, if_neg heq]
      exact huid'
  mark _ _ h := h

variable {P : Catalog → Prop} {jsonReal : ℚ → Value} {d : Device}

lemma Steady.stable (h : Steady P) : Stable jsonReal P where
  fold {c loser winner} hne hc := by
    have hfolded := h.folded hne (Catalog.folded_mergeBook jsonReal c loser winner) hc
    exact h.frame (Catalog.frame_recomputePrimary jsonReal _ winner) hfolded
  point := h.point
  mark := h.mark

lemma Stable.mergeBookIdentity (h : Stable jsonReal P) (hd : P d.catalog) (loser winner : String) :
    P (d.mergeBookIdentity jsonReal loser winner).1.catalog := by
  unfold Device.mergeBookIdentity
  generalize d.mirror.canonicalBookUid winner = w, d.mirror.canonicalBookUid loser = l
  dsimp only
  split_ifs with heq hforgotten
  · exact hd
  · exact hd
  · dsimp only
    exact h.fold heq hd

lemma Stable.foldCurrent (h : Stable jsonReal P) (hd : P d.catalog) (current : Option String)
    (uid : String) : P (d.foldCurrent jsonReal current uid).1.catalog := by
  unfold Device.foldCurrent
  split
  · dsimp only
    split_ifs
    · exact h.mergeBookIdentity hd _ _
    · exact hd
  · exact hd

lemma Stable.foldKnown (h : Stable jsonReal P) (hd : P d.catalog) (existing known : Option String)
    (uid : String) : P (d.foldKnown jsonReal existing known uid).1.catalog := by
  unfold Device.foldKnown
  cases existing with
  | some existing =>
    cases known with
    | some known =>
      dsimp only
      split_ifs
      · exact h.mergeBookIdentity hd _ _
      · exact h.mergeBookIdentity hd _ _
      · exact hd
    | none =>
      dsimp only
      split_ifs
      · exact h.mergeBookIdentity hd _ _
      · exact hd
  | none =>
    cases known with
    | some known =>
      dsimp only
      split_ifs
      · exact h.mergeBookIdentity hd _ _
      · exact hd
    | none => exact hd

/-- **Binding a file keeps what its steps keep.** -/
theorem Stable.bindHash (h : Stable jsonReal P) (hd : P d.catalog) (book : ℤ) (contentHash : String)
    (size mtime : ℤ) (fresh now : String) :
    P (d.bindHash jsonReal book contentHash size mtime fresh now).1.catalog := by
  unfold Device.bindHash
  dsimp only
  refine andThen_inv (P := fun d : Device => P d.catalog) (h.foldCurrent hd _ _) fun d _ hd => ?_
  refine andThen_inv (P := fun d : Device => P d.catalog) (h.foldKnown hd _ _ _) fun d _ hd => ?_
  split_ifs with hfile hmark
  · exact hd
  · exact h.mark _ _ (h.point (Option.isSome_iff_ne_none.mpr (by simpa using hfile)) _ _ hd)
  · exact h.point (Option.isSome_iff_ne_none.mpr (by simpa using hfile)) _ _ hd

lemma Stable.ensureBookIdentity (h : Stable jsonReal P) {s : Shelf} {file : ℤ}
    (hfile : (s.device.catalog.files.lookup file).isSome) (hs : P s.device.catalog)
    (onDisk : Except String Hashed) (drawn : Drawn) :
    P (ensureBookIdentity jsonReal drawn s file onDisk).device.catalog := by
  unfold Relink.ensureBookIdentity
  cases s.places.lookup file with
  | none => exact hs
  | some place =>
    dsimp only
    split
    · exact hs
    · split
      · exact h.point hfile _ _ hs
      · split
        · exact hs
        · split
          · exact h.bindHash hs file _ _ _ _ _
          · exact h.bindHash hs file _ _ _ _ _

/-- The rows on the shelf stay. -/
lemma places_ensureBookIdentity (jsonReal : ℚ → Value) (s : Shelf) (file : ℤ)
    (onDisk : Except String Hashed) (drawn : Drawn) (i : ℤ) :
    ((ensureBookIdentity jsonReal drawn s file onDisk).places.lookup i).isSome =
      (s.places.lookup i).isSome := by
  have hstate : ∀ (s : Shelf) (state : HashState),
      ((s.setHashState file state).places.lookup i).isSome = (s.places.lookup i).isSome := by
    intro s state
    unfold Shelf.setHashState
    rw [Table.lookup_mapRows, Option.isSome_map]
  unfold Relink.ensureBookIdentity
  cases s.places.lookup file with
  | none => rfl
  | some place =>
    dsimp only
    split
    · rfl
    · split
      · exact hstate _ _
      · split
        · exact hstate _ _
        · split
          · rw [Table.lookup_mapRows, Option.isSome_map]
          · exact hstate _ _

end Steady

/-! ## Recording a source -/

section Record

variable {jsonReal : ℚ → Value} {c : Catalog} {file : ℤ} {b : NewBook} {uid : String}

/-- The overrides of a book. -/
def overridesOf (c : Catalog) (uid : String) : OverrideRow := (c.overrides.lookup uid).getD {}

/-- The lists that still follow the file name nobody twice, and a title is left. -/
structure Takes (o : OverrideRow) (b : NewBook) : Prop where
  lists : ∀ list, o.customized list = false → (b.sourceMetadata.names list).Nodup
  title : trim (rawTitle o b.sourceMetadata) ≠ ""

/-- The effective metadata of a book is that of a file row under the overrides of the user. -/
def Effective (c : Catalog) (file : ℤ) (source : SourceMetadata) : Prop :=
  ∃ uid r, c.fileUid file = some uid ∧ c.records.lookup uid = some r ∧
    r.values = c.effectiveValues uid (trim (rawTitle (overridesOf c uid) source))
      (overridesOf c uid) source

/-- The source snapshot is written first. -/
def withSource (c : Catalog) (file : ℤ) (b : NewBook) : Catalog :=
  { c with files := c.files.mapRows fun i (f : FileRow) =>
      if i = file then { f with source := some b.sourceMetadata } else f }

lemma fileUid_withSource (c : Catalog) (file i : ℤ) (b : NewBook) :
    (withSource c file b).fileUid i = c.fileUid i := by
  unfold Catalog.fileUid withSource
  rw [Table.lookup_mapRows, Option.bind_map]
  refine congrArg _ (funext fun f => ?_)
  dsimp only [Function.comp_def]
  split <;> rfl

lemma recordImportedSource_eq (h : c.fileUid file = some uid) :
    recordImportedSource jsonReal c file b =
      (withSource c file b).recomputeEffective jsonReal uid b.sourceMetadata := by
  have huid := (fileUid_withSource c file file b).trans h
  unfold recordImportedSource
  dsimp only
  unfold withSource at huid ⊢
  rw [huid]

/-- Recording succeeds when the catalog takes the metadata. -/
lemma recordImportedSource_ok_iff (h : c.fileUid file = some uid)
    (hrecord : c.hasRecord uid = true) :
    (recordImportedSource jsonReal c file b).2 = .ok () ↔ Takes (overridesOf c uid) b := by
  rw [recordImportedSource_eq h, Catalog.recomputeEffective_ok_iff]
  constructor
  · intro hok
    exact ⟨fun list hlist => (hok.lists list hlist).1, hok.title⟩
  · intro htakes
    exact ⟨fun list hlist => ⟨htakes.lists list hlist, fun _ => hrecord⟩, htakes.title⟩

/-- Recording leaves books, records, and overrides. -/
lemma recordImportedSource_keeps (h : c.fileUid file = some uid) :
    (∀ i, (recordImportedSource jsonReal c file b).1.fileUid i = c.fileUid i) ∧
      (∀ uid', (recordImportedSource jsonReal c file b).1.hasRecord uid' = c.hasRecord uid') ∧
      (recordImportedSource jsonReal c file b).1.overrides = c.overrides := by
  rw [recordImportedSource_eq h]
  have hframe := Catalog.frame_recomputeEffective jsonReal (withSource c file b)
    uid b.sourceMetadata
  refine ⟨fun i => ?_, hframe.record, ?_⟩
  · refine Eq.trans ?_ (fileUid_withSource c file i b)
    unfold Catalog.fileUid
    rw [hframe.files]
  · exact (Catalog.keepsOwned_recomputeEffective rfl b.sourceMetadata).overrides

/-- The source snapshot stays even when recording fails. -/
lemma sourced_recordImportedSource (h : c.fileUid file = some uid) :
    Sourced file b.sourceMetadata (recordImportedSource jsonReal c file b).1 := by
  rw [recordImportedSource_eq h]
  obtain ⟨f, hf, _⟩ := Option.bind_eq_some_iff.mp h
  refine (steady_sourced file b.sourceMetadata).frame
    (Catalog.frame_recomputeEffective jsonReal _ uid b.sourceMetadata)
    ⟨{ f with source := some b.sourceMetadata }, ?_, rfl⟩
  unfold withSource
  rw [Table.lookup_mapRows, hf, Option.map_some, if_pos rfl]

/-- The values that recomputing writes. -/
lemma recomputeEffective_values (hrecord : c.hasRecord uid = true) {source : SourceMetadata}
    (hok : (c.recomputeEffective jsonReal uid source).2 = .ok ()) :
    ∃ r, (c.recomputeEffective jsonReal uid source).1.records.lookup uid = some r ∧
      r.values = (c.recomputeEffective jsonReal uid source).1.effectiveValues uid
        (trim (rawTitle (overridesOf c uid) source)) (overridesOf c uid) source ∧
      r.seriesId = r.values.series := by
  unfold Catalog.recomputeEffective at hok ⊢
  dsimp only at hok ⊢
  obtain ⟨_, hauthors, hok⟩ := andThen_eq_ok.mp hok
  obtain ⟨_, hsubjects, hok⟩ := andThen_eq_ok.mp hok
  rw [andThen_of_ok hauthors, andThen_of_ok hsubjects]
  have hhas := (Catalog.frame_followSource jsonReal c .authors uid
    ((c.overrides.lookup uid).getD {}) source).trans
    (Catalog.frame_followSource jsonReal _ .subjects uid ((c.overrides.lookup uid).getD {}) source)
  generalize (Catalog.followSource jsonReal (c.followSource jsonReal .authors uid
    ((c.overrides.lookup uid).getD {}) source).1 .subjects uid
    ((c.overrides.lookup uid).getD {}) source).1 = followed at hok hhas ⊢
  obtain ⟨r, hr⟩ := Option.isSome_iff_exists.mp ((hhas.record uid).trans hrecord)
  unfold cleanRequired at hok ⊢
  by_cases hblank : trim (rawTitle ((c.overrides.lookup uid).getD {}) source) = ""
  · rw [if_pos hblank] at hok
    cases hok
  · rw [if_neg hblank]
    dsimp only
    unfold Catalog.applyEffective
    rw [hr]
    exact ⟨_, AList.lookup_insert _, rfl, rfl⟩

/-- Recording that succeeds leaves the effective metadata. -/
lemma effective_recordImportedSource (h : c.fileUid file = some uid)
    (hrecord : c.hasRecord uid = true)
    (hok : (recordImportedSource jsonReal c file b).2 = .ok ()) :
    Effective (recordImportedSource jsonReal c file b).1 file b.sourceMetadata := by
  obtain ⟨huid, _, hoverrides⟩ := recordImportedSource_keeps h
  have huid := (huid file).trans h
  have hsame : overridesOf (recordImportedSource jsonReal c file b).1 uid = overridesOf c uid := by
    unfold overridesOf
    rw [hoverrides]
  obtain ⟨r, hr, hvalues, -⟩ := recomputeEffective_values (c := withSource c file b) hrecord
    (recordImportedSource_eq h ▸ hok)
  refine ⟨uid, r, huid, ?_, ?_⟩
  · rw [recordImportedSource_eq h]
    exact hr
  · rw [hsame, recordImportedSource_eq h]
    exact hvalues

end Record

/-! ## Storing a file -/

/-- Every row on the shelf has a book with a record. -/
def Shelved (s : Shelf) : Prop :=
  ∀ i, (s.places.lookup i).isSome → Bound i s.device.catalog

/-- The book that a path is imported for: that of its row, or a new one. -/
def bookOf (s : Shelf) (m : Message) : String :=
  ((s.fileAt m.path).bind s.device.catalog.fileUid).getD m.drawn.fresh

/-- **The catalog takes the metadata of a file.** -/
def Accepts (s : Shelf) (m : Message) (b : NewBook) : Prop :=
  b.Titled ∧ Takes (overridesOf s.device.catalog (bookOf s m)) b

/-- A file row is there for a path, with the book of the path. -/
structure Entered (s₀ : Shelf) (path uid : String) (file : ℤ) (s : Shelf) : Prop where
  fileAt : s.fileAt path = some file
  place : (s.places.lookup file).isSome
  fileUid : s.device.catalog.fileUid file = some uid
  record : s.device.catalog.hasRecord uid = true
  overrides : s.device.catalog.overrides = s₀.device.catalog.overrides
  shelved : Shelved s

section Store

variable {jsonReal : ℚ → Value} {s s₀ s' : Shelf} {path uid : String} {file : ℤ} {b : NewBook}
  {drawn : Drawn}

lemma Entered.durable (h : Entered s₀ path uid file s) : durable s file = true := by
  unfold Import.durable
  rw [h.fileUid]
  exact h.record

/-- The row of a path is on the shelf. -/
lemma place_of_fileAt (h : s.fileAt path = some file) : (s.places.lookup file).isSome := by
  obtain ⟨⟨i, place⟩, hfind, rfl⟩ := Option.map_eq_some_iff.mp h
  rw [Table.lookup_eq_some_iff.mpr (List.mem_of_find?_eq_some hfind)]
  rfl

/-- Rows keep their paths. -/
lemma fileAt_mapRows {f : ℤ → Place → Place} (hf : ∀ i p, (f i p).path = p.path) :
    ({ s with places := s.places.mapRows f } : Shelf).fileAt path = s.fileAt path := by
  unfold Shelf.fileAt Table.mapRows
  dsimp only
  rw [List.find?_map, Option.map_map]
  simp only [Function.comp_def, hf]

lemma bound_mapRows {c : Catalog} {f : ℤ → FileRow → FileRow}
    (hf : ∀ i r, (f i r).bookUid = r.bookUid) (i : ℤ) :
    Catalog.fileUid { c with files := c.files.mapRows f } i = c.fileUid i := by
  unfold Catalog.fileUid
  rw [Table.lookup_mapRows, Option.bind_map]
  exact congrArg _ (funext fun r => hf i r)

/-- A known path. -/
lemma entered_updateBookByPath (hs : Shelved s) (hpath : s.fileAt path = some file)
    (huid : s.device.catalog.fileUid file = some uid) (htitled : b.Titled) (now : String) :
    (updateBookByPath s file b now).2 = .ok () ∧
      Entered s path uid file (updateBookByPath s file b now).1 := by
  have hplace := place_of_fileAt hpath
  unfold updateBookByPath
  rw [if_neg (not_not.mpr htitled)]
  have hfile : ∀ i, Catalog.fileUid { s.device.catalog with
      files := s.device.catalog.files.mapRows fun i (f : FileRow) =>
        if i = file then refresh f b now else f } i = s.device.catalog.fileUid i :=
    bound_mapRows fun i r => by
      split <;> rfl
  have hrecord : s.device.catalog.hasRecord uid = true := by
    obtain ⟨uid', huid', hrecord⟩ := hs file hplace
    rw [huid] at huid'
    obtain rfl := Option.some.inj huid'
    exact hrecord
  refine ⟨rfl, ?_, ?_, (hfile file).trans huid, hrecord, rfl, ?_⟩
  · refine Eq.trans ?_ hpath
    refine fileAt_mapRows (f := fun i (p : Place) => if i = file then seenAgain p b else p) ?_
    intro i p
    split <;> rfl
  · dsimp only
    rw [Table.lookup_mapRows, Option.isSome_map]
    exact hplace
  · intro i hi
    dsimp only at hi
    rw [Table.lookup_mapRows, Option.isSome_map] at hi
    obtain ⟨uid', huid', hrecord'⟩ := hs i hi
    exact ⟨uid', (hfile i).trans huid', hrecord'⟩

/-- A new path. -/
lemma entered_insertFileRow (hs : Shelved s) (htitled : b.Titled) (drawn : Drawn) :
    (insertFileRow s path b drawn).2 = .ok s.nextFile ∧
      Entered s path drawn.fresh s.nextFile (insertFileRow s path b drawn).1 := by
  unfold insertFileRow
  rw [if_neg (not_not.mpr htitled)]
  dsimp only
  have hbook : (refresh { bookUid := some drawn.fresh, modifiedAt := drawn.now, title := b.title } b
      drawn.now).bookUid = some drawn.fresh := rfl
  generalize refresh { bookUid := some drawn.fresh, modifiedAt := drawn.now, title := b.title } b
    drawn.now = row at hbook ⊢
  have hnew : Catalog.fileUid { s.device.catalog with
      files := s.device.catalog.files.insert s.nextFile row } s.nextFile = some drawn.fresh := by
    unfold Catalog.fileUid
    rw [AList.lookup_insert, Option.bind_some, hbook]
  obtain ⟨uid, huid, hrecord⟩ := bound_ensureBookRecord hnew drawn.now
  obtain rfl := Option.some.inj
    ((huid.symm.trans (fileUid_ensureBookRecord _ _ _ s.nextFile)).trans hnew)
  refine ⟨rfl, ?_, ?_, huid, hrecord, ?_, fun i hi => ?_⟩
  · unfold Shelf.fileAt
    dsimp only
    rw [AList.entries_insert, List.find?_cons_of_pos (by simp [seenAt])]
    rfl
  · dsimp only
    rw [AList.lookup_insert]
    rfl
  · unfold Catalog.ensureBookRecord Shelf.setCatalog
    dsimp only
    split
    · split
      · split <;> rfl
      · rfl
    · rfl
  · by_cases heq : i = s.nextFile
    · subst heq
      exact ⟨_, huid, hrecord⟩
    · dsimp only at hi
      rw [AList.lookup_insert_ne heq] at hi
      obtain ⟨uid', huid', hrecord'⟩ := hs i hi
      have hold : Catalog.fileUid { s.device.catalog with
          files := s.device.catalog.files.insert s.nextFile row } i = some uid' := by
        unfold Catalog.fileUid
        rw [AList.lookup_insert_ne heq]
        exact huid'
      exact ⟨uid', (fileUid_ensureBookRecord _ _ _ i).trans hold,
        hasRecord_ensureBookRecord (c := { s.device.catalog with
          files := s.device.catalog.files.insert s.nextFile row }) hrecord' _ _⟩

variable (jsonReal b) in
/-- Recording the source of a row that was entered. -/
lemma Entered.recordSource (h : Entered s₀ path uid file s) :
    Entered s₀ path uid file (recordSource jsonReal s file b).1 ∧
      Sourced file b.sourceMetadata (recordSource jsonReal s file b).1.device.catalog ∧
      ((recordSource jsonReal s file b).2 = .ok () ↔
        Takes (overridesOf s₀.device.catalog uid) b) ∧
      ((recordSource jsonReal s file b).2 = .ok () →
        Effective (recordSource jsonReal s file b).1.device.catalog file b.sourceMetadata) := by
  obtain ⟨hfiles, hrecords, hoverrides⟩ := @recordImportedSource_keeps jsonReal _ _ b _ h.fileUid
  have hsame : overridesOf s.device.catalog uid = overridesOf s₀.device.catalog uid := by
    unfold overridesOf
    rw [h.overrides]
  refine ⟨⟨h.fileAt, h.place, (hfiles file).trans h.fileUid, (hrecords uid).trans h.record,
      hoverrides.trans h.overrides, fun i hi => ?_⟩, sourced_recordImportedSource h.fileUid, ?_,
    effective_recordImportedSource h.fileUid h.record⟩
  · obtain ⟨uid', huid', hrecord'⟩ := h.shelved i hi
    exact ⟨uid', (hfiles i).trans huid', (hrecords uid').trans hrecord'⟩
  · rw [← hsame]
    exact recordImportedSource_ok_iff h.fileUid h.record

variable (jsonReal) in
/-- What `upsert_file` does once the row is there. -/
lemma upsertFile_eq (hs : Shelved s) (m : Message) (htitled : b.Titled) :
    ∃ s₁ file inserted err, Entered s m.path (bookOf s m) file s₁ ∧
      upsertFile jsonReal s m.path b m.drawn =
        andThen (recordSource jsonReal s₁ file b) fun s _ =>
          if durable s file then (s, .ok (file, inserted)) else (s, .error err) := by
  unfold upsertFile bookOf
  cases hpath : s.fileAt m.path with
  | some file =>
    obtain ⟨uid, huid, _⟩ := hs file (place_of_fileAt hpath)
    obtain ⟨hok, hentered⟩ := entered_updateBookByPath hs hpath huid htitled m.drawn.now
    rw [Option.bind_some, huid, Option.getD_some]
    exact ⟨_, file, false, _, hentered, andThen_of_ok hok _⟩
  | none =>
    obtain ⟨hok, hentered⟩ := entered_insertFileRow hs htitled m.drawn
    exact ⟨_, s.nextFile, true, _, hentered, andThen_of_ok hok _⟩

/-- A file that is stored has its row, its source snapshot and its effective metadata. -/
structure Stored (s₀ : Shelf) (m : Message) (b : NewBook) (file : ℤ) (s : Shelf) : Prop where
  entered : Entered s₀ m.path (bookOf s₀ m) file s
  sourced : Sourced file b.sourceMetadata s.device.catalog
  effective : Effective s.device.catalog file b.sourceMetadata

variable (jsonReal) in
/-- **A file is stored exactly when the catalog takes its metadata.** -/
lemma store_spec (hs : Shelved s) (m : Message) (b : NewBook) :
    (Accepts s m b → ∃ upserted, (store jsonReal s m.path b m.drawn).2 = .ok upserted ∧
      Stored s m b upserted.1 (store jsonReal s m.path b m.drawn).1) ∧
    (¬Accepts s m b → ∃ err, (store jsonReal s m.path b m.drawn).2 = .error err) := by
  by_cases htitled : b.Titled
  · obtain ⟨s₁, file, inserted, err, hentered, heq⟩ := upsertFile_eq jsonReal hs m htitled
    obtain ⟨hentered₂, _, hok₂, _⟩ := hentered.recordSource jsonReal b
    obtain ⟨hentered₃, hsourced, hok₃, heffective⟩ :=
      hentered₂.recordSource jsonReal b
    unfold store
    rw [heq]
    constructor
    · intro haccepts
      rw [andThen_of_ok (hok₂.mpr haccepts.2), if_pos hentered₂.durable, andThen_ok,
        andThen_of_ok (hok₃.mpr haccepts.2)]
      exact ⟨_, rfl, hentered₃, hsourced, heffective (hok₃.mpr haccepts.2)⟩
    · intro haccepts
      have htakes : ¬Takes (overridesOf s.device.catalog (bookOf s m)) b :=
        fun h => haccepts ⟨htitled, h⟩
      rcases hrecorded : recordSource jsonReal s₁ file b with ⟨s₂, failed | recorded⟩
      · exact ⟨failed, rfl⟩
      · rw [hrecorded] at hok₂
        exact absurd (hok₂.mp rfl) htakes
  · refine ⟨fun h => absurd h.1 htitled, fun _ => ?_⟩
    unfold store upsertFile
    cases s.fileAt m.path with
    | some file =>
      dsimp only
      unfold updateBookByPath
      rw [if_pos htitled]
      exact ⟨_, rfl⟩
    | none =>
      dsimp only
      unfold insertFileRow
      rw [if_pos htitled]
      exact ⟨_, rfl⟩

end Store

/-! ## Persisting a file -/

section Persist

variable {jsonReal : ℚ → Value} {s : Shelf} {b : NewBook}

/-- A file that is persisted: it was stored, and binding its hash left the row with its source
snapshot and a book. -/
structure Persisted (jsonReal : ℚ → Value) (s₀ : Shelf) (m : Message) (b : NewBook) (s : Shelf) :
    Prop where
  stored : ∃ file, Stored s₀ m b file (store jsonReal s₀ m.path b m.drawn).1 ∧
    Sourced file b.sourceMetadata s.device.catalog ∧ Bound file s.device.catalog
  shelved : Shelved s

variable (jsonReal) in
/-- **A file is persisted exactly when the catalog takes its metadata**, and a row that is not
refused is complete. -/
lemma persist_spec (hs : Shelved s) (m : Message) (b : NewBook) :
    (Accepts s m b → ∃ inserted, (persist jsonReal s m b).2 = .ok inserted ∧
      Persisted jsonReal s m b (persist jsonReal s m b).1) ∧
    (¬Accepts s m b → ∃ err, (persist jsonReal s m b).2 = .error err) := by
  obtain ⟨haccept, hrefuse⟩ := store_spec jsonReal hs m b
  constructor
  · intro h
    obtain ⟨⟨file, inserted⟩, hok, hstored⟩ := haccept h
    have hstore := hstored
    unfold persist
    rw [andThen_of_ok hok]
    dsimp only
    generalize (store jsonReal s m.path b m.drawn).1 = s₁ at hstored
    have hfile : (s₁.device.catalog.files.lookup file).isSome := by
      obtain ⟨f, hf, _⟩ := Option.bind_eq_some_iff.mp hstored.entered.fileUid
      rw [hf]
      rfl
    have hshelved : Shelved (ensureBookIdentity jsonReal m.drawn s₁ file m.onDisk) := by
      intro i hi
      rw [places_ensureBookIdentity] at hi
      exact (steady_bound i).stable.ensureBookIdentity hfile (hstored.entered.shelved i hi) _ _
    have hbound : Bound file (ensureBookIdentity jsonReal m.drawn s₁ file
      m.onDisk).device.catalog :=
      (steady_bound file).stable.ensureBookIdentity hfile
        ⟨_, hstored.entered.fileUid, hstored.entered.record⟩ _ _
    have hdurable : durable (ensureBookIdentity jsonReal m.drawn s₁ file m.onDisk) file = true := by
      obtain ⟨uid, huid, hrecord⟩ := hbound
      unfold durable
      rw [huid]
      exact hrecord
    unfold finalizeImport
    dsimp only
    rw [if_pos hdurable, andThen_ok]
    exact ⟨inserted, rfl, ⟨file, hstore, (steady_sourced file _).stable.ensureBookIdentity hfile
      hstored.sourced _ _, hbound⟩, hshelved⟩
  · intro h
    obtain ⟨err, herr⟩ := hrefuse h
    unfold persist
    rcases hstored : store jsonReal s m.path b m.drawn with ⟨s₁, failed | stored⟩
    · exact ⟨failed, rfl⟩
    · rw [hstored] at herr
      cases herr

end Persist

/-! ## Whole runs -/

section Runs

variable (jsonReal : ℚ → Value)

/-- What a run over a single file leaves. -/
def importAlone (s : Shelf) (m : Message) : Shelf := (receive jsonReal s {} [m]).1

/-- The state in which each message is received, when every file is imported in a run of its own. -/
def turns : Shelf → List Message → List (Shelf × Message)
  | _, [] => []
  | s, m :: messages => (s, m) :: turns (importAlone jsonReal s m) messages

/-- A file that does not parse, or that cannot be persisted. -/
def fails (turn : Shelf × Message) : Bool :=
  match turn.2.result with
  | .error _ => true
  | .ok b => !(persist jsonReal turn.1 turn.2 b).2.isOk

/-- **A run isolates its files**: it comes to its end, leaves what imports of the single files
leave, reports the files that fail and no others, and no file is persisted in part. -/
structure Isolates (s : Shelf) (messages : List Message)
    (result : Shelf × Except AppError ImportReport) : Prop where
  finished : ∃ report, result.2 = .ok report ∧
    report.failed.map (·.path) =
      ((turns jsonReal s messages).filter (fails jsonReal)).map (·.2.path)
  alone : result.1 = messages.foldl (importAlone jsonReal) s
  whole : ∀ turn ∈ turns jsonReal s messages, ∀ b, turn.2.result = .ok b →
    Persisted jsonReal turn.1 turn.2 b (persist jsonReal turn.1 turn.2 b).1 ∨
      (persist jsonReal turn.1 turn.2 b).1 = turn.1

/-- The catalog takes every file that parses when its turn comes. -/
def Accepted (s : Shelf) (messages : List Message) : Prop :=
  ∀ turn ∈ turns jsonReal s messages, ∀ b, turn.2.result = .ok b → Accepts turn.1 turn.2 b

variable {jsonReal} {s : Shelf}

lemma receive_error {m : Message} {err : String} (hresult : m.result = .error err)
    (report : ImportReport) (messages : List Message) :
    receive jsonReal s report (m :: messages) =
      receive jsonReal s { report with failed := report.failed ++ [⟨m.path, err⟩] } messages := by
  rw [receive, hresult]

lemma receive_ok {m : Message} {b : NewBook} (hresult : m.result = .ok b) (report : ImportReport)
    (messages : List Message) :
    receive jsonReal s report (m :: messages) = andThen (persist jsonReal s m b) fun s inserted =>
      receive jsonReal s (bump report inserted) messages := by
  rw [receive, hresult]

/-- A file that does not parse changes nothing. -/
lemma importAlone_error {m : Message} {err : String} (hresult : m.result = .error err) :
    importAlone jsonReal s m = s := by
  rw [importAlone, receive_error hresult]
  rfl

/-- A file that is taken in a run of its own. -/
lemma importAlone_ok {m : Message} {b : NewBook} (hs : Shelved s) (hresult : m.result = .ok b)
    (h : Accepts s m b) : importAlone jsonReal s m = (persist jsonReal s m b).1 := by
  obtain ⟨inserted, hok, _⟩ := (persist_spec jsonReal hs m b).1 h
  rw [importAlone, receive_ok hresult, andThen_of_ok hok]
  rfl

lemma accepted_of_finished {messages : List Message} (hs : Shelved s) {report final : ImportReport}
    (h : (receive jsonReal s report messages).2 = .ok final) : Accepted jsonReal s messages := by
  induction messages generalizing s report with
  | nil => exact fun turn hturn => absurd hturn List.not_mem_nil
  | cons m messages ih =>
    cases hresult : m.result with
    | error err =>
      rw [receive_error hresult] at h
      rw [Accepted, turns, importAlone_error hresult, List.forall_mem_cons]
      refine ⟨fun b hb => ?_, ih hs h⟩
      rw [hresult] at hb
      cases hb
    | ok b =>
      rw [receive_ok hresult] at h
      obtain ⟨haccept, hrefuse⟩ := persist_spec jsonReal hs m b
      obtain ⟨inserted, hok, h⟩ := andThen_eq_ok.mp h
      have haccepts : Accepts s m b := by
        by_contra hnot
        obtain ⟨err, herr⟩ := hrefuse hnot
        rw [herr] at hok
        cases hok
      obtain ⟨_, _, hpersisted⟩ := haccept haccepts
      rw [Accepted, turns, importAlone_ok hs hresult haccepts, List.forall_mem_cons]
      refine ⟨fun b' hb' => ?_, ih hpersisted.shelved h⟩
      obtain rfl : b = b' := Except.ok.inj (hresult.symm.trans hb')
      exact haccepts

lemma isolates_of_accepted {messages : List Message} (hs : Shelved s) (report : ImportReport)
    (h : Accepted jsonReal s messages) :
    (∃ final, (receive jsonReal s report messages).2 = .ok final ∧
      final.failed.map (·.path) = report.failed.map (·.path) ++
        ((turns jsonReal s messages).filter (fails jsonReal)).map (·.2.path)) ∧
    (receive jsonReal s report messages).1 =
      messages.foldl (importAlone jsonReal) s ∧
    ∀ turn ∈ turns jsonReal s messages, ∀ b, turn.2.result = .ok b →
      Persisted jsonReal turn.1 turn.2 b (persist jsonReal turn.1 turn.2 b).1 := by
  induction messages generalizing s report with
  | nil => exact ⟨⟨report, rfl, by simp [turns]⟩, rfl,
    fun turn hturn => absurd hturn List.not_mem_nil⟩
  | cons m messages ih =>
    rw [Accepted, turns, List.forall_mem_cons] at h
    obtain ⟨hfirst, hrest⟩ := h
    cases hresult : m.result with
    | error err =>
      rw [importAlone_error hresult] at hrest
      rw [receive_error hresult]
      obtain ⟨⟨final, hfinal, hfailed⟩, hsame, hwhole⟩ :=
        ih hs { report with failed := report.failed ++ [⟨m.path, err⟩] } hrest
      refine ⟨⟨final, hfinal, ?_⟩, ?_, ?_⟩
      · rw [hfailed, turns, importAlone_error hresult,
          List.filter_cons_of_pos (by simp [fails, hresult])]
        simp
      · rw [List.foldl_cons, importAlone_error hresult]
        exact hsame
      · rw [turns, importAlone_error hresult, List.forall_mem_cons]
        refine ⟨fun b hb => ?_, hwhole⟩
        rw [hresult] at hb
        cases hb
    | ok b =>
      have haccepts := hfirst b hresult
      obtain ⟨inserted, hok, hpersisted⟩ := (persist_spec jsonReal hs m b).1 haccepts
      rw [importAlone_ok hs hresult haccepts] at hrest
      rw [receive_ok hresult, andThen_of_ok hok]
      obtain ⟨⟨final, hfinal, hfailed⟩, hsame, hwhole⟩ :=
        ih hpersisted.shelved (bump report inserted) hrest
      refine ⟨⟨final, hfinal, ?_⟩, ?_, ?_⟩
      · rw [hfailed, turns, importAlone_ok hs hresult haccepts,
          List.filter_cons_of_neg (by simp [fails, hresult, hok, Except.isOk, Except.toBool])]
        cases inserted <;> rfl
      · rw [List.foldl_cons, importAlone_ok hs hresult haccepts]
        exact hsame
      · rw [turns, importAlone_ok hs hresult haccepts, List.forall_mem_cons]
        refine ⟨fun b' hb' => ?_, hwhole⟩
        obtain rfl : b = b' := Except.ok.inj (hresult.symm.trans hb')
        exact hpersisted

/-- **A run isolates its files exactly when the catalog takes each one that parses when its turn
comes.** -/
theorem isolates_iff (hs : Shelved s) (files : List Found)
    (arrival : List Message → List Message) :
    Isolates jsonReal s (arrival (queue s files)) (importDirectory jsonReal s files arrival) ↔
      Accepted jsonReal s (arrival (queue s files)) := by
  constructor
  · rintro ⟨⟨report, hok, _⟩, _, _⟩
    exact accepted_of_finished hs hok
  · intro h
    obtain ⟨⟨final, hfinal, hfailed⟩, hsame, hwhole⟩ := isolates_of_accepted hs
      { skipped := files.length - (queue s files).length } h
    exact ⟨⟨final, hfinal, hfailed⟩, hsame, fun turn hturn b hb => Or.inl (hwhole turn hturn b hb)⟩

end Runs

/-! ## Package documents -/

/-- A trimmed text starts with no blank. -/
lemma dropWhile_of_trimmed {title : String} (h : Epub.OpfState.Trimmed title) :
    title.toList.dropWhile (· = ' ') = title.toList := by
  have hlist : ((title.toList.dropWhile isWhite).reverse.dropWhile isWhite).reverse =
      title.toList := by
    simpa [trim] using congrArg String.toList h.2
  have hself : title.toList.dropWhile isWhite = title.toList := by
    refine (List.dropWhile_suffix _).eq_of_length_le ?_
    conv_lhs => rw [← hlist]
    rw [List.length_reverse, ← @List.length_reverse _ (title.toList.dropWhile isWhite)]
    exact (List.dropWhile_suffix _).length_le
  rw [List.dropWhile_eq_self_iff] at hself ⊢
  intro hpos hblank
  apply hself hpos
  rw [of_decide_eq_true hblank]
  decide

/-- **When the catalog takes a package document that was parsed.** -/
theorem accepts_parsed_iff {parseFloat : String → Option ℚ} {limits : Epub.XmlLimits} {len : ℕ}
    {events : List Epub.XmlEvent} {package : Epub.Opf.OpfPackage}
    (h : Epub.parseOpf parseFloat limits len events = .ok package) (s : Shelf) (m : Message)
    (coverPath : Option String) (stats : FileStats) :
    Accepts s m (toNewBook package.metadata coverPath stats) ↔
      package.metadata.title.toList.head? ≠ some '\x00' ∧
      (∀ list, (overridesOf s.device.catalog (bookOf s m)).customized list = false →
        ((toNewBook package.metadata coverPath stats).sourceMetadata.names list).Nodup) ∧
      ∀ title, (overridesOf s.device.catalog (bookOf s m)).title = some title →
        trim title ≠ "" := by
  obtain ⟨htrimmed, _, _⟩ := Epub.parseOpf_metadata h
  unfold Accepts
  generalize overridesOf s.device.catalog (bookOf s m) = o
  have htitled : (toNewBook package.metadata coverPath stats).Titled ↔
      package.metadata.title.toList.head? ≠ some '\x00' := by
    unfold NewBook.Titled toNewBook
    dsimp only
    rw [dropWhile_of_trimmed htrimmed]
    cases htitle : package.metadata.title.toList with
    | nil => exact absurd (String.toList_eq_nil_iff.mp htitle) htrimmed.1
    | cons c rest => simp
  have hraw : trim (rawTitle o (toNewBook package.metadata coverPath stats).sourceMetadata) ≠ "" ↔
      ∀ title, o.title = some title → trim title ≠ "" := by
    have hsource : (toNewBook package.metadata coverPath stats).sourceMetadata.title =
        package.metadata.title := rfl
    have hblank : trim "" = "" := rfl
    unfold rawTitle scalarValue
    rw [hsource]
    cases htitle : o.title with
    | none =>
      rw [Option.filter_some, if_pos (by simpa using htrimmed.1)]
      simp [htrimmed.2, htrimmed.1]
    | some title =>
      dsimp only
      split_ifs with hempty
      · simp [hempty, hblank]
      · simp
  constructor
  · rintro ⟨hnul, htakes⟩
    exact ⟨htitled.mp hnul, htakes.lists, hraw.mp htakes.title⟩
  · rintro ⟨hnul, hlists, htitle⟩
    exact ⟨htitled.mpr hnul, hlists, hraw.mpr htitle⟩

/-! ## A creator who is named twice -/

/-- A shelf without files. -/
def emptyShelf : Shelf where
  device := {}
  places := ∅

/-- A package document with a title and some creators. -/
def creatorsOpf (creators : List String) : List Epub.XmlEvent :=
  [.start "package" [], .start "metadata" [], .start "dc:title" [], .text (some "Letters"),
    .close "dc:title"] ++
  creators.flatMap (fun creator =>
    [.start "dc:creator" [], .text (some creator), .close "dc:creator"]) ++
  [.close "metadata", .close "package"]

/-- A new file with a package document. -/
def foundEpub (path : String) (events : List Epub.XmlEvent) : Found where
  path := path
  stats := some (1, 1)
  parsed :=
    match Epub.parseOpf (fun _ => none) .defaults 400 events with
    | .ok package => .ok (.epub package.metadata)
    | .error _ => .error "package document"
  cover := fun _ previous => .ok previous
  onDisk := .ok ⟨path, 1, 1⟩
  drawn := ⟨"now", path⟩

/-- A file without metadata and one that parses. -/
theorem isolates_iff_sample :
    Isolates (fun _ => .null) emptyShelf
      (queue emptyShelf [foundEpub "/a.epub" [], foundEpub "/b.epub" (creatorsOpf ["Mary"])])
      (importDirectory (fun _ => .null) emptyShelf
        [foundEpub "/a.epub" [], foundEpub "/b.epub" (creatorsOpf ["Mary"])] id) := by
  refine (isolates_iff (fun i hi => absurd hi (by simp [emptyShelf])) _ id).mpr ?_
  have hqueue : queue emptyShelf [foundEpub "/a.epub" [],
      foundEpub "/b.epub" (creatorsOpf ["Mary"])] =
      [(foundEpub "/a.epub" []).message none,
        (foundEpub "/b.epub" (creatorsOpf ["Mary"])).message none] := rfl
  have hunread : ((foundEpub "/a.epub" []).message none).result = .error "package document" := rfl
  rw [hqueue, id, Accepted, turns, importAlone_error hunread, turns, turns, List.forall_mem_cons,
    List.forall_mem_singleton]
  refine ⟨fun b hb => ?_, fun b hb => ?_⟩
  · rw [hunread] at hb
    cases hb
  · have hcheck : (((foundEpub "/b.epub" (creatorsOpf ["Mary"])).message none).result.toOption.all
        fun b => decide (b.Titled ∧ b.authorList = ["Mary"] ∧ b.subjects = [] ∧
          b.title = "Letters")) = true := by
      decide +kernel
    rw [hb] at hcheck
    obtain ⟨htitled, hauthors, hsubjects, htitle⟩ := of_decide_eq_true hcheck
    refine ⟨htitled, fun list _ => ?_, ?_⟩
    · cases list with
      | authors =>
        change b.authorList.Nodup
        rw [hauthors]
        decide
      | subjects =>
        change b.subjects.Nodup
        rw [hsubjects]
        decide
    · change trim ((scalarValue none (some b.title)).getD "") ≠ ""
      rw [htitle]
      decide

/-- **A document that names a creator twice stops the whole run.** The file after it is not imported
and no report comes back. -/
theorem not_isolates :
    Shelved emptyShelf ∧
    (importDirectory (fun _ => .null) emptyShelf
      [foundEpub "/a.epub" (creatorsOpf ["Mary", "Mary"]),
        foundEpub "/b.epub" (creatorsOpf ["Mary"])] id).1.fileAt "/b.epub" = none ∧
    ¬Isolates (fun _ => .null) emptyShelf
      (queue emptyShelf [foundEpub "/a.epub" (creatorsOpf ["Mary", "Mary"]),
        foundEpub "/b.epub" (creatorsOpf ["Mary"])])
      (importDirectory (fun _ => .null) emptyShelf
        [foundEpub "/a.epub" (creatorsOpf ["Mary", "Mary"]),
          foundEpub "/b.epub" (creatorsOpf ["Mary"])] id) := by
  refine ⟨fun i hi => absurd hi (by simp [emptyShelf]), by decide +kernel, fun h => ?_⟩
  obtain ⟨report, hok, _⟩ := h.finished
  have hfails : (importDirectory (fun _ => .null) emptyShelf
      [foundEpub "/a.epub" (creatorsOpf ["Mary", "Mary"]),
        foundEpub "/b.epub" (creatorsOpf ["Mary"])] id).2.isOk = false := by
    decide +kernel
  rw [hok] at hfails
  cases hfails

end Import

end TuxBooks
