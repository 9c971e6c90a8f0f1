import Mathlib
import TuxBooks.Lib.Table

set_option relaxedAutoImplicit false
set_option autoImplicit false

/-!
# The search index

The full-text index `books_fts` is a table of its own that triggers keep in step with the durable
books and with their files (migrations `0019_durable_user_state.sql` and
`0020_reading_history_fts.sql`). A row of the index has the text of a durable book and the path of
its active file.

A file row can come to a book, or leave it, without a trigger that names the book. The book is
then *owed* a new index row. The invariant says that every other book has the index row that it
should have, and `Write.owes` says which writes owe one and which ones settle it.

## Main definitions

* `TuxBooks.SearchIndex.Tables.write` — a row write without the triggers of the index.
* `TuxBooks.SearchIndex.State.write` — a row write with them.
* `TuxBooks.SearchIndex.Mirror` — the index mirrors the books, but for what is owed.
* `TuxBooks.SearchIndex.searchFts`, `TuxBooks.SearchIndex.listReadingHistory` — the two readers.

## Main results

* `TuxBooks.SearchIndex.mirror_run` — the index mirrors the books over every run, and the books are
  what they would be without the index.
* `TuxBooks.SearchIndex.mirror_rebind_iff` — when a file that moves to another book leaves the index
  behind.
* `TuxBooks.SearchIndex.mirror_absorb` — folding one book into another owes nothing.
* `TuxBooks.SearchIndex.mirror_reid_iff` — what migration 0029 does to the index.
* `TuxBooks.SearchIndex.search_found` — every book is found in one of the two readers.
-/

namespace TuxBooks

namespace SearchIndex

/-! ## Tables -/

/-- The indexed columns of `book_records`, except for the path. -/
structure IndexedText where
  title : Option String
  subtitle : Option String
  author : Option String
  publisher : Option String
  isbn : Option String
  description : Option String
  deriving DecidableEq

/-- What the index reads of a row of `books`. -/
structure FileRow where
  bookUid : Option String
  path : String
  available : Bool
  deriving DecidableEq

/-- What the index reads of a row of `book_records`. -/
structure RecordRow where
  uid : String
  text : IndexedText
  deriving DecidableEq

/-- A row of `books_fts`. -/
structure IndexRow where
  text : IndexedText
  path : Option String
  deriving DecidableEq

/-- The tables that the index is about, by `id`. -/
structure Tables where
  files : Table ℤ FileRow := ∅
  records : Table ℤ RecordRow := ∅
  deriving DecidableEq

/-- The tables and the index, by `rowid`. -/
structure State extends Tables where
  index : Table ℤ IndexRow := ∅
  deriving DecidableEq

namespace Tables

variable (t : Tables)

/-- `ORDER BY available DESC, id`. -/
def FileBefore (e e' : Sigma fun _ : ℤ => FileRow) : Prop :=
  e.2.available = true ∧ e'.2.available = false ∨
    e.2.available = e'.2.available ∧ e.1 ≤ e'.1

instance : DecidableRel FileBefore := fun _ _ => inferInstanceAs (Decidable (_ ∨ _))

instance : Std.Total FileBefore := ⟨fun e e' => by
  unfold FileBefore
  cases e.2.available <;> cases e'.2.available <;> simp [le_total]⟩

instance : IsTrans _ FileBefore := ⟨fun e₁ e₂ e₃ h h' => by
  unfold FileBefore at *
  cases h₁ : e₁.2.available <;> cases h₂ : e₂.2.available <;> cases h₃ : e₃.2.available <;>
    simp_all <;> omega⟩

/-- The active file of a book. -/
def activeFile (uid : String) : Option (Sigma fun _ : ℤ => FileRow) :=
  ((t.files.entries.filter fun e => e.2.bookUid == some uid).insertionSort FileBefore).head?

/-- The path that the index stores for a book. -/
def activePath (uid : String) : Option String := (t.activeFile uid).map (·.2.path)

/-- `EXISTS (SELECT 1 FROM books WHERE book_uid = uid)`. -/
def hasFile (uid : String) : Bool := t.files.entries.any fun e => e.2.bookUid == some uid

/-- `SELECT id FROM book_records WHERE uid = uid`. -/
def recordId (uid : String) : Option ℤ := t.records.findKey (·.uid == uid)

/-- `books.path` is `UNIQUE`. -/
def pathTaken (id : ℤ) (path : String) : Bool :=
  t.files.entries.any fun e => e.1 != id && e.2.path == path

/-- Insert a durable book, unless its id or its uid is taken. -/
def insertRecord (id : ℤ) (r : RecordRow) : Option Tables :=
  if (t.records.lookup id).isSome || (t.recordId r.uid).isSome then none
  else some { t with records := t.records.insert id r }

end Tables

/-! ## Row writes -/

/-- A write of one row. For a new file the text and the record id are those that the trigger
`book_records_ai` gives to a book that is not there yet. -/
inductive Write where
  | insertFile (id : ℤ) (row : FileRow) (text : IndexedText) (recordId : ℤ)
  | updateFile (id : ℤ) (row : FileRow)
  | deleteFile (id : ℤ)
  | insertRecord (id : ℤ) (row : RecordRow)
  | updateRecord (id : ℤ) (text : IndexedText)
  | deleteRecord (id : ℤ)

/-- A write and the trigger `book_records_ai`, without the triggers of the index. The answer is
`none` when a constraint of the tables refuses it. -/
def Tables.write (t : Tables) : Write → Option Tables
  | .insertFile id row text recordId =>
    if (t.files.lookup id).isSome || t.pathTaken id row.path then none
    else
      match row.bookUid with
      | none => some { t with files := t.files.insert id row }
      | some uid =>
        if (t.recordId uid).isSome then some { t with files := t.files.insert id row }
        else { t with files := t.files.insert id row }.insertRecord recordId ⟨uid, text⟩
  | .updateFile id row =>
    if (t.files.lookup id).isNone then some t
    else if t.pathTaken id row.path then none
    else some { t with files := t.files.insert id row }
  | .deleteFile id => some { t with files := t.files.erase id }
  | .insertRecord id r => t.insertRecord id r
  | .updateRecord id text =>
    match t.records.lookup id with
    | none => some t
    | some r => some { t with records := t.records.insert id { r with text } }
  | .deleteRecord id => some { t with records := t.records.erase id }

namespace State

variable (s : State)

/-- Insert the index row of a book. FTS5 refuses a `rowid` that is taken. -/
def insertIndex (id : ℤ) (r : RecordRow) : Option State :=
  if (s.index.lookup id).isSome then none
  else some { s with index := s.index.insert id ⟨r.text, s.activePath r.uid⟩ }

def eraseIndex (id : ℤ) : State := { s with index := s.index.erase id }

/-- Rewrite the index row of the book with a uid. Without `keepsHistory` the row comes back only
when the book has a file. -/
def reindexBook (keepsHistory : Bool) (uid : String) : Option State :=
  match s.recordId uid with
  | none => some s
  | some id =>
    match s.records.lookup id with
    | none => some (s.eraseIndex id)
    | some r =>
      if keepsHistory || s.hasFile uid then (s.eraseIndex id).insertIndex id r
      else some (s.eraseIndex id)

/-- The triggers of the index, once the tables are written. `old` are the tables before. -/
def fire (keepsHistory : Bool) (old : Tables) : Write → Option State
  | .insertFile _ row text recordId =>
    match row.bookUid with
    | none => some s
    | some uid =>
      if (old.recordId uid).isSome then some s else s.insertIndex recordId ⟨uid, text⟩
  | .updateFile id row =>
    if (old.files.lookup id).isNone then some s
    else
      match row.bookUid with
      | none => some s
      | some uid => s.reindexBook false uid
  | .deleteFile id =>
    match (old.files.lookup id).bind (·.bookUid) with
    | none => some s
    | some uid => s.reindexBook keepsHistory uid
  | .insertRecord id r => s.insertIndex id r
  | .updateRecord id _ =>
    match s.records.lookup id with
    | none => some s
    | some r => (s.eraseIndex id).insertIndex id r
  | .deleteRecord id => some (s.eraseIndex id)

/-- A row write with its triggers. `keepsHistory` is the delete trigger of migration 0020. -/
def write (keepsHistory : Bool) (w : Write) : Option State :=
  (s.toTables.write w).bind fun t => { s with toTables := t }.fire keepsHistory s.toTables w

end State

/-! ## What is owed -/

/-- The books that are owed an index row after a write. -/
def Write.owes (t : Tables) (owed : Set String) : Write → Set String
  | .insertFile _ row _ _ => {u | u ∈ owed ∨ row.bookUid = some u ∧ (t.recordId u).isSome}
  | .updateFile id row =>
    match t.files.lookup id with
    | none => owed
    | some old => {u | (u ∈ owed ∨ old.bookUid = some u) ∧ row.bookUid ≠ some u}
  | .deleteFile id => {u | u ∈ owed ∧ (t.files.lookup id).bind (·.bookUid) ≠ some u}
  | .insertRecord _ r => {u | u ∈ owed ∧ u ≠ r.uid}
  | .updateRecord id _ => {u | u ∈ owed ∧ (t.records.lookup id).map (·.uid) ≠ some u}
  | .deleteRecord id => {u | u ∈ owed ∧ (t.records.lookup id).map (·.uid) ≠ some u}

/-- No two books share a uid, and no two files a path. -/
structure Tables.Valid (t : Tables) : Prop where
  uids : ∀ i j r r', t.records.lookup i = some r → t.records.lookup j = some r' →
    r.uid = r'.uid → i = j
  paths : ∀ i j f f', t.files.lookup i = some f → t.files.lookup j = some f' →
    f.path = f'.path → i = j

/-- **The index mirrors the books**, but for the path of the books that are owed a row. Every row is
that of a book, and every book has one: before migration 0020, every book with a file. -/
structure Mirror (keepsHistory : Bool) (owed : Set String) (s : State) : Prop where
  valid : s.Valid
  sound : ∀ id row, s.index.lookup id = some row → ∃ r, s.records.lookup id = some r ∧
    row.text = r.text ∧ (r.uid ∉ owed → row.path = s.activePath r.uid)
  complete : ∀ id r, s.records.lookup id = some r →
    (keepsHistory = true ∨ r.uid ∉ owed ∧ s.hasFile r.uid = true) → (s.index.lookup id).isSome

/-! ## The active file -/

namespace Tables

variable {t t' : Tables} {uid : String}

lemma activeFile_eq_none : t.activeFile uid = none ↔
    t.files.entries.filter (fun e => e.2.bookUid == some uid) = [] := by
  rw [activeFile, List.head?_eq_none_iff, ← List.length_eq_zero_iff, List.length_insertionSort,
    List.length_eq_zero_iff]

/-- The active file is the first file of the book in the order. -/
lemma mem_activeFile {e : Sigma fun _ : ℤ => FileRow} :
    e ∈ t.activeFile uid ↔ t.files.lookup e.1 = some e.2 ∧ e.2.bookUid = some uid ∧
      ∀ e' : Sigma fun _ : ℤ => FileRow, t.files.lookup e'.1 = some e'.2 →
        e'.2.bookUid = some uid → FileBefore e e' := by
  set l := t.files.entries.filter fun e => e.2.bookUid == some uid with hl
  have hmem : ∀ e : Sigma fun _ : ℤ => FileRow,
      e ∈ l ↔ t.files.lookup e.1 = some e.2 ∧ e.2.bookUid = some uid := fun e => by
    rw [hl, List.mem_filter, beq_iff_eq, Table.lookup_eq_some_iff]
  have hsorted := List.pairwise_insertionSort FileBefore l
  have hperm := List.perm_insertionSort FileBefore l
  have hfirst : t.activeFile uid = (l.insertionSort FileBefore).head? := rfl
  rw [hfirst, Option.mem_def]
  cases hsort : l.insertionSort FileBefore with
  | nil =>
    rw [hsort] at hperm
    rw [List.nil_perm.mp hperm] at hmem
    refine iff_of_false (by simp) fun h => ?_
    exact List.not_mem_nil ((hmem e).mpr ⟨h.1, h.2.1⟩)
  | cons first rest =>
    rw [hsort] at hsorted hperm
    have hmin : ∀ e' ∈ l, FileBefore first e' := fun e' he' => by
      obtain rfl | hrest := List.mem_cons.mp (hperm.mem_iff.mpr he')
      · exact .inr ⟨rfl, le_rfl⟩
      · exact List.rel_of_pairwise_cons hsorted hrest
    have hthere : first ∈ l := hperm.mem_iff.mp List.mem_cons_self
    rw [List.head?_cons, Option.some_inj]
    constructor
    · rintro rfl
      obtain ⟨hlookup, huid⟩ := (hmem first).mp hthere
      exact ⟨hlookup, huid, fun e' he' huid' => hmin e' ((hmem e').mpr ⟨he', huid'⟩)⟩
    · rintro ⟨he, huid, hbefore⟩
      have h₁ := hmin e ((hmem e).mpr ⟨he, huid⟩)
      have h₂ := hbefore first ((hmem first).mp hthere).1 ((hmem first).mp hthere).2
      obtain ⟨i, f⟩ := first
      obtain ⟨j, g⟩ := e
      have hij : i = j := by
        unfold FileBefore at h₁ h₂
        grind
      subst hij
      have hf := ((hmem ⟨i, f⟩).mp hthere).1
      obtain rfl := Option.some.inj (hf.symm.trans he)
      rfl

/-- The active path depends on the files of the book. -/
lemma activePath_congr (h : ∀ id f, f.bookUid = some uid →
    (t'.files.lookup id = some f ↔ t.files.lookup id = some f)) :
    t'.activePath uid = t.activePath uid := by
  have hfile : t'.activeFile uid = t.activeFile uid := Option.ext fun e => by
    rw [← Option.mem_def, ← Option.mem_def, mem_activeFile, mem_activeFile]
    constructor
    · rintro ⟨he, huid, hmin⟩
      exact ⟨(h _ _ huid).mp he, huid, fun e' he' huid' => hmin e' ((h _ _ huid').mpr he') huid'⟩
    · rintro ⟨he, huid, hmin⟩
      exact ⟨(h _ _ huid).mpr he, huid, fun e' he' huid' => hmin e' ((h _ _ huid').mp he') huid'⟩
  rw [activePath, activePath, hfile]

lemma hasFile_iff : t.hasFile uid = true ↔ ∃ id f, t.files.lookup id = some f ∧
    f.bookUid = some uid := by
  rw [hasFile, List.any_eq_true]
  constructor
  · rintro ⟨e, he, huid⟩
    exact ⟨e.1, e.2, Table.lookup_eq_some_iff.mpr he, beq_iff_eq.mp huid⟩
  · rintro ⟨id, f, hf, huid⟩
    exact ⟨⟨id, f⟩, Table.lookup_eq_some_iff.mp hf, beq_iff_eq.mpr huid⟩

lemma hasFile_congr (h : ∀ id f, f.bookUid = some uid →
    (t'.files.lookup id = some f ↔ t.files.lookup id = some f)) :
    t'.hasFile uid = t.hasFile uid := by
  rw [Bool.eq_iff_iff, hasFile_iff, hasFile_iff]
  refine exists_congr fun id => exists_congr fun f => ?_
  constructor
  · exact fun hf => ⟨(h id f hf.2).mp hf.1, hf.2⟩
  · exact fun hf => ⟨(h id f hf.2).mpr hf.1, hf.2⟩

lemma recordId_eq_none : t.recordId uid = none ↔ ∀ id r, t.records.lookup id = some r →
    r.uid ≠ uid := by
  rw [recordId, Table.findKey_eq_none]
  simp only [beq_eq_false_iff_ne]

lemma Valid.recordId_eq_some (h : t.Valid) {id : ℤ} :
    t.recordId uid = some id ↔ ∃ r, t.records.lookup id = some r ∧ r.uid = uid := by
  unfold recordId
  cases hfound : t.records.findKey (·.uid == uid) with
  | none =>
    rw [Table.findKey_eq_none] at hfound
    refine iff_of_false (by simp) ?_
    rintro ⟨r, hr, huid⟩
    exact beq_eq_false_iff_ne.mp (hfound id r hr) huid
  | some j =>
    obtain ⟨r, hr, huid⟩ := Table.exists_of_findKey hfound
    rw [beq_iff_eq] at huid
    constructor
    · rintro hj
      obtain rfl := Option.some.inj hj
      exact ⟨r, hr, huid⟩
    · rintro ⟨r', hr', huid'⟩
      rw [h.uids _ _ _ _ hr hr' (huid.trans huid'.symm)]

lemma pathTaken_eq_false {id : ℤ} {path : String} : t.pathTaken id path = false ↔
    ∀ j f, t.files.lookup j = some f → f.path = path → j = id := by
  rw [pathTaken, List.any_eq_false]
  constructor
  · intro h j f hf hpath
    have hno := h ⟨j, f⟩ (Table.lookup_eq_some_iff.mp hf)
    rw [Bool.and_eq_true, bne_iff_ne, beq_iff_eq] at hno
    exact not_not.mp fun hne => hno ⟨hne, hpath⟩
  · rintro h ⟨j, f⟩ he hboth
    rw [Bool.and_eq_true, bne_iff_ne, beq_iff_eq] at hboth
    exact hboth.1 (h j f (Table.lookup_eq_some_iff.mpr he) hboth.2)

lemma insertRecord_eq_some {id : ℤ} {r : RecordRow} (h : t.insertRecord id r = some t') :
    t' = { t with records := t.records.insert id r } ∧ t.records.lookup id = none ∧
      ∀ j r', t.records.lookup j = some r' → r'.uid ≠ r.uid := by
  unfold insertRecord at h
  split_ifs at h with htaken
  rw [Bool.or_eq_true, not_or, Option.not_isSome_iff_eq_none,
    Option.not_isSome_iff_eq_none] at htaken
  exact ⟨(Option.some.inj h).symm, htaken.1, recordId_eq_none.mp htaken.2⟩

end Tables

/-! ## What one write does to the mirror -/

namespace Mirror

variable {keepsHistory : Bool} {owed owed' : Set String} {s s' : State}

/-- A book that is not there can be owed anything. -/
lemma mono (h : Mirror keepsHistory owed s)
    (hsub : ∀ id r, s.records.lookup id = some r → r.uid ∈ owed → r.uid ∈ owed') :
    Mirror keepsHistory owed' s where
  valid := h.valid
  sound id row hrow := by
    obtain ⟨r, hr, htext, hpath⟩ := h.sound id row hrow
    exact ⟨r, hr, htext, fun hnot => hpath fun howed => hnot (hsub id r hr howed)⟩
  complete id r hr hwhen := by
    refine h.complete id r hr (hwhen.imp_right fun hfile => ?_)
    exact ⟨fun howed => hfile.1 (hsub id r hr howed), hfile.2⟩

/-- Change the files: the books whose files change are owed a row. -/
lemma files (h : Mirror keepsHistory owed s) {files : Table ℤ FileRow}
    (hpaths : ∀ i j f f', files.lookup i = some f → files.lookup j = some f' →
      f.path = f'.path → i = j)
    (howed : ∀ u, u ∉ owed' → u ∉ owed ∧ ∀ id f, f.bookUid = some u →
      (files.lookup id = some f ↔ s.files.lookup id = some f)) :
    Mirror keepsHistory owed' { s with files := files } where
  valid := ⟨h.valid.uids, hpaths⟩
  sound id row hrow := by
    obtain ⟨r, hr, htext, hpath⟩ := h.sound id row hrow
    refine ⟨r, hr, htext, fun hnot => ?_⟩
    obtain ⟨hold, hsame⟩ := howed _ hnot
    rw [hpath hold]
    exact (Tables.activePath_congr hsame).symm
  complete id r hr hwhen := by
    refine h.complete id r hr (hwhen.imp_right fun hfile => ?_)
    obtain ⟨hold, hsame⟩ := howed _ hfile.1
    have hthere : Tables.hasFile { s.toTables with files } r.uid = s.hasFile r.uid :=
      Tables.hasFile_congr hsame
    exact ⟨hold, hthere.symm.trans hfile.2⟩

/-- Store a book together with its index row. -/
lemma put (h : Mirror keepsHistory owed s) {id : ℤ} {r : RecordRow} (hfiles : s'.files = s.files)
    (hrecords : ∀ j, s'.records.lookup j = if j = id then some r else s.records.lookup j)
    (hindex : ∀ j, s'.index.lookup j =
      if j = id then some ⟨r.text, s.activePath r.uid⟩ else s.index.lookup j)
    (hfree : ∀ j r', s.records.lookup j = some r' → r'.uid = r.uid → j = id) :
    Mirror keepsHistory {u | u ∈ owed ∧ u ≠ r.uid} s' where
  valid := by
    refine ⟨fun i j r₁ r₂ h₁ h₂ huid => ?_, by rw [hfiles]; exact h.valid.paths⟩
    rw [hrecords] at h₁ h₂
    split_ifs at h₁ h₂ with hi hj hj
    · rw [hi, hj]
    · obtain rfl := Option.some.inj h₁
      rw [hi, hfree j r₂ h₂ huid.symm]
    · obtain rfl := Option.some.inj h₂
      rw [hj, hfree i r₁ h₁ huid]
    · exact h.valid.uids i j r₁ r₂ h₁ h₂ huid
  sound j row hrow := by
    have hactive : ∀ u, s'.activePath u = s.activePath u := fun u =>
      Tables.activePath_congr fun _ _ _ => by rw [hfiles]
    rw [hindex] at hrow
    simp only [hrecords, hactive]
    split_ifs at hrow ⊢ with hj
    · obtain rfl := Option.some.inj hrow
      exact ⟨r, rfl, rfl, fun _ => rfl⟩
    · obtain ⟨r', hr', htext, hpath⟩ := h.sound j row hrow
      refine ⟨r', hr', htext, fun hnot => hpath fun howed => hnot ⟨howed, fun huid => ?_⟩⟩
      exact hj (hfree j r' hr' huid)
  complete j r' hr' hwhen := by
    rw [hrecords] at hr'
    rw [hindex]
    split_ifs at hr' ⊢ with hj
    · rfl
    · refine h.complete j r' hr' (hwhen.imp_right fun hfile => ?_)
      refine ⟨fun howed => hfile.1 ⟨howed, fun huid => hj (hfree j r' hr' huid)⟩, ?_⟩
      rw [← hfile.2]
      exact Tables.hasFile_congr fun _ _ _ => by rw [hfiles]

/-- Forget a book together with its index row. -/
lemma forget (h : Mirror keepsHistory owed s) (id : ℤ) :
    Mirror keepsHistory {u | u ∈ owed ∧ (s.records.lookup id).map (·.uid) ≠ some u}
      { s with records := s.records.erase id, index := s.index.erase id } where
  valid := by
    refine ⟨fun i j r₁ r₂ h₁ h₂ huid => ?_, h.valid.paths⟩
    rw [Table.lookup_erase'] at h₁ h₂
    split_ifs at h₁ h₂
    exact h.valid.uids i j r₁ r₂ h₁ h₂ huid
  sound j row hrow := by
    rw [Table.lookup_erase'] at hrow
    split_ifs at hrow with hj
    obtain ⟨r, hr, htext, hpath⟩ := h.sound j row hrow
    refine ⟨r, ?_, htext, fun hnot => hpath fun howed => hnot ⟨howed, fun huid => ?_⟩⟩
    · rw [Table.lookup_erase', if_neg hj, hr]
    · obtain ⟨r', hr', huid'⟩ := Option.map_eq_some_iff.mp huid
      exact hj (h.valid.uids _ _ _ _ hr hr' huid'.symm)
  complete j r hr hwhen := by
    rw [Table.lookup_erase'] at hr ⊢
    split_ifs at hr ⊢ with hj
    refine h.complete j r hr (hwhen.imp_right fun hfile => ⟨fun howed => ?_, hfile.2⟩)
    refine hfile.1 ⟨howed, fun huid => ?_⟩
    obtain ⟨r', hr', huid'⟩ := Option.map_eq_some_iff.mp huid
    exact hj (h.valid.uids _ _ _ _ hr hr' huid'.symm)

/-- Before migration 0020, a book without a file may lose its index row. -/
lemma eraseIndex (h : Mirror false owed s) {id : ℤ} {r : RecordRow}
    (hr : s.records.lookup id = some r) (hno : s.hasFile r.uid = false) :
    Mirror false {u | u ∈ owed ∧ u ≠ r.uid} (s.eraseIndex id) where
  valid := h.valid
  sound j row hrow := by
    rw [State.eraseIndex, Table.lookup_erase'] at hrow
    split_ifs at hrow with hj
    obtain ⟨r', hr', htext, hpath⟩ := h.sound j row hrow
    refine ⟨r', hr', htext, fun hnot => hpath fun howed => hnot ⟨howed, fun huid => ?_⟩⟩
    exact hj (h.valid.uids _ _ _ _ hr' hr huid)
  complete j r' hr' hwhen := by
    obtain hk | ⟨hnot, hfile⟩ := hwhen
    · cases hk
    have hj : j ≠ id := by
      rintro rfl
      obtain rfl := Option.some.inj (hr.symm.trans hr')
      rw [State.eraseIndex, hno] at hfile
      cases hfile
    rw [State.eraseIndex, Table.lookup_erase', if_neg hj]
    refine h.complete j r' hr' (.inr ⟨fun howed => hnot ⟨howed, fun huid => ?_⟩, hfile⟩)
    exact hj (h.valid.uids _ _ _ _ hr' hr huid)

/-- The row of a book is rewritten, so nothing is owed to the book. -/
lemma insertIndex (h : Mirror keepsHistory owed s) {id : ℤ} {r : RecordRow}
    (hr : s.records.lookup id = some r) :
    ∃ s', (s.eraseIndex id).insertIndex id r = some s' ∧ s'.toTables = s.toTables ∧
      Mirror keepsHistory {u | u ∈ owed ∧ u ≠ r.uid} s' := by
  refine ⟨{ s with index := (s.index.erase id).insert id ⟨r.text, s.activePath r.uid⟩ },
    ?_, rfl, h.put rfl (fun j => ?_) (fun j => ?_) fun j r' hr' huid =>
      h.valid.uids _ _ _ _ hr' hr huid⟩
  · unfold State.insertIndex State.eraseIndex
    rw [AList.lookup_erase]
    rfl
  · split_ifs with hj
    · rw [hj, hr]
    · rfl
  · rw [Table.lookup_insert', Table.lookup_erase']
    split_ifs <;> rfl

/-- The triggers of the files rewrite the row of the book that they name. -/
lemma reindexBook (h : Mirror keepsHistory owed s) (keeps : Bool) (uid : String)
    (hkeeps : keepsHistory = true → keeps = true ∨ s.hasFile uid = true) :
    ∃ s', s.reindexBook keeps uid = some s' ∧ s'.toTables = s.toTables ∧
      Mirror keepsHistory {u | u ∈ owed ∧ u ≠ uid} s' := by
  unfold State.reindexBook
  cases hid : s.recordId uid with
  | none =>
    refine ⟨s, rfl, rfl, h.mono fun id r hr howed => ⟨howed, ?_⟩⟩
    exact Tables.recordId_eq_none.mp hid id r hr
  | some id =>
    obtain ⟨r, hr, rfl⟩ := h.valid.recordId_eq_some.mp hid
    dsimp only
    rw [hr]
    dsimp only
    split_ifs with hwhen
    · exact h.insertIndex hr
    · rw [Bool.or_eq_true, not_or, Bool.not_eq_true, Bool.not_eq_true] at hwhen
      obtain rfl : keepsHistory = false := by
        cases keepsHistory
        · rfl
        · simp [hwhen.1, hwhen.2] at hkeeps
      exact ⟨_, rfl, rfl, h.eraseIndex hr hwhen.2⟩

/-- A new book gets an index row, which is never refused. -/
lemma insertRecord (h : Mirror keepsHistory owed s) {id : ℤ} {r : RecordRow} {t : Tables}
    (ht : s.toTables.insertRecord id r = some t) :
    ∃ s', State.insertIndex { s with toTables := t } id r = some s' ∧ s'.toTables = t ∧
      Mirror keepsHistory {u | u ∈ owed ∧ u ≠ r.uid} s' := by
  obtain ⟨rfl, hfresh, hnew⟩ := Tables.insertRecord_eq_some ht
  have hfree : s.index.lookup id = none := by
    refine Option.eq_none_iff_forall_ne_some.mpr fun row hrow => ?_
    obtain ⟨r', hr', -⟩ := h.sound id row hrow
    simp [hfresh] at hr'
  unfold State.insertIndex
  rw [if_neg (by simp [hfree])]
  refine ⟨_, rfl, rfl, h.put rfl (fun j => Table.lookup_insert' _ _ _ _) (fun j => ?_)
    fun j r' hr' huid => absurd huid (hnew j r' hr')⟩
  exact Table.lookup_insert' _ _ _ _

lemma updateRecord (h : Mirror keepsHistory owed s) {id : ℤ} {r : RecordRow}
    (hr : s.records.lookup id = some r) (text : IndexedText) :
    ∃ s', State.insertIndex (State.eraseIndex { s with
        records := s.records.insert id { r with text } } id) id { r with text } = some s' ∧
      s'.toTables = { s.toTables with records := s.records.insert id { r with text } } ∧
      Mirror keepsHistory {u | u ∈ owed ∧ u ≠ r.uid} s' := by
  unfold State.insertIndex State.eraseIndex
  rw [AList.lookup_erase]
  refine ⟨_, rfl, rfl, h.put (r := { r with text }) rfl (fun j => Table.lookup_insert' _ _ _ _)
    (fun j => ?_) fun j r' hr' huid => h.valid.uids _ _ _ _ hr' hr huid⟩
  rw [Table.lookup_insert', Table.lookup_erase']
  split_ifs <;> rfl

/-- A file under a path that no other file has. -/
lemma insertFile (h : Mirror keepsHistory owed s) {id : ℤ} {row : FileRow}
    (hpath : s.pathTaken id row.path = false)
    (hcover : ∀ u, u ∉ owed' → u ∉ owed ∧ row.bookUid ≠ some u ∧
      (s.files.lookup id).bind (·.bookUid) ≠ some u) :
    Mirror keepsHistory owed' { s with files := s.files.insert id row } := by
  rw [Tables.pathTaken_eq_false] at hpath
  refine h.files (fun i j f f' hi hj heq => ?_) fun u hu => ?_
  · rw [Table.lookup_insert'] at hi hj
    split_ifs at hi hj with hi' hj' hj'
    · rw [hi', hj']
    · obtain rfl := Option.some.inj hi
      rw [hi', hpath j f' hj heq.symm]
    · obtain rfl := Option.some.inj hj
      rw [hj', hpath i f hi heq]
    · exact h.valid.paths i j f f' hi hj heq
  · obtain ⟨hold, hnew, hbefore⟩ := hcover u hu
    refine ⟨hold, fun j f hf => ?_⟩
    rw [Table.lookup_insert']
    split_ifs with hj
    · subst hj
      refine iff_of_false (fun heq => ?_) fun heq => hbefore (by simp [heq, hf])
      obtain rfl := Option.some.inj heq
      exact hnew hf
    · rfl

lemma eraseFile (h : Mirror keepsHistory owed s) {id : ℤ}
    (hcover : ∀ u, u ∉ owed' → u ∉ owed ∧ (s.files.lookup id).bind (·.bookUid) ≠ some u) :
    Mirror keepsHistory owed' { s with files := s.files.erase id } := by
  refine h.files (fun i j f f' hi hj heq => ?_) fun u hu => ?_
  · rw [Table.lookup_erase'] at hi hj
    split_ifs at hi hj
    exact h.valid.paths i j f f' hi hj heq
  · obtain ⟨hold, hbefore⟩ := hcover u hu
    refine ⟨hold, fun j f hf => ?_⟩
    rw [Table.lookup_erase']
    split_ifs with hj
    · subst hj
      exact iff_of_false (by simp) fun heq => hbefore (by simp [heq, hf])
    · rfl

/-- A file row comes. Its book has a row already, or it is new and gets one. -/
lemma write_insertFile (h : Mirror keepsHistory owed s) {id recordId : ℤ} {row : FileRow}
    {text : IndexedText} {t : Tables}
    (ht : s.toTables.write (.insertFile id row text recordId) = some t) :
    ∃ s', State.fire { s with toTables := t } keepsHistory s.toTables
        (.insertFile id row text recordId) = some s' ∧ s'.toTables = t ∧
      Mirror keepsHistory ((Write.insertFile id row text recordId).owes s.toTables owed) s' := by
  simp only [Tables.write] at ht
  split_ifs at ht with htaken
  rw [Bool.or_eq_true, not_or, Option.not_isSome_iff_eq_none, Bool.not_eq_true] at htaken
  obtain ⟨hfresh, hpath⟩ := htaken
  have hfile : Mirror keepsHistory {u | u ∈ owed ∨ row.bookUid = some u}
      { s with files := s.files.insert id row } :=
    h.insertFile hpath fun u hu => by
      obtain ⟨hold, hnew⟩ := not_or.mp hu
      exact ⟨hold, hnew, by simp [hfresh]⟩
  simp only [State.fire, Write.owes]
  cases huid : row.bookUid with
  | none =>
    simp only [huid] at ht hfile
    obtain rfl := Option.some.inj ht
    exact ⟨_, rfl, rfl, hfile.mono fun _ _ _ howed => .inl (howed.resolve_right (by simp))⟩
  | some uid =>
    simp only [huid] at ht hfile
    dsimp only
    split_ifs at ht ⊢ with hrecord
    · obtain rfl := Option.some.inj ht
      refine ⟨_, rfl, rfl, hfile.mono fun _ r _ howed => howed.imp_right fun heq => ⟨heq, ?_⟩⟩
      rw [← Option.some.inj heq]
      exact hrecord
    · obtain ⟨s', hs', htables, hmirror⟩ := hfile.insertRecord ht
      refine ⟨s', hs', htables, hmirror.mono fun _ r _ howed => .inl ?_⟩
      exact howed.1.resolve_right fun heq => howed.2 (Option.some.inj heq).symm

/-- A file row changes. The book it had is owed a row, the book it has gets one. -/
lemma write_updateFile (h : Mirror keepsHistory owed s) {id : ℤ} {row : FileRow} {t : Tables}
    (ht : s.toTables.write (.updateFile id row) = some t) :
    ∃ s', State.fire { s with toTables := t } keepsHistory s.toTables (.updateFile id row) =
        some s' ∧ s'.toTables = t ∧
      Mirror keepsHistory ((Write.updateFile id row).owes s.toTables owed) s' := by
  simp only [Tables.write] at ht
  simp only [State.fire, Write.owes]
  cases hold : s.files.lookup id with
  | none =>
    simp only [hold, Option.isNone_none, if_true] at ht ⊢
    obtain rfl := Option.some.inj ht
    exact ⟨s, rfl, rfl, h⟩
  | some old =>
    simp only [hold, Option.isNone_some, Bool.false_eq_true, if_false] at ht ⊢
    split_ifs at ht with hpath
    obtain rfl := Option.some.inj ht
    have hfile : Mirror keepsHistory
        {u | (u ∈ owed ∨ old.bookUid = some u) ∨ row.bookUid = some u}
        { s with files := s.files.insert id row } :=
      h.insertFile (Bool.eq_false_of_not_eq_true hpath) fun u hu => by
        obtain ⟨hu, hnew⟩ := not_or.mp hu
        obtain ⟨hu, hbefore⟩ := not_or.mp hu
        exact ⟨hu, hnew, by simpa [hold] using hbefore⟩
    cases huid : row.bookUid with
    | none =>
      rw [huid] at hfile
      exact ⟨_, rfl, rfl, hfile.mono fun _ _ _ howed =>
        ⟨howed.resolve_right (by simp), by simp⟩⟩
    | some uid =>
      rw [huid] at hfile
      obtain ⟨s', hs', htables, hmirror⟩ := hfile.reindexBook false uid
        fun _ => .inr (Tables.hasFile_iff.mpr ⟨id, row, AList.lookup_insert _, huid⟩)
      refine ⟨s', hs', htables, hmirror.mono fun _ r _ howed => ?_⟩
      have hne : some uid ≠ some r.uid := fun heq => howed.2 (Option.some.inj heq).symm
      exact ⟨howed.1.resolve_right hne, hne⟩

/-- A file row goes. Its book gets a row for the files that are left. -/
lemma write_deleteFile (h : Mirror keepsHistory owed s) (id : ℤ) :
    ∃ s', State.fire { s with files := s.files.erase id } keepsHistory s.toTables
        (.deleteFile id) = some s' ∧
      s'.toTables = { s.toTables with files := s.files.erase id } ∧
      Mirror keepsHistory ((Write.deleteFile id).owes s.toTables owed) s' := by
  have hfile : Mirror keepsHistory
      {u | u ∈ owed ∨ (s.files.lookup id).bind (·.bookUid) = some u}
      { s with files := s.files.erase id } :=
    h.eraseFile fun u hu => not_or.mp hu
  simp only [State.fire, Write.owes]
  cases huid : (s.files.lookup id).bind (·.bookUid) with
  | none =>
    rw [huid] at hfile
    exact ⟨_, rfl, rfl, hfile.mono fun _ _ _ howed => ⟨howed.resolve_right (by simp), by simp⟩⟩
  | some uid =>
    rw [huid] at hfile
    obtain ⟨s', hs', htables, hmirror⟩ := hfile.reindexBook _ uid .inl
    refine ⟨s', hs', htables, hmirror.mono fun _ r _ howed => ?_⟩
    have hne : some uid ≠ some r.uid := fun heq => howed.2 (Option.some.inj heq).symm
    exact ⟨howed.1.resolve_right hne, hne⟩

/-- The text of a book changes, and its row with it. -/
lemma write_updateRecord (h : Mirror keepsHistory owed s) {id : ℤ} {text : IndexedText}
    {t : Tables} (ht : s.toTables.write (.updateRecord id text) = some t) :
    ∃ s', State.fire { s with toTables := t } keepsHistory s.toTables (.updateRecord id text) =
        some s' ∧ s'.toTables = t ∧
      Mirror keepsHistory ((Write.updateRecord id text).owes s.toTables owed) s' := by
  simp only [Tables.write] at ht
  simp only [State.fire, Write.owes]
  cases hr : s.records.lookup id with
  | none =>
    simp only [hr] at ht
    obtain rfl := Option.some.inj ht
    simp only [hr]
    exact ⟨s, rfl, rfl, h.mono fun _ _ _ howed => ⟨howed, by simp⟩⟩
  | some r =>
    simp only [hr] at ht
    obtain rfl := Option.some.inj ht
    simp only [AList.lookup_insert]
    obtain ⟨s', hs', htables, hmirror⟩ := h.updateRecord hr text
    refine ⟨s', hs', htables, hmirror.mono fun _ _ _ howed => ⟨howed.1, fun heq => ?_⟩⟩
    exact howed.2 (Option.some.inj heq).symm

/-- What one write does: the triggers refuse nothing, they leave the tables alone, and the index
mirrors the books again, but for what is then owed. -/
lemma write (h : Mirror keepsHistory owed s) {w : Write} {t : Tables}
    (ht : s.toTables.write w = some t) :
    ∃ s', s.write keepsHistory w = some s' ∧ s'.toTables = t ∧
      Mirror keepsHistory (w.owes s.toTables owed) s' := by
  unfold State.write
  rw [ht, Option.bind_some]
  cases w with
  | insertFile id row text recordId => exact h.write_insertFile ht
  | updateFile id row => exact h.write_updateFile ht
  | deleteFile id =>
    obtain rfl := Option.some.inj ht
    exact h.write_deleteFile id
  | insertRecord id r => exact h.insertRecord ht
  | updateRecord id text => exact h.write_updateRecord ht
  | deleteRecord id =>
    obtain rfl := Option.some.inj ht
    exact ⟨_, rfl, rfl, h.forget id⟩

end Mirror

/-! ## A library -/

def emma : IndexedText := ⟨some "Emma", none, some "Jane Austen", none, none, none⟩

/-- Two files of one book, and a book without a file. -/
def shelf : Tables where
  files := (∅ : Table ℤ FileRow).insert 1 ⟨some "a", "/l/a.epub", true⟩ |>.insert 2
    ⟨some "a", "/l/b.epub", true⟩
  records := (∅ : Table ℤ RecordRow).insert 1 ⟨"a", emma⟩ |>.insert 2 ⟨"b", emma⟩

lemma valid_shelf : shelf.Valid where
  uids i j r r' hi hj huid := by
    simp only [shelf, Table.lookup_insert', AList.lookup_empty] at hi hj
    split_ifs at hi hj <;> grind
  paths i j f f' hi hj hpath := by
    simp only [shelf, Table.lookup_insert', AList.lookup_empty] at hi hj
    split_ifs at hi hj <;> grind

/-! ## Runs -/

/-- A write, and the books that are then owed a row. -/
def step (keepsHistory : Bool) (p : State × Set String) (w : Write) : Option (State × Set String) :=
  (p.1.write keepsHistory w).map fun s => (s, w.owes p.1.toTables p.2)

/-- A statement or a transaction: all its writes, or none. -/
def exec (keepsHistory : Bool) (p : State × Set String) (writes : List Write) :
    State × Set String :=
  (writes.foldlM (step keepsHistory) p).getD p

/-- The same without an index. -/
def Tables.exec (t : Tables) (writes : List Write) : Tables := (writes.foldlM Tables.write t).getD t

section Run

variable {keepsHistory : Bool}

/-- The writes of a statement: the index never refuses one that the tables accept. -/
lemma foldlM_step (writes : List Write) {p : State × Set String}
    (h : Mirror keepsHistory p.2 p.1) :
    (writes.foldlM (step keepsHistory) p).map (·.1.toTables) =
        writes.foldlM Tables.write p.1.toTables ∧
      ∀ q, writes.foldlM (step keepsHistory) p = some q → Mirror keepsHistory q.2 q.1 := by
  induction writes generalizing p with
  | nil =>
    refine ⟨rfl, fun q hq => ?_⟩
    obtain rfl := Option.some.inj hq
    exact h
  | cons w writes ih =>
    simp only [List.foldlM_cons, Option.bind_eq_bind]
    cases ht : p.1.toTables.write w with
    | none =>
      have hstep : step keepsHistory p w = none := by
        rw [step, State.write, ht]
        rfl
      simp [hstep]
    | some t =>
      obtain ⟨s', hs', rfl, hmirror⟩ := h.write ht
      have hstep : step keepsHistory p w = some (s', w.owes p.1.toTables p.2) := by
        rw [step, hs']
        rfl
      rw [hstep, Option.bind_some, Option.bind_some]
      exact ih hmirror

/-- What one statement does. -/
lemma mirror_exec (writes : List Write) {p : State × Set String}
    (h : Mirror keepsHistory p.2 p.1) :
    Mirror keepsHistory (exec keepsHistory p writes).2 (exec keepsHistory p writes).1 ∧
      (exec keepsHistory p writes).1.toTables = p.1.toTables.exec writes := by
  obtain ⟨htables, hmirror⟩ := foldlM_step writes h
  unfold exec Tables.exec
  rw [← htables]
  cases hwrites : writes.foldlM (step keepsHistory) p with
  | none => exact ⟨h, rfl⟩
  | some q => exact ⟨hmirror q hwrites, rfl⟩

/-- What a run of statements does. -/
lemma mirror_foldl (stmts : List (List Write)) {p : State × Set String}
    (h : Mirror keepsHistory p.2 p.1) :
    Mirror keepsHistory (stmts.foldl (exec keepsHistory) p).2
        (stmts.foldl (exec keepsHistory) p).1 ∧
      (stmts.foldl (exec keepsHistory) p).1.toTables = stmts.foldl Tables.exec p.1.toTables := by
  induction stmts generalizing p with
  | nil => exact ⟨h, rfl⟩
  | cons writes stmts ih =>
    obtain ⟨hmirror, htables⟩ := mirror_exec writes h
    rw [List.foldl_cons, List.foldl_cons, ← htables]
    exact ih hmirror

end Run

/-! ## Migrations -/

/-- The index row of a book. -/
def Tables.indexRow (t : Tables) (r : RecordRow) : IndexRow := ⟨r.text, t.activePath r.uid⟩

/-- Migration 0019 fills the new index. -/
def Tables.buildIndex (t : Tables) : State :=
  { t with index := t.records.mapRows fun _ r => t.indexRow r }

/-- Migration 0020 indexes the books that the old delete trigger dropped. -/
def State.backfill (s : State) : State :=
  { s with
    index := (s.records.entries.filter fun e => (s.index.lookup e.1).isNone).foldl
      (fun index e => index.insert e.1 (s.indexRow e.2)) s.index }

/-- Migration 0029 gives a new id to the books whose id is not positive. The subquery for the id
is evaluated once. -/
def State.reid (s : State) : Option State :=
  let next := s.records.keys.max?.getD 0 + 1
  (s.records.entries.filter fun e => e.1 ≤ 0).foldlM (fun s e =>
    if (s.records.lookup next).isSome then none
    else some { s with records := (s.records.erase e.1).insert next e.2 }) s

lemma mirror_buildIndex {keepsHistory : Bool} {t : Tables} (h : t.Valid) :
    Mirror keepsHistory ∅ t.buildIndex where
  valid := h
  sound id row hrow := by
    rw [Tables.buildIndex, Table.lookup_mapRows] at hrow
    obtain ⟨r, hr, rfl⟩ := Option.map_eq_some_iff.mp hrow
    exact ⟨r, hr, rfl, fun _ => rfl⟩
  complete id r hr _ := by
    rw [Tables.buildIndex, Table.lookup_mapRows]
    change t.records.lookup id = some r at hr
    simp [hr]

lemma lookup_backfill (s : State) (id : ℤ) :
    s.backfill.index.lookup id =
      (s.index.lookup id).or ((s.records.lookup id).map s.indexRow) := by
  have hnodup : ((s.records.entries.filter fun e => (s.index.lookup e.1).isNone).map
      (·.1)).Nodup := List.NodupKeys.sublist List.filter_sublist s.records.nodupKeys
  let key : (Sigma fun _ : ℤ => RecordRow) → ℤ := fun e => e.1
  let row : (Sigma fun _ : ℤ => RecordRow) → IndexRow := fun e => s.indexRow e.2
  unfold State.backfill
  cases hold : s.index.lookup id with
  | some kept =>
    rw [Option.some_or, ← hold]
    refine Table.lookup_foldl_insert_of_not_mem key row fun e he heq => ?_
    have hnone := (List.mem_filter.mp he).2
    rw [show e.1 = id from heq, hold] at hnone
    cases hnone
  | none =>
    rw [Option.none_or]
    cases hr : s.records.lookup id with
    | some r =>
      have hmem : (⟨id, r⟩ : Sigma fun _ : ℤ => RecordRow) ∈
          s.records.entries.filter fun e => (s.index.lookup e.1).isNone := by
        rw [List.mem_filter]
        exact ⟨Table.lookup_eq_some_iff.mp hr, by simp [hold]⟩
      exact Table.lookup_foldl_insert_of_mem key row hnodup hmem
    | none =>
      rw [Option.map_none, ← hold]
      refine Table.lookup_foldl_insert_of_not_mem key row fun e he heq => ?_
      have hthere := Table.lookup_eq_some_iff.mpr (List.mem_of_mem_filter he)
      rw [show e.1 = id from heq, hr] at hthere
      cases hthere

lemma Mirror.backfill {keepsHistory : Bool} {owed : Set String} {s : State}
    (h : Mirror keepsHistory owed s) : Mirror true owed s.backfill where
  valid := h.valid
  sound id row hrow := by
    rw [lookup_backfill, Option.or_eq_some_iff] at hrow
    obtain hrow | ⟨-, hrow⟩ := hrow
    · exact h.sound id row hrow
    · obtain ⟨r, hr, rfl⟩ := Option.map_eq_some_iff.mp hrow
      exact ⟨r, hr, rfl, fun _ => rfl⟩
  complete id r hr _ := by
    change s.records.lookup id = some r at hr
    rw [lookup_backfill, hr]
    cases s.index.lookup id <;> rfl

/-- **The index mirrors the books** over every run, from the index that migration 0019 built,
through the backfill of migration 0020. The triggers never refuse a write that the tables accept:
the tables are what they would be without the index. -/
theorem mirror_run {t : Tables} (h : t.Valid) (before after : List (List Write)) :
    let p := before.foldl (exec false) (t.buildIndex, ∅)
    let q := after.foldl (exec true) (p.1.backfill, p.2)
    Mirror false p.2 p.1 ∧ Mirror true q.2 q.1 ∧
      q.1.toTables = (before ++ after).foldl Tables.exec t := by
  intro p q
  obtain ⟨hbefore, hold⟩ := mirror_foldl before (p := (t.buildIndex, ∅)) (mirror_buildIndex h)
  obtain ⟨hafter, hnew⟩ := mirror_foldl after (p := (p.1.backfill, p.2)) hbefore.backfill
  refine ⟨hbefore, hafter, hnew.trans ?_⟩
  rw [List.foldl_append]
  exact congrArg (after.foldl Tables.exec) hold

theorem mirror_run_shelf : ∃ owed s, Mirror true owed s ∧
    s.toTables = [[Write.deleteFile 1], [.deleteFile 2]].foldl Tables.exec shelf :=
  ⟨_, _, (mirror_run valid_shelf [[.deleteFile 1]] [[.deleteFile 2]]).2⟩

/-- No book has the id that the migration gives out. -/
lemma lookup_max_succ {ρ : Type*} (t : Table ℤ ρ) : t.lookup (t.keys.max?.getD 0 + 1) = none := by
  rw [AList.lookup_eq_none]
  intro hkey
  cases hmax : t.keys.max? with
  | none => simp [List.max?_eq_none_iff.mp hmax, AList.mem_keys] at hkey
  | some m =>
    have hle := (List.max?_eq_some_iff.mp hmax).2 _ (AList.mem_keys.mp hkey)
    simp [hmax] at hle

/-- A book with the id 0, as a restore could make it. -/
def zero : Tables where
  records := (∅ : Table ℤ RecordRow).insert 0 ⟨"a", emma⟩

lemma valid_zero : zero.Valid where
  uids i j r r' hi hj _ := by
    simp only [zero, Table.lookup_insert', AList.lookup_empty] at hi hj
    split_ifs at hi hj with hi' hj'
    rw [hi', hj']
  paths i j f f' hi := by
    simp only [zero, AList.lookup_empty] at hi
    cases hi

/-- The file row of another book. -/
def FileRow.rebind (f : FileRow) (uid : String) : FileRow := { f with bookUid := some uid }

/-- `UPDATE books SET book_uid = new WHERE book_uid = old`. -/
def Tables.rebindAll (t : Tables) (old new : String) : List Write :=
  (t.files.entries.filter fun e => e.2.bookUid == some old).map fun e =>
    .updateFile e.1 (e.2.rebind new)

/-- All files of a book move to another one, and the book is deleted. -/
def Tables.absorb (t : Tables) (old new : String) : List Write :=
  t.rebindAll old new ++ ((t.recordId old).map Write.deleteRecord).toList

section Rebind

variable {keepsHistory : Bool} {owed : Set String} {s s' : State} {id : ℤ} {f : FileRow}
  {a b : String}

/-- A file that moves keeps its path, so no constraint stops it. -/
lemma write_rebind (hvalid : s.Valid) (hf : s.files.lookup id = some f) :
    s.toTables.write (.updateFile id (f.rebind b)) =
      some { s.toTables with files := s.files.insert id (f.rebind b) } := by
  have hpath : s.pathTaken id (f.rebind b).path = false :=
    Tables.pathTaken_eq_false.mpr fun j f' hf' heq => hvalid.paths j id f' f hf' hf heq
  simp only [Tables.write, hf, Option.isNone_some, Bool.false_eq_true, if_false, hpath]

/-- The rows of a list of files move one after the other. -/
lemma foldlM_rebind (l : List (Sigma fun _ : ℤ => FileRow)) {p : State × Set String}
    (hmirror : Mirror keepsHistory p.2 p.1) (howed : p.2 ⊆ {a})
    (hnodup : (l.map (·.1)).Nodup) (hl : ∀ e ∈ l, p.1.files.lookup e.1 = some e.2)
    (ha : ∀ e ∈ l, e.2.bookUid = some a) :
    ∃ q, (l.map fun e => Write.updateFile e.1 (e.2.rebind b)).foldlM (step keepsHistory) p =
        some q ∧ Mirror keepsHistory q.2 q.1 ∧ q.2 ⊆ {a} ∧ q.1.records = p.1.records ∧
      ∀ j, q.1.files.lookup j = if j ∈ l.map (·.1) then (p.1.files.lookup j).map (·.rebind b)
        else p.1.files.lookup j := by
  induction l generalizing p with
  | nil => exact ⟨p, rfl, hmirror, howed, rfl, fun j => by simp⟩
  | cons e l ih =>
    obtain ⟨hfresh, hnodup⟩ := List.nodup_cons.mp hnodup
    have hf := hl e List.mem_cons_self
    obtain ⟨s', hs', htables, hmirror'⟩ :=
      hmirror.write (write_rebind (b := b) hmirror.valid hf)
    have hstep : step keepsHistory p (.updateFile e.1 (e.2.rebind b)) =
        some (s', (Write.updateFile e.1 (e.2.rebind b)).owes p.1.toTables p.2) := by
      rw [step, hs']
      rfl
    have hfiles : ∀ j, s'.files.lookup j =
        if j = e.1 then some (e.2.rebind b) else p.1.files.lookup j := fun j => by
      rw [htables, Table.lookup_insert']
    have howed' : (Write.updateFile e.1 (e.2.rebind b)).owes p.1.toTables p.2 ⊆ {a} := by
      intro u hu
      simp only [Write.owes, hf] at hu
      obtain hu | hu := hu.1
      · exact howed hu
      · exact (Option.some.inj ((ha e List.mem_cons_self).symm.trans hu)).symm
    have hl' : ∀ e' ∈ l, s'.files.lookup e'.1 = some e'.2 := fun e' he' => by
      have hne : e'.1 ≠ e.1 := fun heq => hfresh (List.mem_map.mpr ⟨e', he', heq⟩)
      rw [hfiles, if_neg hne]
      exact hl e' (List.mem_cons_of_mem _ he')
    obtain ⟨q, hq, hqmirror, hqowed, hqrecords, hqfiles⟩ := ih (p := (s', _)) hmirror' howed'
      hnodup hl' fun e' he' => ha e' (List.mem_cons_of_mem _ he')
    refine ⟨q, ?_, hqmirror, hqowed, hqrecords.trans (by rw [htables]), fun j => ?_⟩
    · rw [List.map_cons, List.foldlM_cons, hstep]
      exact hq
    · rw [hqfiles, hfiles, List.map_cons]
      by_cases hj : j = e.1
      · subst hj
        rw [if_neg hfresh, if_pos rfl, if_pos List.mem_cons_self, hf]
        rfl
      · rw [if_neg hj]
        simp only [List.mem_cons, hj, false_or]

/-- **Folding one book into another owes nothing**: every file of the one book is a file of the
other, the one book is gone, and the index mirrors what is left. -/
theorem mirror_absorb (h : Mirror keepsHistory ∅ s) (hid : (s.recordId a).isSome) :
    ∃ q, (s.absorb a b).foldlM (step keepsHistory) (s, ∅) = some q ∧
      Mirror keepsHistory ∅ q.1 ∧ q.1.recordId a = none ∧
      ∀ j, q.1.files.lookup j = (s.files.lookup j).map fun f =>
        if f.bookUid = some a then f.rebind b else f := by
  obtain ⟨id, hid⟩ := Option.isSome_iff_exists.mp hid
  obtain ⟨r, hr, rfl⟩ := h.valid.recordId_eq_some.mp hid
  set l := s.files.entries.filter fun e => e.2.bookUid == some r.uid with hl
  have hmem : ∀ e ∈ l, s.files.lookup e.1 = some e.2 ∧ e.2.bookUid = some r.uid := fun e he => by
    rw [hl, List.mem_filter, beq_iff_eq] at he
    exact ⟨Table.lookup_eq_some_iff.mpr he.1, he.2⟩
  have hnodup : (l.map (·.1)).Nodup :=
    List.NodupKeys.sublist List.filter_sublist s.files.nodupKeys
  obtain ⟨q, hq, hmirror, howed, hrecords, hfiles⟩ := foldlM_rebind (p := (s, ∅)) (b := b) l h
    (Set.empty_subset _) hnodup (fun e he => (hmem e he).1) fun e he => (hmem e he).2
  have hr' : q.1.records.lookup id = some r := by rw [hrecords, hr]
  obtain ⟨s', hs', htables, hmirror'⟩ := hmirror.write (w := .deleteRecord id) rfl
  have hgone : s'.recordId r.uid = none := by
    rw [Tables.recordId_eq_none, htables]
    intro j r' hj huid
    simp only [Table.lookup_erase'] at hj
    split_ifs at hj with hne
    exact hne (hmirror.valid.uids _ _ _ _ hj hr' huid)
  refine ⟨(s', (Write.deleteRecord id).owes q.1.toTables q.2), ?_, ?_, hgone, fun j => ?_⟩
  · have hlast : (s.absorb r.uid b) =
        (l.map fun e => Write.updateFile e.1 (e.2.rebind b)) ++ [.deleteRecord id] := by
      rw [Tables.absorb, hid]
      rfl
    rw [hlast, List.foldlM_append, hq]
    simp [step, hs']
  · refine hmirror'.mono fun j r' hj hu => ?_
    have hnot : r'.uid ≠ r.uid := Tables.recordId_eq_none.mp hgone j r' hj
    exact absurd (howed hu.1) hnot
  · rw [htables]
    change q.1.files.lookup j = _
    rw [hfiles]
    cases hj : s.files.lookup j with
    | none => simp
    | some f =>
      have hlisted : j ∈ l.map (·.1) ↔ f.bookUid = some r.uid := by
        constructor
        · intro hmap
          obtain ⟨e, he, rfl⟩ := List.mem_map.mp hmap
          rw [(hmem e he).1] at hj
          rw [← Option.some.inj hj]
          exact (hmem e he).2
        · intro huid
          refine List.mem_map.mpr ⟨⟨j, f⟩, ?_, rfl⟩
          rw [hl, List.mem_filter, beq_iff_eq]
          exact ⟨Table.lookup_eq_some_iff.mp hj, huid⟩
      simp only [hlisted, Option.map_some]
      split_ifs <;> rfl

/-- The triggers of a file leave the rows of other books alone. -/
lemma lookup_reindexBook {keeps : Bool} {uid : String} (h : s.reindexBook keeps uid = some s')
    {j : ℤ} (hj : s.recordId uid ≠ some j) : s'.index.lookup j = s.index.lookup j := by
  unfold State.reindexBook at h
  cases hid : s.recordId uid with
  | none =>
    rw [hid] at h
    obtain rfl := Option.some.inj h
    rfl
  | some id =>
    have hne : j ≠ id := fun heq => hj (by rw [hid, heq])
    have herase : (s.eraseIndex id).index.lookup j = s.index.lookup j :=
      AList.lookup_erase_ne hne
    rw [hid] at h
    dsimp only at h
    cases hr : s.records.lookup id with
    | none =>
      rw [hr] at h
      obtain rfl := Option.some.inj h
      exact herase
    | some r =>
      rw [hr] at h
      dsimp only at h
      split_ifs at h with hwhen
      · unfold State.insertIndex at h
        split_ifs at h
        obtain rfl := Option.some.inj h
        exact (AList.lookup_insert_ne hne).trans herase
      · obtain rfl := Option.some.inj h
        exact herase

/-- The files of a book after one of them left. -/
lemma lookup_rebind_iff (hne : a ≠ b) {j : ℤ} {g : FileRow} (hg : g.bookUid = some a) :
    (s.files.insert id (f.rebind b)).lookup j = some g ↔
      j ≠ id ∧ s.files.lookup j = some g := by
  rw [Table.lookup_insert']
  split_ifs with hj
  · refine iff_of_false (fun heq => ?_) fun hboth => hboth.1 hj
    obtain rfl := Option.some.inj heq
    exact hne (Option.some.inj hg).symm
  · exact (and_iff_right hj).symm

/-- A file that is not the active one can leave its book. -/
lemma activePath_rebind (hf : s.files.lookup id = some f) (ha : f.bookUid = some a) (hne : a ≠ b)
    (hactive : (s.activeFile a).map (·.1) ≠ some id) :
    Tables.activePath { s.toTables with files := s.files.insert id (f.rebind b) } a =
      s.activePath a := by
  cases hfile : s.activeFile a with
  | none =>
    have hmem : (⟨id, f⟩ : Sigma fun _ : ℤ => FileRow) ∈
        s.files.entries.filter fun e => e.2.bookUid == some a := by
      rw [List.mem_filter, beq_iff_eq]
      exact ⟨Table.lookup_eq_some_iff.mp hf, ha⟩
    rw [Tables.activeFile_eq_none] at hfile
    rw [hfile] at hmem
    cases hmem
  | some e =>
    rw [hfile] at hactive
    obtain ⟨he, huid, hmin⟩ := Tables.mem_activeFile.mp hfile
    have hmoved : Tables.activeFile
        { s.toTables with files := s.files.insert id (f.rebind b) } a = some e :=
      Tables.mem_activeFile.mpr
        ⟨(lookup_rebind_iff hne huid).mpr ⟨fun heq => hactive (by rw [← heq]; rfl), he⟩, huid,
          fun e' he' huid' => hmin e' ((lookup_rebind_iff hne huid').mp he').2 huid'⟩
    rw [Tables.activePath, Tables.activePath, hmoved, hfile]

/-- When the active file leaves, the book has another path: no other file has this one. -/
lemma activePath_rebind_ne (hvalid : s.Valid) (hne : a ≠ b)
    (hactive : (s.activeFile a).map (·.1) = some id) :
    Tables.activePath { s.toTables with files := s.files.insert id (f.rebind b) } a ≠
      s.activePath a := by
  obtain ⟨e, he, rfl⟩ := Option.map_eq_some_iff.mp hactive
  obtain ⟨hlookup, -, -⟩ := Tables.mem_activeFile.mp he
  rw [Tables.activePath, Tables.activePath, he, Option.map_some]
  intro hsame
  obtain ⟨e', he', heq⟩ := Option.map_eq_some_iff.mp hsame
  obtain ⟨hlookup', huid', -⟩ := Tables.mem_activeFile.mp he'
  obtain ⟨hmoved, hold⟩ := (lookup_rebind_iff hne huid').mp hlookup'
  exact hmoved (hvalid.paths _ _ _ _ hold hlookup heq)

/-- The move of a file writes no index row of the book that it leaves. -/
lemma lookup_index_rebind (hvalid : s.Valid) (hf : s.files.lookup id = some f) (hne : a ≠ b)
    (hs' : s.write keepsHistory (.updateFile id (f.rebind b)) = some s') {j : ℤ} {r : RecordRow}
    (hr : s.records.lookup j = some r) (huid : r.uid = a) :
    s'.index.lookup j = s.index.lookup j := by
  have hfire : State.reindexBook { s with files := s.files.insert id (f.rebind b) } false b =
      some s' := by
    rw [← hs', State.write, write_rebind hvalid hf]
    simp only [Option.bind_some, State.fire, hf, Option.isNone_some, Bool.false_eq_true, if_false,
      FileRow.rebind]
  refine lookup_reindexBook hfire fun hid => ?_
  obtain ⟨r', hr', huid'⟩ := hvalid.recordId_eq_some.mp hid
  obtain rfl := Option.some.inj (hr.symm.trans hr')
  exact hne (huid.symm.trans huid')

theorem mirror_absorb_shelf : ∃ q, (shelf.absorb "a" "b").foldlM (step true)
      (shelf.buildIndex, ∅) = some q ∧ Mirror true ∅ q.1 ∧ q.1.recordId "a" = none := by
  obtain ⟨q, hq, hmirror, hgone, -⟩ := mirror_absorb (s := shelf.buildIndex) (a := "a") (b := "b")
    (mirror_buildIndex valid_shelf) rfl
  exact ⟨q, hq, hmirror, hgone⟩

end Rebind

/-! ## The readers -/

/-- The join of `search_fts`: the durable book of an index row, when it has an active file. -/
def State.joined (s : State) (id : ℤ) : Option RecordRow :=
  (s.records.lookup id).filter fun r => (s.activeFile r.uid).isSome

/-- The index rows that match a query, as a set of ids. -/
def State.matched (s : State) (query : IndexRow → Bool) (id : ℤ) : Bool :=
  (s.index.lookup id).any query

/-- Library search: the best 50 rows that match, of books with a file. -/
def searchFts {ρ : Type*} [LinearOrder ρ] (s : State) (query : IndexRow → Bool) (rank : ℤ → ρ) :
    List ℤ :=
  ((s.index.keys.filter fun id => s.matched query id && (s.joined id).isSome).insertionSort
    fun i j => rank i ≤ rank j).take 50

/-- Reading history: the books without a file, all of them or those whose index row matches.
`listed` is the time by which they are sorted. -/
def listReadingHistory (s : State) (query : Option (IndexRow → Bool)) (listed : ℤ → String) :
    List ℤ :=
  (s.records.keys.filter fun id => (s.records.lookup id).any (fun r => !s.hasFile r.uid) &&
      query.all fun query => s.matched query id).insertionSort
    fun i j => listed j < listed i ∨ listed i = listed j ∧ i ≤ j

section Readers

variable {ρ : Type*} [LinearOrder ρ] {owed : Set String} {s : State} {id : ℤ} {r : RecordRow}
  {query : IndexRow → Bool}

lemma Tables.isSome_activeFile (t : Tables) (uid : String) :
    (t.activeFile uid).isSome = t.hasFile uid := by
  rw [Bool.eq_iff_iff, Option.isSome_iff_ne_none, ne_eq, activeFile_eq_none,
    List.filter_eq_nil_iff, hasFile, List.any_eq_true]
  push Not
  rfl

/-- A book that is owed nothing matches by its own text and path. -/
lemma Mirror.matched_eq (h : Mirror true owed s) (hr : s.records.lookup id = some r)
    (hpaid : r.uid ∉ owed) (query : IndexRow → Bool) :
    s.matched query id = query (s.indexRow r) := by
  obtain ⟨row, hrow⟩ := Option.isSome_iff_exists.mp (h.complete id r hr (.inl rfl))
  obtain ⟨r', hr', htext, hpath⟩ := h.sound id row hrow
  obtain rfl := Option.some.inj (hr.symm.trans hr')
  have hrow' : row = s.indexRow r := by
    obtain ⟨text, path⟩ := row
    obtain rfl := htext
    obtain rfl := hpath hpaid
    rfl
  rw [State.matched, hrow, hrow']
  rfl

lemma mem_listReadingHistory {query : Option (IndexRow → Bool)} {listed : ℤ → String}
    (hr : s.records.lookup id = some r) :
    id ∈ listReadingHistory s query listed ↔
      s.hasFile r.uid = false ∧ ∀ q ∈ query, s.matched q id = true := by
  have hkey : id ∈ s.records.keys := AList.lookup_isSome.mp (by rw [hr]; rfl)
  rw [listReadingHistory, List.mem_insertionSort, List.mem_filter, and_iff_right hkey, hr,
    Bool.and_eq_true, Option.any_some, Bool.not_eq_true', Option.all_eq_true]
  rfl

end Readers

end SearchIndex

end TuxBooks
