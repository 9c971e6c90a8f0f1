import TuxBooks.Sync.FieldMode
import TuxBooks.Sync.Inbox

set_option relaxedAutoImplicit false
set_option autoImplicit false

/-!
# Which cover a device ends with

A metadata edit names its cover by a file that travels beside it. A device that reads the edit
before the file applies the edit without the cover, reports that and logs the operation; the
file that comes later changes nothing, until the user asks for a retry, which publishes a new
edit. So the cover field converges to what was first read of the newest edit that names a cover.

## Main definitions

* `TuxBooks.SyncState.CoverReady` — the cover of an edit can be applied, or it names none.
* `TuxBooks.InboxEvent.Within` — the events that show operations of a set.
* `TuxBooks.Inbox.Merged` — the mirror is the fold of what was first read.
* `TuxBooks.SyncState.Tracks` — a file that is marked processed was read.

## Main results

* `TuxBooks.exists_first_reading` — where an operation was read first.
* `TuxBooks.cover_eq_first_reading` — the cover that a device ends with.
-/

namespace TuxBooks

open Delivery

/-! ## The edit without its cover -/

lemma Op.cover_eq_some {op : Op} {name : String} (h : op.cover = some name) :
    op.fields.lookup "cover_path" = some (.str name) := by
  unfold Op.cover at h
  split at h
  · obtain ⟨value, hvalue, hname⟩ := Option.bind_eq_some_iff.mp h
    cases value <;> simp [Value.asStr] at hname
    rw [hvalue, hname]
  · cases h

namespace Reading

variable {r : Reading}

@[simp] lemma handed_opId (r : Reading) : r.handed.opId = r.op.opId := by
  unfold handed
  split <;> rfl

@[simp] lemma handed_kind (r : Reading) : r.handed.kind = r.op.kind := by
  unfold handed
  split <;> rfl

@[simp] lemma handed_deleted (r : Reading) : r.handed.deleted = r.op.deleted := by
  unfold handed
  split <;> rfl

@[simp] lemma handed_hlc (r : Reading) : r.handed.hlc = r.op.hlc := by
  unfold handed
  split <;> rfl

/-- A reading that is not intact is of an edit that names a cover. -/
def Named (r : Reading) : Prop := r.intact = false → r.op.cover ≠ none

lemma lookup_handed (r : Reading) :
    r.handed.fields.lookup "cover_path" =
      if r.intact then r.op.fields.lookup "cover_path" else some .null := by
  unfold handed
  split
  · rfl
  · exact AList.lookup_insert _

/-- What is handed over carries a cover field only if the edit does. -/
lemma carries_of_handed (h : r.Named) {value : Value}
    (hvalue : r.handed.fields.lookup "cover_path" = some value) :
    ∃ value, r.op.fields.lookup "cover_path" = some value := by
  by_cases hintact : r.intact = true
  · rw [lookup_handed, if_pos hintact] at hvalue
    exact ⟨value, hvalue⟩
  · obtain ⟨name, hname⟩ := Option.ne_none_iff_exists'.mp (h (by simpa using hintact))
    exact ⟨_, Op.cover_eq_some hname⟩

end Reading

/-- Everything that can be handed over of the operations of `S`. -/
def Handed (S : Set Op) : Set Op := {op | ∃ r : Reading, r.op ∈ S ∧ r.handed = op}

/-- The cover field of an operation does not matter for the row that it writes. -/
lemma Mirror.Serves.handed {m : Mirror} {uid : String} {S : Set Op} (h : m.Serves uid S) :
    m.Serves uid (Handed S) where
  key := by
    rintro _ ⟨r, hr, rfl⟩
    rw [← h.key r.op hr, Reading.handed]
    split <;> rfl
  live := by
    rintro _ ⟨r, hr, rfl⟩
    rw [← h.live r.op hr, Reading.handed]
    split <;> rfl

/-! ## The mirror -/

namespace Inbox

/-- The mirror is the fold of what was first read of each operation. -/
structure Merged (m₀ : Mirror) (uid : String) (S : Set Op) (s : Inbox) : Prop where
  mem : ∀ r ∈ s.readings, r.op ∈ S
  named : ∀ r ∈ s.readings, r.Named
  serves : s.mirror.Serves uid (Handed S)
  canon : s.mirror.canonicalBookUid = m₀.canonicalBookUid
  log : ∀ op ∈ S, op.opId ∈ s.mirror.appliedOps ↔ op.opId ∈ s.readings.map fun r => r.op.opId
  row : s.mirror.row .metadata uid = EntityRow.run m₀.canonicalBookUid {}
    ((firsts (fun r : Reading => r.op.opId) [] s.readings).map Reading.handed)

section

variable {m₀ : Mirror} {uid : String} {S : Set Op} {s : Inbox}

lemma merged_of_fresh (hm : m₀.Fresh .metadata uid S) :
    Merged m₀ uid S { mirror := m₀ } where
  mem := fun _ hr => absurd hr List.not_mem_nil
  named := fun _ hr => absurd hr List.not_mem_nil
  serves := hm.serves.handed
  canon := rfl
  log := fun op hop => iff_of_false (hm.unseen op hop) List.not_mem_nil
  row := hm.row

/-- Issues, files and covers do not matter. -/
lemma Merged.congr (h : s.Merged m₀ uid S) {s' : Inbox} (hr : s'.readings = s.readings)
    (hm : ∃ issues, s'.mirror = { s.mirror with issues := issues }) : s'.Merged m₀ uid S := by
  obtain ⟨issues, hm⟩ := hm
  constructor
  · exact hr ▸ h.mem
  · exact hr ▸ h.named
  · exact hm ▸ ⟨h.serves.key, h.serves.live⟩
  · exact hm ▸ h.canon
  · rw [hr, hm]
    exact h.log
  · rw [hr, hm]
    exact h.row

/-- **One operation is handed over.** -/
lemma Merged.handOver (fromStr : String → Option Value) (h : s.Merged m₀ uid S)
    (hkind : ∀ op ∈ S, op.kind = .metadata) {r : Reading} (hr : r.op ∈ S) (hnamed : r.Named) :
    (s.handOver fromStr r).1.Merged m₀ uid S := by
  have hmem : ∀ r' ∈ s.readings ++ [r], r'.op ∈ S ∧ r'.Named := by
    intro r' hr'
    rcases List.mem_append.mp hr' with hr' | hr'
    · exact ⟨h.mem r' hr', h.named r' hr'⟩
    · rw [List.mem_singleton.mp hr']
      exact ⟨hr, hnamed⟩
  by_cases hseen : r.handed.opId ∈ s.mirror.appliedOps
  · have hold : r.op.opId ∈ s.readings.map fun r => r.op.opId :=
      (h.log r.op hr).mp (r.handed_opId ▸ hseen)
    have hmirror : (s.handOver fromStr r).1.mirror = s.mirror := by
      show (s.mirror.applyOp fromStr r.handed).1 = s.mirror
      rw [Mirror.applyOp_of_mem fromStr hseen]
    refine ⟨fun r' hr' => (hmem r' hr').1, fun r' hr' => (hmem r' hr').2, ?_, ?_, ?_, ?_⟩
    · exact hmirror ▸ h.serves
    · exact hmirror ▸ h.canon
    · intro op hop
      show _ ↔ op.opId ∈ (s.readings ++ [r]).map _
      rw [hmirror, h.log op hop, List.map_append, List.mem_append, List.map_singleton,
        List.mem_singleton, or_iff_left_of_imp]
      exact fun heq => heq ▸ hold
    · show _ = EntityRow.run _ _ ((firsts _ [] (s.readings ++ [r])).map _)
      rw [hmirror, h.row, firsts_append_singleton, if_pos (Or.inr hold)]
  · have hnew : r.op.opId ∉ s.readings.map fun r => r.op.opId := fun hin =>
      hseen (r.handed_opId ▸ (h.log r.op hr).mpr hin)
    have hk : r.handed.kind = .metadata := r.handed_kind.trans (hkind r.op hr)
    obtain ⟨hserves, hcanon, hlog, hrow⟩ := h.serves.applyOp fromStr ⟨r, hr, rfl⟩
      (hk ▸ by decide) hseen
    refine ⟨fun r' hr' => (hmem r' hr').1, fun r' hr' => (hmem r' hr').2, hserves,
      hcanon.trans h.canon, ?_, ?_⟩
    · intro op hop
      show _ ↔ op.opId ∈ (s.readings ++ [r]).map _
      rw [List.map_append, List.mem_append, ← h.log op hop, List.map_singleton,
        List.mem_singleton, ← r.handed_opId]
      exact (hlog op.opId).trans or_comm
    · show _ = EntityRow.run _ _ ((firsts _ [] (s.readings ++ [r])).map _)
      rw [hk] at hrow
      rw [firsts_append_singleton, if_neg (not_or.mpr ⟨List.not_mem_nil, hnew⟩), List.map_append,
        EntityRow.run_append, ← h.row, ← h.canon]
      exact hrow

end

end Inbox

/-! ## One event -/

namespace SyncState

/-- The cover that the operation names, if any, is in the cache or can be copied into it. -/
def CoverReady (s : SyncState) (io : Option AppError) (op : Op) : Bool :=
  match op.cover with
  | none => true
  | some name => decide ((applyCoverBlob s.root io s.inbox.coversDir name).2 = .ok true)

/-- The file has been read: its operation, if it holds one, is among the readings. -/
def WasRead (s : SyncState) (path : String) : Prop :=
  ∃ f, s.root.ops.lookup path = some f ∧
    ∀ op, f.content = .ok op → ∃ r ∈ s.inbox.readings, r.op = op

/-- The pass works on files of the folder, and what is marked processed was read. -/
structure Tracks (S : Set Op) (s : SyncState) : Prop where
  ops : ∀ path f op, s.root.ops.lookup path = some f → f.content = .ok op → op ∈ S
  rest : ∀ p, s.inbox.pass = some p → ∀ e ∈ p.rest, s.root.ops.lookup e.1 = some e.2
  marks : ∀ p, s.inbox.pass = some p → ∀ e ∈ p.marks, s.WasRead e.1
  processed : ∀ path row, s.inbox.files.lookup path = some row → row.processedAt = true →
    s.WasRead path

/-- Files and readings only come in. -/
structure Grows (s s' : SyncState) : Prop where
  ops : ∀ path f, s.root.ops.lookup path = some f → s'.root.ops.lookup path = some f
  readings : s.inbox.readings <+: s'.inbox.readings

lemma WasRead.mono {s s' : SyncState} (h : s.Grows s') {path : String} (hread : s.WasRead path) :
    s'.WasRead path := by
  obtain ⟨f, hf, hop⟩ := hread
  refine ⟨f, h.ops path f hf, fun op hcontent => ?_⟩
  obtain ⟨r, hr, hrop⟩ := hop op hcontent
  exact ⟨r, h.readings.subset hr, hrop⟩

end SyncState

namespace Inbox

/-- The pass of `s'`, if it goes on, works on some of the files of the pass of `s` and has marked
the files `new` since. -/
def Continues (s s' : Inbox) (new : List (String × OpFile)) : Prop :=
  ∀ p', s'.pass = some p' → ∃ p, s.pass = some p ∧ p'.rest ⊆ p.rest ∧ p'.marks = p.marks ++ new

/-- What one iteration of the loop does. -/
inductive ReadOutcome (fromStr : String → Option Value) (root : Folder) (io : Option AppError)
    (s s' : Inbox) : Prop
  /-- There is no pass, or the file is processed, or the pass has read enough. -/
  | skipped (hfiles : s'.files = s.files) (hmirror : s'.mirror = s.mirror)
      (hreadings : s'.readings = s.readings) (hpass : s.Continues s' [])
  /-- The file cannot be read. -/
  | failed (p : Pass) (path : String) (f : OpFile) (detail : String) (hrun : s.pass = some p)
      (hmem : (path, f) ∈ p.rest) (hcontent : f.content = .error detail)
      (hfiles : s'.files = (s.recordFileFailure path f).files)
      (hmirror : s'.mirror = (s.recordFileFailure path f).mirror)
      (hreadings : s'.readings = s.readings) (hpass : s.Continues s' [])
  /-- The operation is read and handed over, after an issue if its cover is not there. -/
  | read (p : Pass) (path : String) (f : OpFile) (op : Op) (hrun : s.pass = some p)
      (hmem : (path, f) ∈ p.rest) (hcontent : f.content = .ok op) (issues : List IssueRow)
      (hfiles : s'.files = s.files)
      (hmirror : s'.mirror = (Mirror.applyOp fromStr { s.mirror with issues := issues }
        (Reading.handed ⟨op, SyncState.CoverReady ⟨root, s⟩ io op⟩)).1)
      (hreadings : s'.readings = s.readings ++ [⟨op, SyncState.CoverReady ⟨root, s⟩ io op⟩])
      (hpass : s.Continues s' [(path, f)])

lemma exists_recordIssue (m : Mirror) (key kind : String) :
    ∃ issues, m.recordIssue key kind = { m with issues := issues } := by
  unfold Mirror.recordIssue
  split
  · exact ⟨m.issues, rfl⟩
  · exact ⟨_, rfl⟩

/-- Fetching the cover changes the cache and the issues. -/
lemma resolveCover_eq (s : Inbox) (root : Folder) (io : Option AppError) (op : Op) :
    ∃ covers issues, s.resolveCover root io op =
      ({ s with coversDir := covers, mirror := { s.mirror with issues := issues } },
        ⟨op, SyncState.CoverReady ⟨root, s⟩ io op⟩) := by
  unfold resolveCover SyncState.CoverReady
  cases op.cover with
  | none => exact ⟨s.coversDir, s.mirror.issues, rfl⟩
  | some name =>
    dsimp only
    obtain ⟨issues, hissues⟩ := exists_recordIssue s.mirror ("cover-missing:" ++ name)
      "cover_missing"
    rcases applyCoverBlob root io s.coversDir name with ⟨covers, result⟩
    cases result with
    | ok ready =>
      cases ready with
      | true => exact ⟨covers, s.mirror.issues, rfl⟩
      | false => exact ⟨covers, issues, by simp [hissues]⟩
    | error e => exact ⟨covers, issues, by simp [hissues]⟩

lemma handOver_eq (fromStr : String → Option Value) (s : Inbox) (r : Reading) :
    s.handOver fromStr r =
      ({ s with mirror := (s.mirror.applyOp fromStr r.handed).1, readings := s.readings ++ [r] },
        (s.mirror.applyOp fromStr r.handed).2) := rfl

lemma readOutcome (fromStr : String → Option Value) (root : Folder) (io : Option AppError)
    (s : Inbox) : ReadOutcome fromStr root io s (s.readNext fromStr root io) := by
  unfold readNext
  cases hrun : s.pass with
  | none => exact .skipped rfl rfl rfl fun p' hp' => by simp [hrun] at hp'
  | some p =>
    dsimp only
    cases hrest : p.rest with
    | nil =>
      exact .skipped rfl rfl rfl fun p' hp' => ⟨p', hp', fun _ h => h, (List.append_nil _).symm⟩
    | cons e rest =>
      obtain ⟨path, f⟩ := e
      have hmem : (path, f) ∈ p.rest := hrest ▸ List.mem_cons_self
      have hsub : rest ⊆ p.rest := hrest ▸ List.subset_cons_self _ _
      dsimp only
      split_ifs with hdone hfull
      · refine .skipped rfl rfl rfl fun p' hp' => ⟨p, hrun, ?_⟩
        cases hp'
        exact ⟨hsub, (List.append_nil _).symm⟩
      · refine .skipped rfl rfl rfl fun p' hp' => ⟨p, hrun, ?_⟩
        cases hp'
        exact ⟨List.nil_subset _, (List.append_nil _).symm⟩
      · cases hcontent : f.content with
        | error detail =>
          refine .failed p path f detail hrun hmem hcontent rfl rfl rfl fun p' hp' => ⟨p, hrun, ?_⟩
          cases hp'
          exact ⟨hsub, (List.append_nil _).symm⟩
        | ok op =>
          obtain ⟨covers, issues, hresolve⟩ := resolveCover_eq s root io op
          dsimp only
          rw [hresolve]
          dsimp only
          rw [handOver_eq]
          dsimp only
          split
          · next s₁ e hhand =>
            obtain ⟨rfl, -⟩ := Prod.mk.inj hhand
            exact .read p path f op hrun hmem hcontent issues rfl rfl rfl fun p' hp' => by cases hp'
          · next s₁ applied hhand =>
            obtain ⟨rfl, -⟩ := Prod.mk.inj hhand
            refine .read p path f op hrun hmem hcontent issues rfl rfl rfl fun p' hp' =>
              ⟨p, hrun, ?_⟩
            cases hp'
            exact ⟨hsub, rfl⟩

end Inbox

namespace InboxEvent

/-- The event shows operations of `S` only. -/
def Within (S : Set Op) : InboxEvent → Prop
  | file _ f => ∀ op, f.content = .ok op → op ∈ S
  | _ => True

section Step

variable (fromStr : String → Option Value) (s : SyncState)

/-- A file that becomes visible changes nothing on the device. -/
lemma inbox_file (path : String) (f : OpFile) : ((file path f).step fromStr s).inbox = s.inbox := by
  dsimp only [step]
  split <;> rfl

lemma inbox_blob (name : String) (size : ℕ) :
    ((blob name size).step fromStr s).inbox = s.inbox := by
  dsimp only [step]
  split <;> rfl

lemma ops_blob (name : String) (size : ℕ) :
    ((blob name size).step fromStr s).root.ops = s.root.ops := by
  dsimp only [step]
  split <;> rfl

/-- A file is visible after an event if it was, or if the event shows it. -/
lemma lookup_ops_file (path : String) (f : OpFile) (path' : String) :
    ((file path f).step fromStr s).root.ops.lookup path' =
      if s.root.ops.lookup path' = none ∧ path' = path then some f
      else s.root.ops.lookup path' := by
  dsimp only [step]
  split_ifs with hmem h h
  · rw [← h.2, ← AList.lookup_isSome, h.1] at hmem
    cases hmem
  · rfl
  · rw [h.2, AList.lookup_insert]
  · rw [Table.lookup_insert', if_neg]
    rintro rfl
    exact h ⟨AList.lookup_eq_none.mpr hmem, rfl⟩

/-- An event reads one operation, or none. -/
lemma readings_step (e : InboxEvent) :
    (e.step fromStr s).inbox.readings = s.inbox.readings ∨
      ∃ io op, e = .next io ∧
        (e.step fromStr s).inbox.readings = s.inbox.readings ++ [⟨op, s.CoverReady io op⟩] := by
  cases e with
  | file path f => exact Or.inl (by rw [inbox_file])
  | blob name size => exact Or.inl (by rw [inbox_blob])
  | start =>
    left
    show (s.inbox.startPass s.root).readings = _
    unfold Inbox.startPass
    split <;> rfl
  | finish marks =>
    left
    show (s.inbox.finishPass marks).readings = _
    unfold Inbox.finishPass
    split
    · rfl
    · split <;> rfl
  | next io =>
    cases Inbox.readOutcome fromStr s.root io s.inbox with
    | skipped _ _ hreadings => exact Or.inl hreadings
    | failed _ _ _ _ _ _ _ _ _ hreadings => exact Or.inl hreadings
    | read _ _ _ op _ _ _ _ _ _ hreadings => exact Or.inr ⟨io, op, rfl, hreadings⟩
  | _ => exact Or.inl rfl

lemma grows_step (e : InboxEvent) : s.Grows (e.step fromStr s) where
  ops := by
    intro path f hf
    cases e with
    | file path' f' => rw [lookup_ops_file, if_neg fun h => by simp [hf] at h, hf]
    | blob name size => rw [ops_blob, hf]
    | _ => exact hf
  readings := by
    rcases readings_step fromStr s e with h | ⟨_, _, _, h⟩
    · rw [h]
    · rw [h]
      exact List.prefix_append _ _

variable {fromStr s} {S : Set Op} {e : InboxEvent}

/-- A mark that a pass has written is one of its marks. -/
lemma lookup_foldl_markFile {marks : List (String × OpFile)} {files : Table String RemoteFileRow}
    {path : String} {row : RemoteFileRow}
    (h : (marks.foldl Inbox.markFile files).lookup path = some row) :
    files.lookup path = some row ∨ ∃ m ∈ marks, m.1 = path := by
  induction marks generalizing files with
  | nil => exact Or.inl h
  | cons m marks ih =>
    rcases ih h with hold | ⟨m', hm', hpath⟩
    · unfold Inbox.markFile at hold
      rw [Table.lookup_insert'] at hold
      by_cases hpath : path = m.1
      · exact Or.inr ⟨m, List.mem_cons_self, hpath.symm⟩
      · rw [if_neg hpath] at hold
        exact Or.inl hold
    · exact Or.inr ⟨m', List.mem_cons_of_mem _ hm', hpath⟩

lemma mem_scanOps {root : Folder} {f : String × OpFile} :
    f ∈ root.scanOps ↔ root.ops.lookup f.1 = some f.2 ∧ isOpFile f.1 = true := by
  unfold Folder.scanOps
  rw [List.mem_insertionSort, List.mem_filter, List.mem_map, Table.lookup_eq_some_iff]
  refine and_congr_left fun _ => ⟨?_, fun h => ⟨_, h, rfl⟩⟩
  rintro ⟨e, he, rfl⟩
  exact he

/-- A pass that goes on keeps the table right, if the files that it has newly marked and those
that are newly processed were read. -/
lemma tracks_continue (h : s.Tracks S) {s' : Inbox} (hgrows : s.Grows ⟨s.root, s'⟩)
    {new : List (String × OpFile)} (hpass : s.inbox.Continues s' new)
    (hnew : ∀ e ∈ new, SyncState.WasRead ⟨s.root, s'⟩ e.1)
    (hfiles : ∀ path row, s'.files.lookup path = some row → row.processedAt = true →
      s.inbox.files.lookup path = some row ∨ SyncState.WasRead ⟨s.root, s'⟩ path) :
    SyncState.Tracks S ⟨s.root, s'⟩ where
  ops := h.ops
  rest := fun p' hp' e he => by
    obtain ⟨p, hp, hsub, -⟩ := hpass p' hp'
    exact h.rest p hp e (hsub he)
  marks := fun p' hp' e he => by
    obtain ⟨p, hp, -, hmarks⟩ := hpass p' hp'
    rw [hmarks] at he
    rcases List.mem_append.mp he with he | he
    · exact (h.marks p hp e he).mono hgrows
    · exact hnew e he
  processed := fun path row hrow hdone => by
    rcases hfiles path row hrow hdone with hold | hread
    · exact (h.processed path row hold hdone).mono hgrows
    · exact hread

/-- **The file table is right after each event.** -/
lemma tracks_step (h : s.Tracks S) (he : e.Within S) : (e.step fromStr s).Tracks S := by
  have hgrows := grows_step fromStr s e
  cases e with
  | file path f =>
    refine ⟨fun path' f' op hf hop => ?_, ?_, ?_, ?_⟩
    · rw [lookup_ops_file] at hf
      split_ifs at hf
      · cases hf
        exact he op hop
      · exact h.ops path' f' op hf hop
    · rw [inbox_file]
      exact fun p hp e he => hgrows.ops _ _ (h.rest p hp e he)
    · rw [inbox_file]
      exact fun p hp e he => (h.marks p hp e he).mono hgrows
    · rw [inbox_file]
      exact fun path' row hrow hdone => (h.processed path' row hrow hdone).mono hgrows
  | blob name size =>
    refine ⟨?_, ?_, ?_, ?_⟩
    · rw [ops_blob]
      exact h.ops
    · rw [ops_blob, inbox_blob]
      exact h.rest
    · rw [inbox_blob]
      exact fun p hp e he => (h.marks p hp e he).mono hgrows
    · rw [inbox_blob]
      exact fun path' row hrow hdone => (h.processed path' row hrow hdone).mono hgrows
  | cache coversDir => exact ⟨h.ops, h.rest, h.marks, h.processed⟩
  | start =>
    show SyncState.Tracks S { s with inbox := s.inbox.startPass s.root }
    unfold Inbox.startPass
    cases hpass : s.inbox.pass with
    | some p => exact h
    | none =>
      refine ⟨h.ops, fun p hp e he => ?_, fun p hp e he => ?_, h.processed⟩
      · cases hp
        exact (mem_scanOps.mp he).1
      · cases hp
        cases he
  | next io =>
    cases Inbox.readOutcome fromStr s.root io s.inbox with
    | skipped hfiles hmirror hreadings hpass =>
      refine tracks_continue h hgrows hpass (fun _ h => nomatch h) fun path row hrow _ => ?_
      exact Or.inl (hfiles ▸ hrow)
    | failed p path f detail hrun hmem hcontent hfiles hmirror hreadings hpass =>
      refine tracks_continue h hgrows hpass (fun _ h => nomatch h) fun path' row hrow _ => ?_
      by_cases hpath : path' = path
      · refine Or.inr ⟨f, hpath ▸ h.rest p hrun _ hmem, fun op hop => ?_⟩
        rw [hcontent] at hop
        cases hop
      · left
        rw [hfiles] at hrow
        exact (AList.lookup_insert_ne hpath).symm.trans hrow
    | read p path f op hrun hmem hcontent issues hfiles hmirror hreadings hpass =>
      refine tracks_continue h hgrows hpass (fun e he => ?_) fun path' row hrow _ => ?_
      · rw [List.mem_singleton.mp he]
        refine ⟨f, h.rest p hrun _ hmem, fun op' hop' => ?_⟩
        rw [hcontent] at hop'
        cases hop'
        exact ⟨_, hreadings ▸ List.mem_append_right _ List.mem_cons_self, rfl⟩
      · exact Or.inl (hfiles ▸ hrow)
  | finish marks =>
    show SyncState.Tracks S { s with inbox := s.inbox.finishPass marks }
    unfold Inbox.finishPass
    cases hpass : s.inbox.pass with
    | none => exact h
    | some p =>
      dsimp only
      cases hrest : p.rest with
      | cons => exact h
      | nil =>
        refine ⟨h.ops, fun _ hp' => (nomatch hp'), fun _ hp' => (nomatch hp'), ?_⟩
        intro path row hrow hdone
        rcases lookup_foldl_markFile hrow with hold | ⟨m, hm, rfl⟩
        · exact h.processed path row hold hdone
        · exact h.marks p hpass m (List.mem_of_mem_take hm)
  | fail => exact ⟨h.ops, fun _ hp => (nomatch hp), fun _ hp => (nomatch hp), h.processed⟩

/-- **What was first read is merged after each event.** -/
lemma merged_step {m₀ : Mirror} {uid : String} (h : s.inbox.Merged m₀ uid S) (ht : s.Tracks S)
    (hkind : ∀ op ∈ S, op.kind = .metadata) :
    (e.step fromStr s).inbox.Merged m₀ uid S := by
  cases e with
  | file path f => exact (inbox_file fromStr s path f).symm ▸ h
  | blob name size => exact (inbox_blob fromStr s name size).symm ▸ h
  | start =>
    show (s.inbox.startPass s.root).Merged m₀ uid S
    unfold Inbox.startPass
    split <;> exact h.congr rfl ⟨s.inbox.mirror.issues, rfl⟩
  | next io =>
    cases Inbox.readOutcome fromStr s.root io s.inbox with
    | skipped hfiles hmirror hreadings hpass =>
      exact h.congr hreadings ⟨s.inbox.mirror.issues, hmirror⟩
    | failed p path f detail hrun hmem hcontent hfiles hmirror hreadings hpass =>
      obtain ⟨issues, hissues⟩ := Inbox.exists_recordIssue s.inbox.mirror ("file:" ++ path) _
      exact h.congr hreadings ⟨issues, hmirror.trans hissues⟩
    | read p path f op hrun hmem hcontent issues hfiles hmirror hreadings hpass =>
      have hop : op ∈ S := ht.ops path f op (ht.rest p hrun _ hmem) hcontent
      have hissue : Inbox.Merged m₀ uid S
          { s.inbox with mirror := { s.inbox.mirror with issues := issues } } :=
        h.congr rfl ⟨issues, rfl⟩
      have hnamed : Reading.Named ⟨op, s.CoverReady io op⟩ := fun hready => by
        rintro hnone
        simp [SyncState.CoverReady, show op.cover = none from hnone] at hready
      exact (hissue.handOver fromStr hkind hop hnamed).congr hreadings ⟨_, hmirror⟩
  | finish marks =>
    show (s.inbox.finishPass marks).Merged m₀ uid S
    unfold Inbox.finishPass
    split
    · exact h
    · split
      · exact h.congr rfl ⟨s.inbox.mirror.issues, rfl⟩
      · exact h
  | _ => exact h.congr rfl ⟨s.inbox.mirror.issues, rfl⟩

end Step

/-! ## A run -/

section Run

variable (fromStr : String → Option Value)

lemma run_append (s : SyncState) (events events' : List InboxEvent) :
    run fromStr s (events ++ events') = run fromStr (run fromStr s events) events' :=
  List.foldl_append

lemma readings_run (s : SyncState) (events : List InboxEvent) :
    s.inbox.readings <+: (run fromStr s events).inbox.readings := by
  induction events generalizing s with
  | nil => exact List.prefix_rfl
  | cons e events ih => exact (grows_step fromStr s e).readings.trans (ih (e.step fromStr s))

/-- Both invariants hold along every run that shows operations of `S` only. -/
lemma invariants_run {S : Set Op} {m₀ : Mirror} {uid : String}
    (hkind : ∀ op ∈ S, op.kind = .metadata) {s : SyncState} (ht : s.Tracks S)
    (hm : s.inbox.Merged m₀ uid S) {events : List InboxEvent}
    (hevents : ∀ e ∈ events, e.Within S) :
    (run fromStr s events).Tracks S ∧ (run fromStr s events).inbox.Merged m₀ uid S := by
  induction events generalizing s with
  | nil => exact ⟨ht, hm⟩
  | cons e events ih =>
    exact ih (tracks_step ht (hevents e List.mem_cons_self)) (merged_step hm ht hkind)
      fun e' he' => hevents e' (List.mem_cons_of_mem _ he')

/-- **An operation that was read was read a first time**, by one step of a pass. -/
theorem exists_first_reading {s : SyncState} {events : List InboxEvent} {op : Op}
    (hnone : ∀ r ∈ s.inbox.readings, r.op ≠ op)
    (hread : ∃ r ∈ (run fromStr s events).inbox.readings, r.op = op) :
    ∃ before io after, events = before ++ .next io :: after ∧
      (∀ r ∈ (run fromStr s before).inbox.readings, r.op ≠ op) ∧
      (run fromStr s (before ++ [.next io])).inbox.readings =
        (run fromStr s before).inbox.readings ++
          [⟨op, (run fromStr s before).CoverReady io op⟩] := by
  induction events using List.reverseRecOn with
  | nil =>
    obtain ⟨r, hr, hrop⟩ := hread
    exact absurd hrop (hnone r hr)
  | append_singleton events e ih =>
    by_cases hearlier : ∃ r ∈ (run fromStr s events).inbox.readings, r.op = op
    · obtain ⟨before, io, after, hevents, hbefore, hfirst⟩ := ih hearlier
      refine ⟨before, io, after ++ [e], ?_, hbefore, hfirst⟩
      rw [hevents, List.append_assoc, List.cons_append]
    · have hbefore : ∀ r ∈ (run fromStr s events).inbox.readings, r.op ≠ op := fun r hr hrop =>
        hearlier ⟨r, hr, hrop⟩
      rw [run_append] at hread
      rcases readings_step fromStr (run fromStr s events) e with h | ⟨io, op', rfl, h⟩
      · obtain ⟨r, hr, hrop⟩ := hread
        exact absurd hrop (hbefore r (h ▸ hr))
      · obtain ⟨r, hr, hrop⟩ := hread
        have hop : op' = op := by
          rcases List.mem_append.mp (h ▸ hr : r ∈ _ ++ _) with hr | hr
          · exact absurd hrop (hbefore r hr)
          · rw [← hrop, List.mem_singleton.mp hr]
        rw [hop] at h
        exact ⟨events, io, [], rfl, hbefore, (run_append fromStr s events _).symm ▸ h⟩

end Run

end InboxEvent

/-! ## The cover -/

/-- A file with the operation is visible. -/
def SyncState.Shows (s : SyncState) (op : Op) : Prop :=
  ∃ f ∈ s.root.scanOps, f.2.content = .ok op

section Cover

open InboxEvent

variable (fromStr : String → Option Value) {uid : String} {S : Set Op} {m : Mirror}

lemma tracks_fresh (S : Set Op) (m : Mirror) :
    SyncState.Tracks S { inbox := { mirror := m } } where
  ops := fun _ _ _ hf => by cases hf
  rest := fun _ hp => by cases hp
  marks := fun _ hp => by cases hp
  processed := fun _ _ hrow => by cases hrow

/-- When nothing is left to do, every operation with a visible file has been read. -/
lemma exists_reading {s : SyncState} (ht : s.Tracks S) (hsettled : s.Settled) {op : Op}
    (hshows : s.Shows op) : ∃ r ∈ s.inbox.readings, r.op = op := by
  obtain ⟨⟨path, f⟩, hf, hcontent⟩ := hshows
  have hdone := hsettled _ hf
  unfold Inbox.isProcessed at hdone
  cases hrow : s.inbox.files.lookup path with
  | none => simp [hrow] at hdone
  | some row =>
    simp only [hrow, Bool.and_eq_true] at hdone
    obtain ⟨f', hf', hread⟩ := ht.processed path row hrow hdone.2
    have heq : f' = f := Option.some_inj.mp (hf'.symm.trans (mem_scanOps.mp hf).1)
    exact hread op (heq ▸ hcontent)

/-- The row holds what was handed over of the newest edit that names a cover. -/
lemma Inbox.Merged.lookup_cover {s : Inbox} {m₀ : Mirror} (h : s.Merged m₀ uid S)
    (hS : Batch .metadata uid S) (hup : ∀ op ∈ S, op.deleted = false) {G : Op}
    (hG : Newest S "cover_path" G) {r : Reading} (hr : r.op = G)
    (hfirst : s.readings.find? (fun r' => r'.op.opId = r.op.opId) = some r) :
    (s.mirror.row .metadata uid).fields.lookup "cover_path" = r.handed.write "cover_path" := by
  have hmem : ∀ r' ∈ firsts (fun r : Reading => r.op.opId) [] s.readings, r' ∈ s.readings :=
    fun r' hr' => (mem_of_mem_firsts hr').1
  have hfirst' : r ∈ firsts (fun r : Reading => r.op.opId) [] s.readings :=
    mem_firsts_iff_find?.mpr ⟨List.not_mem_nil, hfirst⟩
  obtain ⟨value, hvalue⟩ : ∃ value, r.handed.fields.lookup "cover_path" = some value := by
    obtain ⟨value, hvalue⟩ := hG.carries
    rw [Reading.lookup_handed, hr, hvalue]
    split
    · exact ⟨value, rfl⟩
    · exact ⟨.null, rfl⟩
  have hwrite : r.handed.write "cover_path" = some ⟨value, G.hlc⟩ :=
    Op.write_eq_some.mpr ⟨hvalue, by rw [Reading.handed_hlc, hr]⟩
  rw [h.row, hwrite]
  refine EntityRow.lookup_run_of_newest_write (fun op hop => ?_) _
    (List.mem_map_of_mem hfirst') hwrite fun op hop w hw hne => ?_
  · obtain ⟨r', hr', rfl⟩ := List.mem_map.mp hop
    have hop' := h.mem r' (hmem r' hr')
    rw [Reading.handed_kind, Reading.handed_deleted, hS.kind_eq _ hop', hup _ hop']
    exact ⟨rfl, rfl⟩
  · obtain ⟨r', hr', rfl⟩ := List.mem_map.mp hop
    have hop' := h.mem r' (hmem r' hr')
    obtain ⟨hvalue', hhlc⟩ := Op.write_eq_some.mp hw
    rw [Reading.handed_hlc] at hhlc
    have hle : r'.op.hlc ≤ G.hlc := hG.le r'.op hop'
      (Reading.carries_of_handed (h.named r' (hmem r' hr')) hvalue')
    rw [hhlc]
    refine hle.lt_of_ne fun heq => hne ?_
    have hsame : r'.op = r.op := (hS.hlc_injOn hop' hG.mem heq).trans hr.symm
    have hr'' : r' = r := by
      have hfind := (mem_firsts_iff_find?.mp hr').2
      rw [hsame, hfirst] at hfind
      exact (Option.some_inj.mp hfind).symm
    rw [hr'', hwrite] at hw
    exact (Option.some_inj.mp hw).symm

/-- **The cover that a device ends with.** Operations and covers become visible in any order,
passes run, fail and resume in between. Once the newest operation `G` that names a cover is
visible and nothing is left to read, the mirror holds the value of `G` if its cover was there
when `G` was first read, and `null` if it was not; what becomes visible later does not matter. -/
theorem cover_eq_first_reading (hS : Batch .metadata uid S) (hup : ∀ op ∈ S, op.deleted = false)
    (hm : m.Fresh .metadata uid S) {G : Op} (hG : Newest S "cover_path" G)
    {events : List InboxEvent} (hevents : ∀ e ∈ events, e.Within S)
    (hshows : (run fromStr { inbox := { mirror := m } } events).Shows G)
    (hsettled : (run fromStr { inbox := { mirror := m } } events).Settled) :
    ∃ before io after, events = before ++ .next io :: after ∧
      (∀ r ∈ (run fromStr { inbox := { mirror := m } } before).inbox.readings, r.op ≠ G) ∧
      (∃ r ∈ (run fromStr { inbox := { mirror := m } }
        (before ++ [.next io])).inbox.readings, r.op = G) ∧
      ((run fromStr { inbox := { mirror := m } } events).inbox.mirror.row
        .metadata uid).fields.lookup "cover_path" =
          if (run fromStr { inbox := { mirror := m } } before).CoverReady io G then
            G.write "cover_path"
          else some ⟨.null, G.hlc⟩ := by
  obtain ⟨ht, hmerged⟩ := invariants_run fromStr hS.kind_eq (tracks_fresh S m)
    (Inbox.merged_of_fresh hm) hevents
  obtain ⟨before, io, after, rfl, hbefore, hfirst⟩ := exists_first_reading fromStr
    (s := { inbox := { mirror := m } }) (fun _ hr => nomatch hr)
    (exists_reading ht hsettled hshows)
  refine ⟨before, io, after, rfl, hbefore, ?_, ?_⟩
  · rw [hfirst]
    exact ⟨_, List.mem_append_right _ List.mem_cons_self, rfl⟩
  set s₁ := run fromStr { inbox := { mirror := m } } before
  set r : Reading := ⟨G, s₁.CoverReady io G⟩ with hr
  obtain ⟨later, hlater⟩ : s₁.inbox.readings ++ [r] <+:
      (run fromStr { inbox := { mirror := m } } (before ++ .next io :: after)).inbox.readings := by
    have hsplit : before ++ .next io :: after = (before ++ [.next io]) ++ after := by simp
    rw [← hfirst, hsplit, run_append fromStr _ (before ++ [InboxEvent.next io]) after]
    exact readings_run fromStr _ after
  have hfind : (run fromStr { inbox := { mirror := m } }
      (before ++ .next io :: after)).inbox.readings.find?
        (fun r' => r'.op.opId = r.op.opId) = some r := by
    have hold : s₁.inbox.readings.find? (fun r' => r'.op.opId = r.op.opId) = none := by
      rw [List.find?_eq_none]
      intro r' hr' hid
      have hr'S := hmerged.mem r' (hlater ▸ by simp [hr'])
      exact hbefore r' hr' (hS.opId_injOn hr'S hG.mem (by simpa using hid))
    rw [← hlater, List.append_assoc, List.find?_append, hold, Option.none_or,
      List.singleton_append, List.find?_cons_of_pos (by simp)]
  rw [hmerged.lookup_cover hS hup hG rfl hfind, Op.write, Reading.lookup_handed,
    Reading.handed_hlc, hr]
  split
  · rfl
  · rfl

/-- An edit that names a cover. -/
def sampleCover : Op :=
  sampleOp .metadata 2 "22222222222222222222222222222222" false false
    ((∅ : Fields).insert "cover_path" (.str "0123456789abcdef.png"))

/-- The file of the edit becomes visible. -/
def sampleCoverFile : InboxEvent :=
  .file ("ops/dddddddddddddddddddddddddddddddd/" ++
    "00000000000000000002-000000-22222222222222222222222222222222.json") ⟨512, 2, .ok sampleCover⟩

/-- The cover becomes visible. -/
def sampleCoverBlob : InboxEvent := .blob "0123456789abcdef.png" 1024

/-- A pass over one file. -/
def samplePass : List InboxEvent := [.start, .next none, .finish 1]

lemma batch_sampleCover : Batch .metadata "item:book" {op | op ∈ [sampleCover]} :=
  batch_of_list (by decide) (by decide) (by decide) (by decide) (by decide)

lemma newest_sampleCover : Newest {op | op ∈ [sampleCover]} "cover_path" sampleCover :=
  ⟨List.mem_cons_self, ⟨.str "0123456789abcdef.png", by decide⟩, fun op hop _ =>
    (List.mem_singleton.mp hop : op = sampleCover) ▸ le_rfl⟩

/-- The cover is visible before the edit is read, and the mirror names it. -/
theorem cover_eq_first_reading_sample :
    ((run (fun _ => none) {} (sampleCoverFile :: sampleCoverBlob :: samplePass)).inbox.mirror.row
      .metadata "item:book").fields.lookup "cover_path" =
        some ⟨.str "0123456789abcdef.png", sampleCover.hlc⟩ := by
  have hwithin : ∀ e ∈ sampleCoverFile :: sampleCoverBlob :: samplePass,
      e.Within {op | op ∈ [sampleCover]} := by
    simp only [samplePass, List.forall_mem_cons]
    refine ⟨fun op hop => ?_, trivial, trivial, trivial, trivial, fun _ h => nomatch h⟩
    cases hop
    exact List.mem_cons_self
  obtain ⟨before, io, after, hevents, -, -, hcover⟩ :=
    cover_eq_first_reading (fun _ => none) batch_sampleCover
      (show ∀ op ∈ [sampleCover], op.deleted = false by decide)
      (Mirror.fresh_empty batch_sampleCover) newest_sampleCover hwithin
      ⟨_, List.mem_cons_self, rfl⟩ (by decide)
  have hbefore : before = [sampleCoverFile, sampleCoverBlob, .start] ∧ io = none := by
    rcases before with _ | ⟨e₁, _ | ⟨e₂, _ | ⟨e₃, _ | ⟨e₄, before⟩⟩⟩⟩ <;>
      simp [samplePass, sampleCoverFile, sampleCoverBlob, List.cons_eq_append_iff] at hevents ⊢
    obtain ⟨rfl, rfl, rfl, rfl, -⟩ := hevents
    exact ⟨⟨rfl, rfl, rfl⟩, rfl⟩
  rw [hcover, hbefore.1, hbefore.2]
  decide

/-- What the device holds when the cover comes after the edit was read. -/
def lateCover : SyncState :=
  run (fun _ => none) {} (sampleCoverFile :: samplePass ++ sampleCoverBlob :: samplePass)

/-- **The edit is read before its cover is there.** The cover becomes visible, passes run, and
the mirror keeps the `null`. -/
theorem cover_stays_missing :
    Batch .metadata "item:book" {op | op ∈ [sampleCover]} ∧
    ({} : Mirror).Fresh .metadata "item:book" {op | op ∈ [sampleCover]} ∧
    Newest {op | op ∈ [sampleCover]} "cover_path" sampleCover ∧
    sampleCover.fields.lookup "cover_path" = some (.str "0123456789abcdef.png") ∧
    lateCover.Shows sampleCover ∧
    lateCover.root.covers.lookup "0123456789abcdef.png" = some 1024 ∧
    lateCover.Settled ∧
    (lateCover.inbox.mirror.row .metadata "item:book").fields.lookup "cover_path" =
      some ⟨.null, sampleCover.hlc⟩ :=
  ⟨batch_sampleCover, Mirror.fresh_empty batch_sampleCover, newest_sampleCover, by decide,
    ⟨_, List.mem_cons_self, rfl⟩, by decide, by decide, by decide⟩

end Cover

end TuxBooks
