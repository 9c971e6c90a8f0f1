import TuxBooks.Catalog.Project

set_option relaxedAutoImplicit false
set_option autoImplicit false

/-!
# Saves of the reading position

`upsert_progress` of `sidecar/src/repository/reading_progress.rs`, and the request loop of
`sidecar/src/rpc.rs` that calls it: every line of the input gets a task of its own, and the tasks
reach their statement in any order. What a handler does after the statement (the queued provider
update, the event) does not touch the saved positions.

## Main definitions

* `TuxBooks.ProgressUpdate`, `TuxBooks.Catalog.upsertProgress` — one save.
* `TuxBooks.Serving`, `TuxBooks.Serving.run` — the request loop and its handlers.
* `TuxBooks.ProgressUpdate.Carries` — a position has everything that a save says.

## Main results

* `TuxBooks.Serving.run_progress` — the saves take effect in the order of their statements.
* `TuxBooks.Serving.last_request_stored_iff` — when the last request is the one that is stored.
-/

namespace TuxBooks

/-! ## One save -/

/-- The columns that a save carries. -/
@[ext]
structure ProgressUpdate where
  chapterHref : Option String := none
  cfi : Option String := none
  characterOffset : Option ℤ := none
  pageNumber : Option ℤ := none
  scrollOffset : Option ℚ := none
  progressPercent : Option ℚ := none
  locator : Option String := none
  progression : Option ℚ := none
  locations : Option String := none
  engine : Option String := none
  schemaVersion : Option ℤ := none
  deriving DecidableEq

/-- The row that a save inserts. -/
def ProgressRow.ofUpdate (u : ProgressUpdate) (now : String) : ProgressRow where
  chapterHref := u.chapterHref
  cfi := u.cfi
  characterOffset := u.characterOffset
  pageNumber := u.pageNumber
  scrollOffset := u.scrollOffset
  progressPercent := u.progressPercent
  locator := u.locator
  progression := u.progression
  locations := u.locations
  engine := u.engine
  schemaVersion := u.schemaVersion
  updatedAt := now

/-- `ON CONFLICT(book_uid) DO UPDATE`: a column that the save does not carry keeps its value,
except for the percentage. -/
def ProgressRow.update (r : ProgressRow) (u : ProgressUpdate) (now : String) : ProgressRow where
  chapterHref := u.chapterHref.or r.chapterHref
  cfi := u.cfi.or r.cfi
  characterOffset := u.characterOffset.or r.characterOffset
  pageNumber := u.pageNumber.or r.pageNumber
  scrollOffset := u.scrollOffset.or r.scrollOffset
  progressPercent := u.progressPercent
  locator := u.locator.or r.locator
  progression := u.progression.or r.progression
  locations := u.locations.or r.locations
  engine := u.engine.or r.engine
  schemaVersion := u.schemaVersion.or r.schemaVersion
  updatedAt := now

section

variable (jsonReal : ℚ → Value) (showReal : ℚ → String)

/-- Save where the user stopped reading. -/
def Catalog.upsertProgress (c : Catalog) (uid : String) (update : ProgressUpdate) (now : String) :
    Catalog × Except AppError Unit :=
  match update.progressPercent.filter fun percent => ¬(0 ≤ percent ∧ percent ≤ 100) with
  | some percent =>
    (c, .error (.invalidInput ("progress_percent " ++ showReal percent ++ " outside 0..=100")))
  | none =>
    match update.progression.filter fun progression => ¬(0 ≤ progression ∧ progression ≤ 1) with
    | some progression =>
      (c, .error (.invalidInput ("progression " ++ showReal progression ++ " outside 0..=1")))
    | none =>
      let row := match c.progress.lookup uid with
        | none => ProgressRow.ofUpdate update now
        | some r => r.update update now
      if ¬row.Checked then
        (c, .error (.database "CHECK constraint failed: reading_progress"))
      else if c.hasRecord uid then (c.putProgress jsonReal uid row, .ok ())
      else (c, .error (.database "FOREIGN KEY constraint failed"))

end

/-! ## Putting saves together -/

/-- The columns of a row that a save can carry. -/
def ProgressRow.columns (r : ProgressRow) : ProgressUpdate where
  chapterHref := r.chapterHref
  cfi := r.cfi
  characterOffset := r.characterOffset
  pageNumber := r.pageNumber
  scrollOffset := r.scrollOffset
  progressPercent := r.progressPercent
  locator := r.locator
  progression := r.progression
  locations := r.locations
  engine := r.engine
  schemaVersion := r.schemaVersion

namespace ProgressUpdate

/-- A save on top of another one. -/
def andThen (u v : ProgressUpdate) : ProgressUpdate where
  chapterHref := v.chapterHref.or u.chapterHref
  cfi := v.cfi.or u.cfi
  characterOffset := v.characterOffset.or u.characterOffset
  pageNumber := v.pageNumber.or u.pageNumber
  scrollOffset := v.scrollOffset.or u.scrollOffset
  progressPercent := v.progressPercent
  locator := v.locator.or u.locator
  progression := v.progression.or u.progression
  locations := v.locations.or u.locations
  engine := v.engine.or u.engine
  schemaVersion := v.schemaVersion.or u.schemaVersion

/-- The percentage and the progression are in their ranges. -/
def InRange (u : ProgressUpdate) : Prop :=
  (∀ p ∈ u.progressPercent, 0 ≤ p ∧ p ≤ 100) ∧ ∀ p ∈ u.progression, 0 ≤ p ∧ p ≤ 1

instance (u : ProgressUpdate) : Decidable u.InRange := inferInstanceAs (Decidable (_ ∧ _))

/-- A stored column has what a save says of it. -/
def Has {α : Type} (stored asked : Option α) : Prop := ∀ x ∈ asked, stored = some x

instance {α : Type} [DecidableEq α] (stored asked : Option α) : Decidable (Has stored asked) :=
  inferInstanceAs (Decidable (∀ _ ∈ _, _))

/-- `v` has the percentage of `u` and every column that `u` carries. -/
structure Carries (v u : ProgressUpdate) : Prop where
  chapterHref : Has v.chapterHref u.chapterHref
  cfi : Has v.cfi u.cfi
  characterOffset : Has v.characterOffset u.characterOffset
  pageNumber : Has v.pageNumber u.pageNumber
  scrollOffset : Has v.scrollOffset u.scrollOffset
  progressPercent : v.progressPercent = u.progressPercent
  locator : Has v.locator u.locator
  progression : Has v.progression u.progression
  locations : Has v.locations u.locations
  engine : Has v.engine u.engine
  schemaVersion : Has v.schemaVersion u.schemaVersion

instance (v u : ProgressUpdate) : Decidable (v.Carries u) :=
  decidable_of_iff (Has v.chapterHref u.chapterHref ∧ Has v.cfi u.cfi ∧
      Has v.characterOffset u.characterOffset ∧ Has v.pageNumber u.pageNumber ∧
      Has v.scrollOffset u.scrollOffset ∧ v.progressPercent = u.progressPercent ∧
      Has v.locator u.locator ∧ Has v.progression u.progression ∧ Has v.locations u.locations ∧
      Has v.engine u.engine ∧ Has v.schemaVersion u.schemaVersion)
    ⟨fun ⟨h₁, h₂, h₃, h₄, h₅, h₆, h₇, h₈, h₉, h₁₀, h₁₁⟩ =>
        ⟨h₁, h₂, h₃, h₄, h₅, h₆, h₇, h₈, h₉, h₁₀, h₁₁⟩,
      fun h => ⟨h.1, h.2, h.3, h.4, h.5, h.6, h.7, h.8, h.9, h.10, h.11⟩⟩

lemma andThen_assoc (u v w : ProgressUpdate) :
    (u.andThen v).andThen w = u.andThen (v.andThen w) := by
  ext : 1 <;> simp [andThen, Option.or_assoc]

lemma foldl_andThen (u v : ProgressUpdate) (later : List ProgressUpdate) :
    later.foldl andThen (u.andThen v) = u.andThen (later.foldl andThen v) := by
  induction later generalizing v with
  | nil => rfl
  | cons w later ih => rw [List.foldl_cons, andThen_assoc, ih, List.foldl_cons]

/-- What lies under a save does not show through the columns that it carries. -/
lemma has_or_iff {α : Type} {stored under asked : Option α} (h : asked.isSome → stored.isSome) :
    Has (stored.or under) asked ↔ Has stored asked := by
  cases stored with
  | some x => rfl
  | none =>
    cases asked with
    | none => simp [Has]
    | some y => cases h rfl

/-- `v` says something of every column that `u` carries. -/
structure Covers (v u : ProgressUpdate) : Prop where
  chapterHref : u.chapterHref.isSome → v.chapterHref.isSome
  cfi : u.cfi.isSome → v.cfi.isSome
  characterOffset : u.characterOffset.isSome → v.characterOffset.isSome
  pageNumber : u.pageNumber.isSome → v.pageNumber.isSome
  scrollOffset : u.scrollOffset.isSome → v.scrollOffset.isSome
  locator : u.locator.isSome → v.locator.isSome
  progression : u.progression.isSome → v.progression.isSome
  locations : u.locations.isSome → v.locations.isSome
  engine : u.engine.isSome → v.engine.isSome
  schemaVersion : u.schemaVersion.isSome → v.schemaVersion.isSome

lemma Covers.refl (u : ProgressUpdate) : u.Covers u := by
  constructor <;> exact id

lemma Covers.andThen {v u : ProgressUpdate} (h : v.Covers u) (w : ProgressUpdate) :
    (v.andThen w).Covers u := by
  have hcolumn : ∀ {α : Type} {a b c : Option α}, (a.isSome → b.isSome) → a.isSome →
      (c.or b).isSome := by
    intro α a b c hab ha
    rw [Option.isSome_or, hab ha, Bool.or_true]
  constructor
  · exact hcolumn h.chapterHref
  · exact hcolumn h.cfi
  · exact hcolumn h.characterOffset
  · exact hcolumn h.pageNumber
  · exact hcolumn h.scrollOffset
  · exact hcolumn h.locator
  · exact hcolumn h.progression
  · exact hcolumn h.locations
  · exact hcolumn h.engine
  · exact hcolumn h.schemaVersion

lemma Covers.foldl {v u : ProgressUpdate} (h : v.Covers u) (later : List ProgressUpdate) :
    (later.foldl ProgressUpdate.andThen v).Covers u := by
  induction later generalizing v with
  | nil => exact h
  | cons w later ih => exact ih (h.andThen w)

lemma carries_andThen_iff {under v u : ProgressUpdate} (h : v.Covers u) :
    (under.andThen v).Carries u ↔ v.Carries u := by
  constructor <;> intro hc
  · exact ⟨(has_or_iff h.chapterHref).mp hc.chapterHref, (has_or_iff h.cfi).mp hc.cfi,
      (has_or_iff h.characterOffset).mp hc.characterOffset,
      (has_or_iff h.pageNumber).mp hc.pageNumber, (has_or_iff h.scrollOffset).mp hc.scrollOffset,
      hc.progressPercent, (has_or_iff h.locator).mp hc.locator,
      (has_or_iff h.progression).mp hc.progression, (has_or_iff h.locations).mp hc.locations,
      (has_or_iff h.engine).mp hc.engine, (has_or_iff h.schemaVersion).mp hc.schemaVersion⟩
  · exact ⟨(has_or_iff h.chapterHref).mpr hc.chapterHref, (has_or_iff h.cfi).mpr hc.cfi,
      (has_or_iff h.characterOffset).mpr hc.characterOffset,
      (has_or_iff h.pageNumber).mpr hc.pageNumber, (has_or_iff h.scrollOffset).mpr hc.scrollOffset,
      hc.progressPercent, (has_or_iff h.locator).mpr hc.locator,
      (has_or_iff h.progression).mpr hc.progression, (has_or_iff h.locations).mpr hc.locations,
      (has_or_iff h.engine).mpr hc.engine, (has_or_iff h.schemaVersion).mpr hc.schemaVersion⟩

/-- What a checked row carries is in range. -/
lemma Carries.inRange {r : ProgressRow} (hr : r.Checked) {u : ProgressUpdate}
    (h : r.columns.Carries u) : u.InRange := by
  refine ⟨fun p hp => hr.1 p ?_, fun p hp => hr.2 p (h.progression p hp)⟩
  exact h.progressPercent.trans hp

end ProgressUpdate

/-! ## What a save does -/

namespace Catalog

/-- The saved columns of a book; a book that has never been read has none. -/
def savedColumns (c : Catalog) (uid : String) : ProgressUpdate :=
  ((c.progress.lookup uid).map (·.columns)).getD {}

variable {jsonReal : ℚ → Value} {showReal : ℚ → String} {c : Catalog} {uid : String}
  {u : ProgressUpdate}

/-- A save out of its range is refused. -/
lemma upsertProgress_of_not_inRange (now : String) (h : ¬u.InRange) :
    (c.upsertProgress jsonReal showReal uid u now).1 = c := by
  unfold upsertProgress
  cases hpercent : u.progressPercent.filter fun percent => ¬(0 ≤ percent ∧ percent ≤ 100) with
  | some percent => rfl
  | none =>
    cases hprogression : u.progression.filter fun p => ¬(0 ≤ p ∧ p ≤ 1) with
    | some progression => rfl
    | none =>
      refine absurd ⟨fun p hp => ?_, fun p hp => ?_⟩ h
      · by_contra hout
        exact Option.filter_eq_none_iff.mp hpercent p hp (decide_eq_true hout)
      · by_contra hout
        exact Option.filter_eq_none_iff.mp hprogression p hp (decide_eq_true hout)

variable (jsonReal showReal) in
/-- A save in its range goes on top of what is saved. -/
lemma upsertProgress_of_inRange (now : String) (h : u.InRange) (hbook : c.hasRecord uid = true)
    (hchecked : ∀ r ∈ c.progress.lookup uid, r.Checked) :
    ∃ row : ProgressRow, row.Checked ∧ row.columns = (c.savedColumns uid).andThen u ∧
      c.upsertProgress jsonReal showReal uid u now = (c.putProgress jsonReal uid row, .ok ()) := by
  have hpercent : (u.progressPercent.filter fun p => ¬(0 ≤ p ∧ p ≤ 100)) = none :=
    Option.filter_eq_none_iff.mpr fun p hp => by simpa using h.1 p hp
  have hprogression : (u.progression.filter fun p => ¬(0 ≤ p ∧ p ≤ 1)) = none :=
    Option.filter_eq_none_iff.mpr fun p hp => by simpa using h.2 p hp
  unfold upsertProgress savedColumns
  simp only [hpercent, hprogression, hbook, if_true]
  cases hrow : c.progress.lookup uid with
  | none =>
    have hnew : (ProgressRow.ofUpdate u now).Checked := h
    refine ⟨ProgressRow.ofUpdate u now, hnew, ?_, if_neg (not_not_intro hnew)⟩
    ext : 1 <;> simp [ProgressRow.columns, ProgressRow.ofUpdate, ProgressUpdate.andThen]
  | some r =>
    have hold : (r.update u now).Checked := by
      refine ⟨h.1, fun p hp => ?_⟩
      obtain hp | ⟨-, hp⟩ := Option.or_eq_some_iff.mp hp
      · exact h.2 p hp
      · exact (hchecked r hrow).2 p hp
    exact ⟨r.update u now, hold, rfl, if_neg (not_not_intro hold)⟩

lemma progress_putProgress (row : ProgressRow) :
    (c.putProgress jsonReal uid row).progress = c.progress.insert uid row := by
  unfold putProgress markWhen
  split_ifs <;> rfl

lemma hasRecord_putProgress (row : ProgressRow) (other : String) :
    (c.putProgress jsonReal uid row).hasRecord other = c.hasRecord other := by
  unfold putProgress markWhen
  split_ifs <;> rfl

/-- The saved position of a book, in a catalog that meets its constraints. -/
structure Readable (c : Catalog) (uid : String) : Prop where
  book : c.hasRecord uid = true
  checked : ∀ r ∈ c.progress.lookup uid, r.Checked

variable (jsonReal showReal) in
/-- One save, accepted or refused. -/
lemma Readable.upsertProgress (h : c.Readable uid) (u : ProgressUpdate) (now : String) :
    (c.upsertProgress jsonReal showReal uid u now).1.Readable uid ∧
      (c.upsertProgress jsonReal showReal uid u now).1.savedColumns uid =
        (if u.InRange then (c.savedColumns uid).andThen u else c.savedColumns uid) ∧
      ((c.upsertProgress jsonReal showReal uid u now).1.progress.lookup uid).isSome =
        (decide u.InRange || (c.progress.lookup uid).isSome) := by
  by_cases hrange : u.InRange
  · obtain ⟨row, hrow, hcolumns, heq⟩ :=
      upsertProgress_of_inRange jsonReal showReal now hrange h.book
        h.checked
    have hlookup : (c.putProgress jsonReal uid row).progress.lookup uid = some row := by
      rw [progress_putProgress, AList.lookup_insert]
    rw [heq]
    refine ⟨⟨(hasRecord_putProgress row uid).trans h.book, fun r hr => ?_⟩, ?_, ?_⟩
    · rw [hlookup] at hr
      obtain rfl := Option.some.inj hr
      exact hrow
    · rw [if_pos hrange, ← hcolumns, savedColumns, hlookup]
      rfl
    · rw [hlookup, decide_eq_true hrange]
      rfl
  · rw [upsertProgress_of_not_inRange now hrange, if_neg hrange, decide_eq_false hrange]
    exact ⟨h, rfl, rfl⟩

end Catalog

/-! ## The request loop -/

/-- The lines of the input that are not read yet, and the handlers that have not reached their
statement, numbered in the order of the lines. -/
structure Serving where
  catalog : Catalog
  input : List ProgressUpdate
  handlers : Table ℕ ProgressUpdate := ∅
  spawned : ℕ := 0

inductive ServeEvent where
  /-- The next line is read and its handler spawned. -/
  | read
  /-- A handler executes its statement. -/
  | save (handler : ℕ) (now : String)
  deriving DecidableEq

namespace Serving

section

variable (jsonReal : ℚ → Value) (showReal : ℚ → String) (uid : String)

/-- One step, if it is possible. -/
def step (s : Serving) : ServeEvent → Option Serving
  | .read =>
    match s.input with
    | [] => none
    | update :: input =>
      some { s with
        input := input
        handlers := s.handlers.insert s.spawned update
        spawned := s.spawned + 1 }
  | .save handler now =>
    match s.handlers.lookup handler with
    | none => none
    | some update =>
      some { s with
        catalog := (s.catalog.upsertProgress jsonReal showReal uid update now).1
        handlers := s.handlers.erase handler }

def run (s : Serving) : List ServeEvent → Option Serving
  | [] => some s
  | event :: events => (step jsonReal showReal uid s event).bind fun s => run s events

end

/-- Every line is read and every handler is done. -/
def Completed (s : Serving) : Prop := s.input = [] ∧ s.handlers = ∅

instance (s : Serving) : Decidable s.Completed := inferInstanceAs (Decidable (_ ∧ _))

end Serving

/-- The handlers in the order of their statements. -/
def ServeEvent.order : List ServeEvent → List ℕ
  | [] => []
  | .read :: events => order events
  | .save handler _ :: events => handler :: order events

/-- The accepted saves of some handlers. -/
def acceptedSaves (requests : List ProgressUpdate) (handlers : List ℕ) : List ProgressUpdate :=
  (handlers.filterMap (requests[·]?)).filter fun u => decide u.InRange

/-- The accepted saves whose statement comes after that of the last request. -/
def savedAfterLast (requests : List ProgressUpdate) (events : List ServeEvent) :
    List ProgressUpdate :=
  acceptedSaves requests
    ((ServeEvent.order events).dropWhile (· ≠ requests.length - 1)).tail

/-! ## Runs -/

section

variable {jsonReal : ℚ → Value} {showReal : ℚ → String} {uid : String} {c : Catalog}
  {requests : List ProgressUpdate} {ran : List ℕ}

lemma acceptedSaves_append (done done' : List ℕ) :
    acceptedSaves requests (done ++ done') =
      acceptedSaves requests done ++ acceptedSaves requests done' := by
  unfold acceptedSaves
  rw [List.filterMap_append, List.filter_append]

lemma acceptedSaves_singleton {i : ℕ} {u : ProgressUpdate} (h : requests[i]? = some u) :
    acceptedSaves requests [i] = if u.InRange then [u] else [] := by
  unfold acceptedSaves
  rw [List.filterMap_cons_some h, List.filterMap_nil]
  by_cases hu : u.InRange
  · rw [if_pos hu, List.filter_singleton, decide_eq_true hu, cond_true]
  · rw [if_neg hu, List.filter_singleton, decide_eq_false hu, cond_false]

/-- The handlers `ran` have executed their statements, in this order, on the catalog `c`. -/
structure Serving.Follows (uid : String) (c : Catalog) (requests : List ProgressUpdate)
    (ran : List ℕ) (s : Serving) : Prop where
  input : s.input = requests.drop s.spawned
  spawned : s.spawned ≤ requests.length
  handler : ∀ i u, s.handlers.lookup i = some u → i < s.spawned ∧ requests[i]? = some u
  live : ∀ i < s.spawned, (s.handlers.lookup i).isSome ∨ i ∈ ran
  executed : ∀ i ∈ ran, i < s.spawned ∧ s.handlers.lookup i = none
  nodup : ran.Nodup
  readable : s.catalog.Readable uid
  columns : s.catalog.savedColumns uid =
    (acceptedSaves requests ran).foldl ProgressUpdate.andThen (c.savedColumns uid)
  row : acceptedSaves requests ran ≠ [] → (s.catalog.progress.lookup uid).isSome

namespace Serving

/-- The handler of the next line. -/
lemma Follows.read {s s' : Serving} (h : s.Follows uid c requests ran)
    (hstep : s.step jsonReal showReal uid .read = some s') : s'.Follows uid c requests ran := by
  unfold step at hstep
  dsimp only at hstep
  cases hinput : s.input with
  | nil => simp [hinput] at hstep
  | cons update input =>
    simp only [hinput, Option.some.injEq] at hstep
    subst hstep
    have hdrop : requests.drop s.spawned = update :: input := h.input.symm.trans hinput
    have hlt : s.spawned < requests.length := by
      by_contra hle
      rw [List.drop_eq_nil_of_le (Nat.le_of_not_lt hle)] at hdrop
      cases hdrop
    have hget : requests[s.spawned]? = some update := by
      rw [← List.head?_drop, hdrop, List.head?_cons]
    exact {
      h with
      input := by
        change input = requests.drop (s.spawned + 1)
        rw [← List.tail_drop, hdrop, List.tail_cons]
      spawned := hlt
      handler := fun i u hlookup => by
        rw [Table.lookup_insert'] at hlookup
        split_ifs at hlookup with hi
        · obtain rfl := Option.some.inj hlookup
          subst hi
          exact ⟨Nat.lt_succ_self _, hget⟩
        · obtain ⟨hspawned, hrequest⟩ := h.handler i u hlookup
          exact ⟨Nat.lt_succ_of_lt hspawned, hrequest⟩
      live := fun i hi => by
        rw [Table.lookup_insert']
        split_ifs with hne
        · exact Or.inl rfl
        · exact h.live i (lt_of_le_of_ne (Nat.le_of_lt_succ hi) hne)
      executed := fun i hi => by
        obtain ⟨hspawned, hlookup⟩ := h.executed i hi
        refine ⟨Nat.lt_succ_of_lt hspawned, ?_⟩
        rw [AList.lookup_insert_ne (Nat.ne_of_lt hspawned)]
        exact hlookup }

/-- A handler at its statement: an accepted save goes on top of the others. -/
lemma Follows.save {s s' : Serving} (h : s.Follows uid c requests ran) {i : ℕ} {now : String}
    (hstep : s.step jsonReal showReal uid (.save i now) = some s') :
    s'.Follows uid c requests (ran ++ [i]) := by
  unfold step at hstep
  dsimp only at hstep
  cases hlookup : s.handlers.lookup i with
  | none => simp [hlookup] at hstep
  | some update =>
    simp only [hlookup, Option.some.injEq] at hstep
    subst hstep
    obtain ⟨hspawned, hrequest⟩ := h.handler i update hlookup
    have hfresh : i ∉ ran := fun hi => by
      rw [(h.executed i hi).2] at hlookup
      cases hlookup
    obtain ⟨hreadable, hcolumns, hrow⟩ := h.readable.upsertProgress jsonReal showReal update now
    have haccepted : acceptedSaves requests (ran ++ [i]) =
        acceptedSaves requests ran ++ if update.InRange then [update] else [] := by
      rw [acceptedSaves_append, acceptedSaves_singleton hrequest]
    refine ⟨h.input, h.spawned, fun j u hj => ?_, fun j hj => ?_, fun j hj => ?_,
      ?_, hreadable, ?_, ?_⟩
    · rw [Table.lookup_erase'] at hj
      split_ifs at hj
      exact h.handler j u hj
    · rw [Table.lookup_erase', List.mem_append, List.mem_singleton]
      split_ifs with hne
      · exact Or.inr (Or.inr hne)
      · exact (h.live j hj).imp_right Or.inl
    · rw [Table.lookup_erase']
      rw [List.mem_append, List.mem_singleton] at hj
      obtain hj | rfl := hj
      · split_ifs
        · exact ⟨(h.executed j hj).1, rfl⟩
        · exact h.executed j hj
      · exact ⟨hspawned, if_pos rfl⟩
    · exact List.nodup_append'.mpr ⟨h.nodup, List.nodup_singleton i,
        List.disjoint_singleton.mpr hfresh⟩
    · rw [hcolumns, haccepted, List.foldl_append, ← h.columns]
      split_ifs <;> rfl
    · intro hne
      rw [hrow]
      by_cases hrange : update.InRange
      · rw [decide_eq_true hrange, Bool.true_or]
      · rw [haccepted, if_neg hrange, List.append_nil] at hne
        rw [h.row hne, Bool.or_true]

/-- The events of a run, in their order. -/
lemma Follows.run {s s' : Serving} (h : s.Follows uid c requests ran) {events : List ServeEvent}
    (hrun : s.run jsonReal showReal uid events = some s') :
    s'.Follows uid c requests (ran ++ ServeEvent.order events) := by
  induction events generalizing s ran with
  | nil =>
    obtain rfl := Option.some.inj hrun
    simpa only [ServeEvent.order, List.append_nil] using h
  | cons event events ih =>
    obtain ⟨next, hstep, hrest⟩ := Option.bind_eq_some_iff.mp hrun
    cases event with
    | read => exact ih (h.read hstep) hrest
    | save i now =>
      rw [ServeEvent.order, List.append_cons]
      exact ih (h.save hstep) hrest

/-- When all is done, every line had its handler and every handler its turn. -/
lemma Follows.mem_ran {s : Serving} (h : s.Follows uid c requests ran) (hdone : s.Completed)
    {i : ℕ} (hi : i < requests.length) : i ∈ ran := by
  have hspawned : s.spawned = requests.length := by
    have hinput := h.input.symm.trans hdone.1
    exact Nat.le_antisymm h.spawned (List.drop_eq_nil_iff.mp hinput)
  obtain hlive | hran := h.live i (hspawned ▸ hi)
  · rw [hdone.2, AList.lookup_empty] at hlive
    cases hlive
  · exact hran

/-- **The saves take effect in the order of their statements**, each of them once. -/
theorem run_progress {s : Serving} {events : List ServeEvent} (hc : c.Readable uid)
    (hrun : run jsonReal showReal uid { catalog := c, input := requests } events = some s)
    (hdone : s.Completed) :
    s.Follows uid c requests (ServeEvent.order events) ∧
      (ServeEvent.order events).Perm (List.range requests.length) := by
  have hstart : Follows uid c requests [] { catalog := c, input := requests } :=
    ⟨rfl, Nat.zero_le _, fun i u h => by simp at h, fun i h => absurd h (Nat.not_lt_zero i),
      fun i h => by simp at h, List.nodup_nil, hc, rfl, fun h => absurd rfl h⟩
  have h : s.Follows uid c requests (ServeEvent.order events) := hstart.run hrun
  refine ⟨h, (List.perm_ext_iff_of_nodup h.nodup List.nodup_range).mpr fun i => ?_⟩
  rw [List.mem_range]
  exact ⟨fun hi => (h.executed i hi).1.trans_le h.spawned, h.mem_ran hdone⟩

/-- **When the last request is the one that is stored**: it is accepted, and the accepted saves
whose statements come later say the same when they are put on top of it. -/
theorem last_request_stored_iff {s : Serving} {events : List ServeEvent} {last : ProgressUpdate}
    (hlast : requests.getLast? = some last) (hc : c.Readable uid)
    (hrun : run jsonReal showReal uid { catalog := c, input := requests } events = some s)
    (hdone : s.Completed) :
    (∃ r ∈ s.catalog.progress.lookup uid, r.columns.Carries last) ↔
      last.InRange ∧
        ((savedAfterLast requests events).foldl ProgressUpdate.andThen last).Carries last := by
  obtain ⟨h, hperm⟩ := run_progress hc hrun hdone
  rw [List.getLast?_eq_getElem?] at hlast
  have hlength : requests.length - 1 < requests.length :=
    (List.getElem?_eq_some_iff.mp hlast).1
  have hmem : requests.length - 1 ∈ ServeEvent.order events :=
    hperm.mem_iff.mpr (List.mem_range.mpr hlength)
  -- the statements before that of the last request, and the ones after it
  obtain ⟨before, after, horder, hbefore⟩ := List.eq_append_cons_of_mem hmem
  have hafter : savedAfterLast requests events = acceptedSaves requests after := by
    unfold savedAfterLast
    rw [horder, List.dropWhile_append_of_pos, List.dropWhile_cons_of_neg (by simp), List.tail_cons]
    intro i hi
    exact decide_eq_true (ne_of_mem_of_not_mem hi hbefore)
  rw [hafter]
  -- what is stored when the last request is accepted
  have hcolumns (hrange : last.InRange) : ∃ under : ProgressUpdate,
      s.catalog.savedColumns uid =
        under.andThen ((acceptedSaves requests after).foldl ProgressUpdate.andThen last) := by
    refine ⟨(acceptedSaves requests before).foldl ProgressUpdate.andThen (c.savedColumns uid), ?_⟩
    rw [h.columns, horder, List.append_cons, acceptedSaves_append, acceptedSaves_append,
      acceptedSaves_singleton hlast, if_pos hrange, List.foldl_append, List.foldl_append,
      List.foldl_cons, List.foldl_nil, ProgressUpdate.foldl_andThen]
  have hcarries_iff (hrange : last.InRange) : (s.catalog.savedColumns uid).Carries last ↔
      ((acceptedSaves requests after).foldl ProgressUpdate.andThen last).Carries last := by
    obtain ⟨under, heq⟩ := hcolumns hrange
    rw [heq]
    exact ProgressUpdate.carries_andThen_iff ((ProgressUpdate.Covers.refl last).foldl _)
  constructor
  · rintro ⟨r, hr, hcarries⟩
    have hrange := hcarries.inRange (h.readable.checked r hr)
    refine ⟨hrange, (hcarries_iff hrange).mp ?_⟩
    rw [Catalog.savedColumns, Option.mem_def.mp hr]
    exact hcarries
  · rintro ⟨hrange, hcarries⟩
    have hrow : (s.catalog.progress.lookup uid).isSome := by
      refine h.row ?_
      rw [horder, List.append_cons, acceptedSaves_append, acceptedSaves_append,
        acceptedSaves_singleton hlast, if_pos hrange]
      simp
    obtain ⟨r, hr⟩ := Option.isSome_iff_exists.mp hrow
    refine ⟨r, hr, ?_⟩
    have hstored := (hcarries_iff hrange).mpr hcarries
    rwa [Catalog.savedColumns, hr] at hstored

end Serving

end

/-! ## Two saves of one session -/

namespace Serving

/-- The debounced save at 10 %, then the closing save at 20 %. -/
def twoSaves : Serving where
  catalog := { records := Table.ofKeys ["book"] fun _ => { createdAt := "" } }
  input := [{ pageNumber := some 4, progressPercent := some 10 },
    { pageNumber := some 7, progressPercent := some 20 }]

lemma twoSaves_readable : twoSaves.catalog.Readable "book" := by
  refine ⟨by decide, fun r hr => ?_⟩
  cases hr

/-- The handlers in the order of their lines. -/
theorem last_request_stored_sample :
    ∃ s, run (fun _ => .null) (fun _ => "") "book" twoSaves
        [.read, .save 0 "t1", .read, .save 1 "t2"] = some s ∧
      ∃ r ∈ s.catalog.progress.lookup "book",
        r.columns.Carries { pageNumber := some 7, progressPercent := some 20 } := by
  have hiff := @last_request_stored_iff (fun _ => .null) (fun _ => "") "book" twoSaves.catalog
    twoSaves.input _ [.read, .save 0 "t1", .read, .save 1 "t2"]
    { pageNumber := some 7, progressPercent := some 20 } rfl twoSaves_readable rfl (by decide)
  exact ⟨_, rfl, hiff.mpr (by decide)⟩

/-- The handler of the first save comes late, and its position is what stays. -/
theorem last_request_overwritten :
    ¬∀ events s, run (fun _ => .null) (fun _ => "") "book" twoSaves events = some s →
      s.Completed →
      ∃ r ∈ s.catalog.progress.lookup "book",
        r.columns.Carries { pageNumber := some 7, progressPercent := some 20 } := by
  intro h
  have hlate := h [.read, .read, .save 1 "t1", .save 0 "t2"] _ rfl (by decide)
  revert hlate
  decide

end Serving

end TuxBooks
