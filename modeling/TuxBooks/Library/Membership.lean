import Mathlib.Data.Finset.Basic
import Mathlib.Data.List.DropRight
import Mathlib.Data.List.MinMax
import TuxBooks.Catalog.Metadata
import TuxBooks.Lib.Guarded
import TuxBooks.Lib.Segments
import TuxBooks.Library.Paths

set_option relaxedAutoImplicit false
set_option autoImplicit false

/-!
# Which folder a book file belongs to

The watch list with the four tests of membership: the walk of `owning_location`, `is_under`, the
prefix filter of `list_books_in_prefix`, and `Path::starts_with` in the watcher. Folders come in
through `scan_library` and `import_paths` and leave through `unwatch_locations`, each as a string
that `isValidLibraryPath` accepts.

## Main definitions

* `TuxBooks.isValidLibraryPath` — the spellings of a folder that the commands are handed.
* `TuxBooks.owningLocation`, `TuxBooks.inPrefix`, `TuxBooks.startsWith` — the other three tests.
* `TuxBooks.WatchList`, `TuxBooks.WatchList.step` — folder imports and unwatches.
* `TuxBooks.WatchList.Member` — one folder owns a file, on all four tests.

## Main results

* `TuxBooks.WatchList.membership_agrees` — the tests agree as long as no folder is written with a
  separator or white space at its end.
-/

namespace TuxBooks

/-! ## Accepted folders -/

/-- One segment of a path that is being normalized. -/
def normalizeSegment (segs : List (List Char)) (seg : List Char) : List (List Char) :=
  if seg = [] ∨ seg = ['.'] then segs
  else if seg = ['.', '.'] then segs.dropLast
  else segs ++ [seg]

/-- `path.normalize` of an absolute path. -/
def normalizePath (path : String) : String :=
  let segs := (path.toList.splitOn '/').foldl normalizeSegment []
  if segs = [] then "/"
  else
    String.ofList (Segments.render '/' segs ++
      if path.toList.getLast? = some '/' then ['/'] else [])

/-- The length of a text in UTF-16 units. -/
def utf16Length (text : String) : ℕ :=
  (text.toList.map fun c => if c.toNat < 0x10000 then 1 else 2).sum

def maxLibraryPathLength : ℕ := 4096

/-- The shape of a path that a user-driven call may name. -/
def isValidLibraryPath (candidate : String) : Bool :=
  !(utf16Length candidate == 0 || decide (utf16Length candidate > maxLibraryPathLength)) &&
    candidate.toList.head? == some '/' &&
    candidate.toList.all (fun c => decide (0x20 ≤ c.toNat) && c.toNat != 0x7f) &&
    normalizePath candidate == candidate

/-! ## The tests -/

/-- The row index of each watched path. -/
def locationIndex (paths : List String) (path : String) : Option ℕ := paths.idxOf? path

/-- The walk over the ancestors, from the end of the path. What comes before a separator is looked
up, and an empty parent ends the walk. -/
def owningWalk (locations : String → Option ℕ) : List Char → Option ℕ
  | [] => none
  | c :: rest =>
    if c = '/' ∧ rest ≠ [] then
      match locations (String.ofList rest.reverse) with
      | some index => some index
      | none => owningWalk locations rest
    else owningWalk locations rest

/-- The deepest watched directory that is the path itself or one of its ancestors. -/
def owningLocation (path : String) (locations : String → Option ℕ) : Option ℕ :=
  match locations path with
  | some index => some index
  | none => owningWalk locations path.toList.reverse

/-- `path = ?1 OR substr(path, 1, length(?1) + 1) = ?1 || '/'`. -/
def inPrefix (path root : String) : Bool :=
  path == root || path.toList.take (root.length + 1) == root.toList ++ ['/']

/-- The components of an absolute path. -/
def components (path : String) : List (List Char) :=
  (path.toList.splitOn '/').filter fun seg => seg ≠ [] ∧ seg ≠ ['.']

/-- `Path::starts_with` of absolute paths. -/
def startsWith (path root : String) : Bool := (components root).isPrefixOf (components path)

/-! ## The watch list -/

/-- The watched folders in the order of registration, and the paths of the file rows. -/
structure WatchList where
  locations : List String := []
  books : Finset String := ∅
  deriving DecidableEq

/-- `Path::join` with one name. -/
def pathJoin (path name : List Char) : List Char :=
  if path = [] ∨ path.getLast? = some '/' then path ++ name else path ++ '/' :: name

/-- The path of a file found by a scan of `root`. -/
def scannedPath (root : String) (names : List (List Char)) : String :=
  String.ofList (names.foldl pathJoin root.toList)

namespace WatchList

/-- `INSERT OR IGNORE`. -/
def addLocation (s : WatchList) (path : String) : WatchList :=
  if path ∈ s.locations then s else { s with locations := s.locations ++ [path] }

/-- Drop the registered folders that `root` now covers. -/
def collapseDescendants (s : WatchList) (root : String) : WatchList :=
  { s with locations := s.locations.filter fun path => !(isUnder path root && path != root) }

def coveredByWatchedAncestor (s : WatchList) (path : String) : Bool :=
  s.locations.any fun candidate => candidate != path && isUnder path candidate

def registerLocation (s : WatchList) (root : String) : WatchList :=
  if s.coveredByWatchedAncestor root then s
  else (s.addLocation root).collapseDescendants root

/-- Register the folder, then import the files that its scan finds. -/
def registerAndImportFolder (s : WatchList) (root : String) (files : List (List (List Char))) :
    WatchList :=
  let s := s.registerLocation root
  { s with books := s.books ∪ (files.map (scannedPath root)).toFinset }

/-- The file rows that a location owns. -/
def booksOwnedBy (s : WatchList) (location : String) : Finset String :=
  (s.books.filter fun path => inPrefix path location = true).filter fun path =>
    (owningLocation path (locationIndex s.locations)).any fun owner =>
      s.locations[owner]? == some location

def removeLocation (s : WatchList) (path : String) : WatchList :=
  { s with locations := s.locations.filter (· ≠ path) }

/-- The shallowest watched folder above `root`. -/
def watchedAncestor (s : WatchList) (root : String) : Option String :=
  (s.locations.filter fun candidate => candidate != root && isUnder root candidate).argmin
    String.utf8ByteSize

/-- The first root whose watched ancestor is not named too. -/
def refused (s : WatchList) (roots : List String) : Option (String × String) :=
  roots.findSome? fun root =>
    ((s.watchedAncestor root).filter fun ancestor => ancestor ∉ roots).map fun ancestor =>
      (root, ancestor)

/-- The file rows that some folders own. -/
def doomed (s : WatchList) (roots : List String) : Finset String :=
  roots.foldr (fun root doomed => s.booksOwnedBy root ∪ doomed) ∅

/-- Drop folders from the watch list with every file row that they own. -/
def unwatchLocations (s : WatchList) (paths : List String) :
    WatchList × Except AppError ℕ :=
  let roots := paths.map trim
  if "" ∈ roots then (s, .error (.invalidInput "folder path is empty"))
  else match s.refused roots with
    | some (root, ancestor) =>
      (s, .error (.invalidInput (root ++ " is inside the watched folder " ++ ancestor ++
        ", which still watches everything under it; unwatch " ++ ancestor ++ " instead")))
    | none =>
      let doomed := s.doomed roots
      let left := roots.foldl removeLocation s
      ({ left with books := s.books \ doomed },
        .ok (s.locations.length - left.locations.length))

end WatchList

inductive LibraryEvent where
  /-- `scan_library` of an existing folder, with the files that are imported. -/
  | scanLibrary (path : String) (files : List (List (List Char)))
  /-- `import_paths` of one existing folder. -/
  | importPath (path : String) (files : List (List (List Char)))
  | unwatch (paths : List String)

namespace WatchList

def step (s : WatchList) : LibraryEvent → WatchList
  | .scanLibrary path files => if trim path = "" then s else s.registerAndImportFolder path files
  | .importPath path files =>
    if trim path = "" then s else s.registerAndImportFolder (trim path) files
  | .unwatch paths => (s.unwatchLocations paths).1

end WatchList

/-! ## Plain spellings -/

/-- A name of a directory entry, as a segment of a path. -/
def FileName (name : List Char) : Prop :=
  name ≠ [] ∧ '/' ∉ name ∧ name ≠ ['.'] ∧ name ≠ ['.', '.']

instance (name : List Char) : Decidable (FileName name) :=
  inferInstanceAs (Decidable (_ ∧ _ ∧ _ ∧ _))

/-- An absolute path written as one separator and one name after the other. -/
def Spelled (path : String) (segs : List (List Char)) : Prop :=
  path.toList = Segments.render '/' segs ∧ ∀ seg ∈ segs, FileName seg

lemma Spelled.free {path : String} {segs : List (List Char)} (h : Spelled path segs) :
    Segments.Free '/' segs :=
  fun seg hseg => (h.2 seg hseg).2.1

/-- The names that a normalized path keeps. -/
lemma fileName_normalize (pieces segs : List (List Char)) (hpieces : Segments.Free '/' pieces)
    (hsegs : ∀ seg ∈ segs, FileName seg) :
    ∀ seg ∈ pieces.foldl normalizeSegment segs, FileName seg := by
  induction pieces generalizing segs with
  | nil => exact hsegs
  | cons piece pieces ih =>
    refine ih _ hpieces.tail ?_
    unfold normalizeSegment
    split_ifs with hskip hup
    · exact hsegs
    · exact fun seg hseg => hsegs seg (List.mem_of_mem_dropLast hseg)
    · rw [not_or] at hskip
      intro seg hseg
      obtain hseg | hseg := List.mem_append.mp hseg
      · exact hsegs seg hseg
      · obtain rfl := List.mem_singleton.mp hseg
        exact ⟨hskip.1, hpieces.head, hskip.2, hup⟩

/-- An accepted folder without a separator at its end. -/
lemma spelled_of_valid {path : String} (hvalid : isValidLibraryPath path = true)
    (hend : path.toList.getLast? ≠ some '/') : ∃ segs, segs ≠ [] ∧ Spelled path segs := by
  have hnormal : normalizePath path = path := by
    unfold isValidLibraryPath at hvalid
    simp only [Bool.and_eq_true, beq_iff_eq] at hvalid
    exact hvalid.2
  unfold normalizePath at hnormal
  have hnames := fileName_normalize (path.toList.splitOn '/') [] (Segments.free_splitOn _)
    (fun seg hseg => by cases hseg)
  revert hnormal hnames
  generalize (path.toList.splitOn '/').foldl normalizeSegment [] = segs
  intro hnormal hnames
  dsimp only at hnormal
  split_ifs at hnormal with hempty
  · rw [← hnormal] at hend
    exact absurd rfl hend
  · refine ⟨segs, hempty, ?_, hnames⟩
    rw [List.append_nil] at hnormal
    rw [← hnormal, String.toList_ofList]

/-! ## The tests on plain spellings -/

lemma isUnder_spelled {path root : String} {segs rootSegs : List (List Char)}
    (hpath : Spelled path segs) (hroot : Spelled root rootSegs) :
    isUnder path root = true ↔ rootSegs <+: segs := by
  rw [isUnder_iff, hpath.1, hroot.1, Segments.render_prefix_iff hroot.free hpath.free]
  constructor
  · rintro (rfl | ⟨hbegins, -⟩)
    · rw [Segments.render_injective hpath.free hroot.free (hpath.1.symm.trans hroot.1)]
    · exact hbegins
  · intro hbegins
    by_cases heq : rootSegs = segs
    · refine Or.inl (String.toList_injective ?_)
      rw [hpath.1, hroot.1, heq]
    · exact Or.inr ⟨hbegins, heq⟩

/-- The filter of the query is the separator rule, on every spelling. -/
lemma inPrefix_eq_isUnder (path root : String) : inPrefix path root = isUnder path root := by
  rw [Bool.eq_iff_iff, isUnder_iff]
  unfold inPrefix
  rw [Bool.or_eq_true, beq_iff_eq, beq_iff_eq]
  refine or_congr_right ⟨fun h => ?_, fun h => ?_⟩
  · rw [← h]
    exact List.take_prefix _ _
  · rw [List.prefix_iff_eq_take] at h
    rw [h]
    congr 1
    rw [List.length_append, List.length_singleton, String.length_toList]

lemma components_spelled {path : String} {segs : List (List Char)} (h : Spelled path segs) :
    components path = segs := by
  unfold components
  rw [h.1, Segments.splitOn_render h.free, List.filter_cons_of_neg (by simp)]
  refine List.filter_eq_self.mpr fun seg hseg => ?_
  exact decide_eq_true ⟨(h.2 seg hseg).1, (h.2 seg hseg).2.2.1⟩

lemma startsWith_spelled {path root : String} {segs rootSegs : List (List Char)}
    (hpath : Spelled path segs) (hroot : Spelled root rootSegs) :
    startsWith path root = true ↔ rootSegs <+: segs := by
  unfold startsWith
  rw [components_spelled hpath, components_spelled hroot, List.isPrefixOf_iff_prefix]

/-- The walk finds the deepest watched folder above a path. -/
lemma owningWalk_eq {path folder : String} {locations : List String} {index : ℕ}
    (hindex : locationIndex locations folder = some index) (hfolder : folder ≠ "")
    (hdeepest : ∀ g ∈ locations, isUnder path g = true → isUnder folder g = true)
    (text : List Char)
    (htext : text.reverse <+: path.toList) (hunder : folder.toList ++ ['/'] <+: text.reverse) :
    owningWalk (locationIndex locations) text = some index := by
  induction text with
  | nil => simp at hunder
  | cons c rest ih =>
    rw [List.reverse_cons] at htext hunder
    have hrest : rest.reverse <+: path.toList := (List.prefix_append _ _).trans htext
    unfold owningWalk
    obtain hlast | hdeeper := List.prefix_concat_iff.mp hunder
    · obtain ⟨hparent, hc⟩ := List.append_inj' hlast rfl
      obtain rfl := List.head_eq_of_cons_eq hc
      have hne : rest ≠ [] := by
        rintro rfl
        exact hfolder (String.toList_injective hparent)
      rw [if_pos ⟨rfl, hne⟩, ← hparent, String.ofList_toList, hindex]
    · split_ifs with hcandidate
      · -- a candidate that is deeper than the folder is not watched
        obtain ⟨rfl, -⟩ := hcandidate
        have hnone : locationIndex locations (String.ofList rest.reverse) = none := by
          refine List.idxOf?_eq_none_iff.mpr fun hmem => ?_
          have habove := hdeepest _ hmem (isUnder_iff.mpr (Or.inr (by rwa [String.toList_ofList])))
          have hlength := hdeeper.length_le
          obtain rfl | habove := isUnder_iff.mp habove
          · simp at hlength
          · have hlength' := habove.length_le
            simp only [String.toList_ofList, List.length_append, List.length_singleton] at *
            omega
        rw [hnone]
        exact ih hrest hdeeper
      · exact ih hrest hdeeper

/-- The deepest watched folder above a path owns it. -/
lemma owningLocation_eq {path folder : String} {locations : List String} (hmem : folder ∈ locations)
    (hfolder : folder ≠ "") (hunder : isUnder path folder = true)
    (hdeepest : ∀ g ∈ locations, isUnder path g = true → isUnder folder g = true) :
    (owningLocation path (locationIndex locations)).bind (locations[·]?) = some folder := by
  obtain ⟨index, hindex⟩ : ∃ index, locationIndex locations folder = some index :=
    Option.isSome_iff_exists.mp (List.isSome_idxOf?.mpr hmem)
  have hget : locations[index]? = some folder := by
    obtain ⟨hlt, heq, -⟩ := List.idxOf?_eq_some_iff.mp hindex
    rw [List.getElem?_eq_getElem hlt, heq]
  have howner : owningLocation path (locationIndex locations) = some index := by
    unfold owningLocation
    cases hself : locationIndex locations path with
    | some own =>
      have hlisted : path ∈ locations := List.isSome_idxOf?.mp (Option.isSome_of_eq_some hself)
      have hself' := hdeepest path hlisted (isUnder_self path)
      rw [isUnder_antisymm hunder hself', hindex] at hself
      exact hself.symm
    | none =>
      refine owningWalk_eq hindex hfolder hdeepest _ ?_ ?_
      · rw [List.reverse_reverse]
      · rw [List.reverse_reverse]
        obtain rfl | hdeeper := isUnder_iff.mp hunder
        · rw [hindex] at hself
          cases hself
        · exact hdeeper
  rw [howner, Option.bind_some, hget]

/-- A plain spelling does not end in a separator. -/
lemma Spelled.getLast {path : String} {segs : List (List Char)} (h : Spelled path segs)
    (hsegs : segs ≠ []) : path.toList ≠ [] ∧ path.toList.getLast? ≠ some '/' := by
  obtain ⟨init, last, rfl⟩ := (List.eq_nil_or_concat' segs).resolve_left hsegs
  obtain ⟨hlast, hfree, -, -⟩ := h.2 last (by simp)
  have htext : path.toList = Segments.render '/' init ++ '/' :: last := by
    rw [h.1, Segments.render_append]
    simp
  refine ⟨by simp [htext], fun hslash => hfree ?_⟩
  rw [htext, List.getLast?_append, List.getLast?_cons, Option.some_or, Option.some.injEq] at hslash
  obtain ⟨c, hc⟩ := Option.ne_none_iff_exists'.mp (mt List.getLast?_eq_none_iff.mp hlast)
  rw [hc, Option.getD_some] at hslash
  rw [← hslash]
  exact List.mem_of_getLast? hc

/-- The file found under a plain folder. -/
lemma scannedPath_spelled {root : String} {segs names : List (List Char)} (h : Spelled root segs)
    (hsegs : segs ≠ []) (hnames : ∀ name ∈ names, FileName name) :
    Spelled (scannedPath root names) (segs ++ names) := by
  induction names generalizing root segs with
  | nil =>
    have hroot : scannedPath root [] = root := String.ofList_toList
    rwa [hroot, List.append_nil]
  | cons name names ih =>
    have hjoin : pathJoin root.toList name = Segments.render '/' (segs ++ [name]) := by
      unfold pathJoin
      rw [if_neg (not_or.mpr (h.getLast hsegs)), h.1, Segments.render_append]
      simp
    have hnext : Spelled (String.ofList (pathJoin root.toList name)) (segs ++ [name]) := by
      refine ⟨by rw [String.toList_ofList, hjoin], fun seg hseg => ?_⟩
      obtain hseg | hseg := List.mem_append.mp hseg
      · exact h.2 seg hseg
      · rw [List.mem_singleton.mp hseg]
        exact hnames name List.mem_cons_self
    have hrest := ih hnext (by simp) fun other hother =>
      hnames other (List.mem_cons_of_mem _ hother)
    have hpath : scannedPath (String.ofList (pathJoin root.toList name)) names =
        scannedPath root (name :: names) := by
      unfold scannedPath
      rw [String.toList_ofList, List.foldl_cons]
    rwa [hpath, List.append_assoc, List.singleton_append] at hrest

/-! ## One definition of membership -/

/-- The names of a file found by a scan, from the folder down. -/
def ScannedNames (names : List (List Char)) : Prop := names ≠ [] ∧ ∀ name ∈ names, FileName name

instance (names : List (List Char)) : Decidable (ScannedNames names) :=
  inferInstanceAs (Decidable (_ ∧ _))

namespace WatchList

/-- The four tests say that `folder`, and no other watched folder, has `path`. -/
structure Member (s : WatchList) (folder path : String) : Prop where
  owner : (owningLocation path (locationIndex s.locations)).bind (s.locations[·]?) = some folder
  isUnder : ∀ g ∈ s.locations, isUnder path g = true ↔ g = folder
  inPrefix : ∀ g ∈ s.locations, inPrefix path g = true ↔ g = folder
  startsWith : ∀ g ∈ s.locations, startsWith path g = true ↔ g = folder

/-- No folder is inside another, every file imported from a watched folder is a member of it, and to
unwatch a folder removes exactly the files imported from it. -/
structure Agrees (s : WatchList) : Prop where
  flat : ∀ a ∈ s.locations, ∀ b ∈ s.locations,
    TuxBooks.isUnder a b = true ∨ TuxBooks.startsWith a b = true → a = b
  member : ∀ folder ∈ s.locations, ∀ names, ScannedNames names →
    scannedPath folder names ∈ s.books → s.Member folder (scannedPath folder names)
  unwatch : ∀ folder ∈ s.locations, ∀ path, path ∈ (s.step (.unwatch [folder])).books ↔
    path ∈ s.books ∧ ¬∃ names, ScannedNames names ∧ path = scannedPath folder names

/-- The commands are handed accepted folders, and scans find files. -/
def Accepted (_ : WatchList) : LibraryEvent → Prop
  | .scanLibrary path files | .importPath path files =>
    isValidLibraryPath path = true ∧ ∀ names ∈ files, ScannedNames names
  | .unwatch paths => ∀ path ∈ paths, isValidLibraryPath path = true

/-- The folder that is registered has no separator and no white space at its end. -/
def Plain (_ : WatchList) : LibraryEvent → Prop
  | .scanLibrary path _ => path.toList.getLast? ≠ some '/' ∧ trim path = path
  | .importPath path _ =>
    isValidLibraryPath (trim path) = true ∧ (trim path).toList.getLast? ≠ some '/'
  | .unwatch _ => True

instance (s : WatchList) (event : LibraryEvent) : Decidable (s.Accepted event) := by
  cases event <;> unfold Accepted <;> infer_instance

instance (s : WatchList) (event : LibraryEvent) : Decidable (s.Plain event) := by
  cases event <;> unfold Plain <;> infer_instance

/-- A folder that is written plainly. -/
def PlainFolder (folder : String) : Prop :=
  trim folder = folder ∧ ∃ segs, segs ≠ [] ∧ Spelled folder segs

/-- What plain imports keep. -/
structure Tidy (s : WatchList) : Prop where
  folder : ∀ folder ∈ s.locations, PlainFolder folder
  flat : ∀ a ∈ s.locations, ∀ b ∈ s.locations, TuxBooks.isUnder a b = true → a = b
  book : ∀ path ∈ s.books, ∃ segs, Spelled path segs
  owned : ∀ path ∈ s.books, ∃ folder ∈ s.locations, folder.toList ++ ['/'] <+: path.toList

variable {s : WatchList}

lemma tidy_empty : Tidy {} := by
  constructor <;> simp

lemma mem_registerLocation {root folder : String} (h :
    folder ∈ (s.registerLocation root).locations) :
    folder ∈ s.locations ∨ folder = root := by
  unfold registerLocation addLocation collapseDescendants at h
  split_ifs at h with _ hmem
  · exact Or.inl h
  · exact Or.inl (List.mem_of_mem_filter h)
  · obtain h | h := List.mem_append.mp (List.mem_of_mem_filter h)
    · exact Or.inl h
    · exact Or.inr (List.mem_singleton.mp h)

/-- A registration keeps the watch list flat. -/
lemma flat_registerLocation
    (h : ∀ a ∈ s.locations, ∀ b ∈ s.locations, TuxBooks.isUnder a b = true → a = b)
    (root : String) : ∀ a ∈ (s.registerLocation root).locations,
      ∀ b ∈ (s.registerLocation root).locations, TuxBooks.isUnder a b = true → a = b := by
  intro a ha b hb hunder
  have ha' := mem_registerLocation ha
  have hb' := mem_registerLocation hb
  unfold registerLocation at ha hb
  split_ifs at ha hb with hcovered
  · exact h a ha b hb hunder
  · have hkept := (List.mem_filter.mp ha).2
    simp only [Bool.not_eq_true', Bool.and_eq_false_iff, bne_eq_false_iff_eq] at hkept
    obtain ha' | rfl := ha' <;> obtain hb' | rfl := hb'
    · exact h a ha' b hb' hunder
    · -- what is inside the new folder has been dropped
      exact hkept.resolve_left (by rw [hunder]; simp)
    · -- the new folder is inside no watched one
      by_contra hne
      refine hcovered (List.any_eq_true.mpr ⟨b, hb', ?_⟩)
      rw [hunder, Bool.and_true]
      exact bne_iff_ne.mpr (Ne.symm hne)
    · rfl

/-- What a watched folder covered is covered after a registration, and so is the new folder. -/
lemma covered_registerLocation (s : WatchList) (root : String) {folder : String}
    (hfolder : folder ∈ s.locations ∨ folder = root) :
    ∃ above ∈ (s.registerLocation root).locations, TuxBooks.isUnder folder above = true := by
  unfold registerLocation
  split_ifs with hcovered
  · obtain hfolder | rfl := hfolder
    · exact ⟨folder, hfolder, isUnder_self folder⟩
    · obtain ⟨above, habove, hunder⟩ := List.any_eq_true.mp hcovered
      exact ⟨above, habove, (Bool.and_eq_true _ _ ▸ hunder).2⟩
  · have hadded : folder ∈ (s.addLocation root).locations ∧
        root ∈ (s.addLocation root).locations := by
      unfold addLocation
      split_ifs with hmem
      · exact ⟨hfolder.elim id fun heq => heq ▸ hmem, hmem⟩
      · exact ⟨List.mem_append.mpr (hfolder.imp_right List.mem_singleton.mpr),
          List.mem_append.mpr (Or.inr (List.mem_singleton.mpr rfl))⟩
    have hroot : root ∈ ((s.addLocation root).collapseDescendants root).locations :=
      List.mem_filter.mpr ⟨hadded.2, by simp⟩
    by_cases hunder : TuxBooks.isUnder folder root = true
    · exact ⟨root, hroot, hunder⟩
    · exact ⟨folder, List.mem_filter.mpr ⟨hadded.1, by simp [hunder]⟩, isUnder_self folder⟩

lemma books_registerLocation (s : WatchList) (root : String) :
    (s.registerLocation root).books = s.books := by
  unfold registerLocation addLocation collapseDescendants
  split_ifs <;> rfl

/-- What is inside a folder is inside the folder above it. -/
lemma inside_trans {folder above path : String} (h : folder.toList ++ ['/'] <+: path.toList)
    (habove : TuxBooks.isUnder folder above = true) : above.toList ++ ['/'] <+: path.toList := by
  obtain rfl | hdeeper := isUnder_iff.mp habove
  · exact h
  · exact (hdeeper.trans (List.prefix_append _ _)).trans h

/-- A file found by a scan is inside the folder. -/
lemma inside_scannedPath {root : String} {segs names : List (List Char)} (h : Spelled root segs)
    (hsegs : segs ≠ []) (hnames : ScannedNames names) :
    root.toList ++ ['/'] <+: (scannedPath root names).toList := by
  have hspelled := scannedPath_spelled h hsegs hnames.2
  rw [hspelled.1, h.1]
  refine (Segments.render_prefix_iff h.free hspelled.free).mpr ⟨List.prefix_append _ _, ?_⟩
  exact fun heq => hnames.1 (List.self_eq_append_right.mp heq)

lemma Tidy.registerAndImportFolder (h : s.Tidy) {root : String} (hroot : PlainFolder root)
    {files : List (List (List Char))} (hfiles : ∀ names ∈ files, ScannedNames names) :
    (s.registerAndImportFolder root files).Tidy := by
  refine ⟨fun folder hfolder => ?_, flat_registerLocation h.flat root, fun path hpath => ?_,
    fun path hpath => ?_⟩
  · obtain hfolder | rfl := mem_registerLocation hfolder
    · exact h.folder folder hfolder
    · exact hroot
  · obtain hpath | hpath := Finset.mem_union.mp hpath
    · exact h.book path (books_registerLocation s root ▸ hpath)
    · obtain ⟨names, hnames, rfl⟩ := List.mem_map.mp (List.mem_toFinset.mp hpath)
      obtain ⟨-, segs, hsegs, hspelled⟩ := hroot
      exact ⟨_, scannedPath_spelled hspelled hsegs (hfiles names hnames).2⟩
  · obtain ⟨folder, hfolder, hinside⟩ : ∃ folder, (folder ∈ s.locations ∨ folder = root) ∧
        folder.toList ++ ['/'] <+: path.toList := by
      obtain hpath | hpath := Finset.mem_union.mp hpath
      · obtain ⟨folder, hfolder, hinside⟩ := h.owned path (books_registerLocation s root ▸ hpath)
        exact ⟨folder, Or.inl hfolder, hinside⟩
      · obtain ⟨names, hnames, rfl⟩ := List.mem_map.mp (List.mem_toFinset.mp hpath)
        obtain ⟨-, segs, hsegs, hspelled⟩ := hroot
        exact ⟨root, Or.inr rfl, inside_scannedPath hspelled hsegs (hfiles names hnames)⟩
    obtain ⟨above, habove, hunder⟩ := covered_registerLocation s root hfolder
    exact ⟨above, habove, inside_trans hinside hunder⟩

lemma PlainFolder.ne_empty {folder : String} (h : PlainFolder folder) : folder ≠ "" := by
  obtain ⟨-, segs, hsegs, hspelled⟩ := h
  rintro rfl
  exact (hspelled.getLast hsegs).1 rfl

/-- A path under a watched folder is a member of it. -/
lemma Tidy.member (h : s.Tidy) {folder path : String} {segs : List (List Char)}
    (hfolder : folder ∈ s.locations) (hpath : Spelled path segs)
    (hunder : TuxBooks.isUnder path folder = true) : s.Member folder path := by
  have honly : ∀ g ∈ s.locations, TuxBooks.isUnder path g = true ↔ g = folder := by
    refine fun g hg => ⟨fun hother => ?_, fun heq => heq ▸ hunder⟩
    obtain hg' | hg' := overlaps_iff.mp (overlaps_of_common hother hunder)
    · exact h.flat g hg folder hfolder hg'
    · exact (h.flat folder hfolder g hg hg').symm
  refine ⟨?_, honly, fun g hg => ?_, fun g hg => ?_⟩
  · refine owningLocation_eq hfolder (h.folder folder hfolder).ne_empty hunder fun g hg hg' => ?_
    rw [(honly g hg).mp hg']
    exact isUnder_self folder
  · rw [inPrefix_eq_isUnder]
    exact honly g hg
  · obtain ⟨-, gSegs, -, hg'⟩ := h.folder g hg
    rw [startsWith_spelled hpath hg', ← isUnder_spelled hpath hg']
    exact honly g hg

/-- The file rows that a watched folder owns are those inside it. -/
lemma Tidy.mem_booksOwnedBy (h : s.Tidy) {folder path : String} (hfolder : folder ∈ s.locations) :
    path ∈ s.booksOwnedBy folder ↔ path ∈ s.books ∧ folder.toList ++ ['/'] <+: path.toList := by
  unfold booksOwnedBy
  rw [Finset.mem_filter, Finset.mem_filter, and_assoc]
  refine and_congr_right fun hbook => ⟨fun ⟨hbegins, _⟩ => ?_, fun hinside => ?_⟩
  · rw [inPrefix_eq_isUnder] at hbegins
    obtain rfl | hinside := isUnder_iff.mp hbegins
    · -- a watched folder is no file: it would be inside another one
      obtain ⟨above, habove, hinside⟩ := h.owned path hbook
      have heq := h.flat path hfolder above habove (isUnder_iff.mpr (Or.inr hinside))
      rw [← heq] at hinside
      have hlength := hinside.length_le
      simp at hlength
    · exact hinside
  · obtain ⟨segs, hspelled⟩ := h.book path hbook
    have hmember := h.member hfolder hspelled (isUnder_iff.mpr (Or.inr hinside))
    refine ⟨(hmember.inPrefix folder hfolder).mpr rfl, ?_⟩
    obtain ⟨owner, howner, hget⟩ := Option.bind_eq_some_iff.mp hmember.owner
    rw [howner, Option.any_some, hget, beq_self_eq_true]

lemma foldl_removeLocation (s : WatchList) (roots : List String) :
    (roots.foldl removeLocation s).locations = s.locations.filter (· ∉ roots) := by
  induction roots generalizing s with
  | nil => simp
  | cons root roots ih =>
    rw [List.foldl_cons, ih]
    unfold removeLocation
    rw [List.filter_filter]
    refine List.filter_congr fun path _ => ?_
    simp [not_or, Bool.and_comm]

lemma mem_doomed {roots : List String} {path : String} :
    path ∈ s.doomed roots ↔ ∃ root ∈ roots, path ∈ s.booksOwnedBy root := by
  unfold doomed
  induction roots with
  | nil => simp
  | cons root roots ih => simp [ih]

lemma Tidy.unwatchLocations (h : s.Tidy) (paths : List String) :
    (s.unwatchLocations paths).1.Tidy := by
  unfold WatchList.unwatchLocations
  dsimp only
  split_ifs
  · exact h
  · cases s.refused (paths.map trim) with
    | some _ => exact h
    | none =>
      have hleft {folder : String}
          (hfolder : folder ∈ ((paths.map trim).foldl removeLocation s).locations) :
          folder ∈ s.locations := by
        rw [foldl_removeLocation] at hfolder
        exact List.mem_of_mem_filter hfolder
      refine ⟨fun folder hfolder => h.folder folder (hleft hfolder),
        fun a ha b hb => h.flat a (hleft ha) b (hleft hb),
        fun path hpath => h.book path (Finset.mem_sdiff.mp hpath).1, fun path hpath => ?_⟩
      obtain ⟨hbook, hkept⟩ := Finset.mem_sdiff.mp hpath
      obtain ⟨folder, hfolder, hinside⟩ := h.owned path hbook
      refine ⟨folder, ?_, hinside⟩
      rw [foldl_removeLocation]
      refine List.mem_filter.mpr ⟨hfolder, decide_eq_true fun hroot => hkept ?_⟩
      exact mem_doomed.mpr ⟨folder, hroot, (h.mem_booksOwnedBy hfolder).mpr ⟨hbook, hinside⟩⟩

lemma Tidy.step (h : s.Tidy) (event : LibraryEvent) (haccepted : s.Accepted event)
    (hplain : s.Plain event) : (s.step event).Tidy := by
  cases event with
  | scanLibrary path files =>
    unfold WatchList.step
    dsimp only
    split_ifs
    · exact h
    · exact h.registerAndImportFolder ⟨hplain.2, spelled_of_valid haccepted.1 hplain.1⟩ haccepted.2
  | importPath path files =>
    unfold WatchList.step
    dsimp only
    split_ifs
    · exact h
    · exact h.registerAndImportFolder ⟨trim_trim path, spelled_of_valid hplain.1 hplain.2⟩
        haccepted.2
  | unwatch paths => exact h.unwatchLocations paths

/-- No watched folder is refused. -/
lemma Tidy.refused (h : s.Tidy) {folder : String} (hfolder : folder ∈ s.locations) :
    s.refused [folder] = none := by
  have hnone : s.watchedAncestor folder = none := by
    unfold watchedAncestor
    rw [List.argmin_eq_none, List.filter_eq_nil_iff]
    intro candidate hcandidate habove
    simp only [Bool.and_eq_true, bne_iff_ne] at habove
    exact habove.1 (h.flat folder hfolder candidate hcandidate habove.2).symm
  unfold WatchList.refused
  simp [hnone]

lemma Tidy.agrees (h : s.Tidy) : s.Agrees := by
  refine ⟨fun a ha b hb hinside => ?_, fun folder hfolder names hnames _ => ?_,
    fun folder hfolder path => ?_⟩
  · obtain ⟨-, aSegs, -, ha'⟩ := h.folder a ha
    obtain ⟨-, bSegs, -, hb'⟩ := h.folder b hb
    rw [startsWith_spelled ha' hb', ← isUnder_spelled ha' hb', or_self] at hinside
    exact h.flat a ha b hb hinside
  · obtain ⟨-, segs, hsegs, hspelled⟩ := h.folder folder hfolder
    exact h.member hfolder (scannedPath_spelled hspelled hsegs hnames.2)
      (isUnder_iff.mpr (Or.inr (inside_scannedPath hspelled hsegs hnames)))
  · obtain ⟨htrim, segs, hsegs, hspelled⟩ := h.folder folder hfolder
    have hne := (h.folder folder hfolder).ne_empty
    have hbooks : (s.step (.unwatch [folder])).books = s.books \ s.doomed [folder] := by
      unfold WatchList.step WatchList.unwatchLocations
      simp [htrim, Ne.symm hne, h.refused hfolder]
    rw [hbooks, Finset.mem_sdiff, mem_doomed]
    refine and_congr_right fun hbook => not_congr ?_
    simp only [List.mem_singleton, exists_eq_left, h.mem_booksOwnedBy hfolder]
    constructor
    · rintro ⟨-, hinside⟩
      obtain ⟨pathSegs, hpath⟩ := h.book path hbook
      rw [hspelled.1, hpath.1, Segments.render_prefix_iff hspelled.free hpath.free] at hinside
      obtain ⟨⟨names, rfl⟩, hmore⟩ := hinside
      have hnames : ScannedNames names := by
        refine ⟨?_, fun name hname => hpath.2 name (List.mem_append_right _ hname)⟩
        rintro rfl
        exact hmore (List.append_nil segs).symm
      refine ⟨names, hnames, String.toList_injective ?_⟩
      rw [hpath.1, (scannedPath_spelled hspelled hsegs hnames.2).1]
    · rintro ⟨names, hnames, rfl⟩
      exact ⟨hbook, inside_scannedPath hspelled hsegs hnames⟩

/-! ## A separator at the end -/

lemma prefix_foldl_pathJoin (path : List Char) (names : List (List Char)) :
    path <+: names.foldl pathJoin path := by
  induction names generalizing path with
  | nil => exact List.prefix_rfl
  | cons name names ih =>
    refine List.IsPrefix.trans ?_ (ih _)
    unfold pathJoin
    split_ifs <;> exact List.prefix_append _ _

/-- **The separator rule sees the files of a folder** exactly when the folder does not end in a
separator itself. -/
theorem isUnder_scannedPath_iff {root : String} {names : List (List Char)}
    (hroot : isValidLibraryPath root = true) (hnames : ScannedNames names) :
    TuxBooks.isUnder (scannedPath root names) root = true ↔ root.toList.getLast? ≠ some '/' := by
  constructor
  · intro hunder hslash
    obtain ⟨hne, hfiles⟩ := hnames
    obtain ⟨name, names, rfl⟩ := List.exists_cons_of_ne_nil hne
    obtain ⟨c, name, rfl⟩ := List.exists_cons_of_ne_nil (hfiles name List.mem_cons_self).1
    have htext : root.toList ++ [c] <+: (scannedPath root ((c :: name) :: names)).toList := by
      unfold scannedPath
      rw [String.toList_ofList, List.foldl_cons]
      refine List.IsPrefix.trans ?_ (prefix_foldl_pathJoin _ names)
      unfold pathJoin
      rw [if_pos (Or.inr hslash)]
      exact (List.prefix_append_right_inj _).mpr (by simp)
    have hc : c ≠ '/' := fun heq =>
      (hfiles _ List.mem_cons_self).2.1 (heq ▸ List.mem_cons_self)
    obtain heq | hinside := isUnder_iff.mp hunder
    · have hlength := (heq ▸ htext).length_le
      simp at hlength
    · have hsame := (List.prefix_of_prefix_length_le hinside htext (by simp)).eq_of_length (by simp)
      exact hc (List.head_eq_of_cons_eq (List.append_cancel_left hsame)).symm
  · intro hend
    obtain ⟨segs, hsegs, hspelled⟩ := spelled_of_valid hroot hend
    exact isUnder_iff.mpr (Or.inr (inside_scannedPath hspelled hsegs hnames))

/-! ## Every run -/

/-- **One definition of membership** in every run of folder imports and unwatches in which no
registered folder ends in a separator or in white space. -/
theorem membership_agrees {events : List LibraryEvent}
    (haccepted : Guarded.Meets step Accepted {} events)
    (hplain : Guarded.Meets step Plain {} events) : (events.foldl step {}).Agrees :=
  ((haccepted.and hplain).invariant (fun _ event h hok => h.step event hok.1 hok.2)
    tidy_empty).agrees

/-- A folder, then the folder above it, then the first one again. -/
theorem membership_agrees_sample :
    ([.scanLibrary "/lib/a" [[['x']]], .scanLibrary "/lib" [[['a'], ['x']], [['y']]],
      .importPath "/lib/a " [[['z']]]].foldl step {}).Agrees :=
  membership_agrees (by decide +kernel) (by decide +kernel)

/-- A folder with a separator at its end: its file is in the folder for the watcher alone. -/
theorem trailing_separator_disagrees :
    ¬∀ events, Guarded.Meets step Accepted {} events → (events.foldl step {}).Agrees := by
  intro h
  have hagrees := h [.scanLibrary "/lib/" [[['x']]]] (by decide +kernel)
  have hmember := hagrees.member "/lib/" (by decide +kernel) [['x']] (by decide +kernel)
    (by decide +kernel)
  have hunder := (hmember.isUnder "/lib/" (by decide +kernel)).mpr rfl
  revert hunder
  decide +kernel

end WatchList

end TuxBooks
