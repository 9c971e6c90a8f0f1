import TuxBooks.Epub.Archive
import TuxBooks.Library.Membership

set_option relaxedAutoImplicit false
set_option autoImplicit false

/-!
# The two gates on member paths

A member path is checked twice: by `parseMemberPath` in the protocol layer and by
`validate_member_path` in the sidecar, before `normalize_path` names the member.

## Main definitions

* `TuxBooks.Epub.validateMemberPath`, `TuxBooks.Epub.normalizePath` — the sidecar's check and
  normalization.
* `TuxBooks.parseMemberPath` — the protocol layer's check.
* `TuxBooks.Epub.walk` — where a path leads, from the root of the archive.
* `TuxBooks.Epub.Contained` — a path that stays under the root.

## Main results

* `TuxBooks.Epub.contained_of_noParent` — a relative path without a parent segment stays under
  the root.
* `TuxBooks.Epub.gates_agree_iff` — the strings on which the gates agree.
-/

namespace TuxBooks

/-! ## The protocol layer's gate -/

def maxMemberPathLength : ℕ := 1024

/-- `charCodeAt(0)` of one code point: its first UTF-16 unit. -/
def charCode (c : Char) : ℕ :=
  if c.toNat < 0x10000 then c.toNat else 0xd800 + (c.toNat - 0x10000) / 0x400

/-- `/^[A-Za-z]:$/` -/
def isDriveSegment : List Char → Bool
  | [letter, ':'] => letter.isAlpha
  | _ => false

/-- Validate an EPUB member path (already decoded exactly once). -/
def parseMemberPath (decoded : String) : Option String :=
  if utf16Length decoded == 0 || decide (utf16Length decoded > maxMemberPathLength) then none
  else if decoded.toList.head? == some '/' || decoded.toList.any (· == '\\') then none
  else if decoded.toList.any (· == '\x00') then none
  else if decoded.toList.any fun c => decide (charCode c < 0x20) || charCode c == 0x7f then none
  else
    let segments := decoded.toList.splitOn '/'
    if segments.any (· == ['.', '.']) then none
    else if segments.any isDriveSegment then none
    else some decoded

namespace Epub

/-! ## The sidecar's gate -/

/-- `char::is_control`: the characters of the category `Cc`. -/
def isControl (c : Char) : Bool :=
  decide (c.toNat < 0x20) || (decide (0x7f ≤ c.toNat) && decide (c.toNat ≤ 0x9f))

/-- A drive prefix. -/
def hasDrivePrefix : List Char → Bool
  | first :: second :: _ => first.isAlpha && second == ':'
  | _ => false

/-- Validate a renderer-supplied member path before any lookup. -/
def validateMemberPath (path : String) : Except EpubError Unit :=
  if path.toList.any (· == '\\') || path.toList.head? == some '/' then
    .error (.invalidMemberPath path)
  else if path.toList.any fun c => c == '\x00' || isControl c then
    .error (.invalidMemberPath path)
  else if (path.toList.splitOn '/').any (· == ['.', '.']) then .error (.invalidMemberPath path)
  else if hasDrivePrefix path.toList then .error (.invalidMemberPath path)
  else .ok ()

/-- The segments that `normalize_path` keeps. -/
def keptSegments (path : String) : List (List Char) :=
  (path.toList.splitOn '/').foldl normalizeSegment []

/-- Collapse empty, `.` and `..` segments. -/
def normalizePath (path : String) : String :=
  String.ofList (['/'].intercalate (keptSegments path))

/-! ## Where a path leads -/

/-- The directory or member that the segments lead to from `dir`; nothing when they leave the
root. -/
def walk (dir : List (List Char)) : List (List Char) → Option (List (List Char))
  | [] => some dir
  | seg :: segs =>
    if seg = [] ∨ seg = ['.'] then walk dir segs
    else if seg = ['.', '.'] then if dir = [] then none else walk dir.dropLast segs
    else walk (dir ++ [seg]) segs

/-- **A path that stays under the root**: it is relative, its walk never leaves the root, and its
normalization names what the walk arrives at, without a parent segment. -/
structure Contained (path : String) : Prop where
  relative : path.toList.head? ≠ some '/'
  inside : walk [] (path.toList.splitOn '/') = some (keptSegments path)
  noParent : ['.', '.'] ∉ (normalizePath path).toList.splitOn '/'
  still_inside : walk [] ((normalizePath path).toList.splitOn '/') = some (keptSegments path)

/-- A walk that stays inside keeps what the normalization keeps. -/
lemma walk_eq_foldl {segs dir : List (List Char)} (h : ['.', '.'] ∉ segs) :
    walk dir segs = some (segs.foldl normalizeSegment dir) := by
  induction segs generalizing dir with
  | nil => rfl
  | cons seg segs ih =>
    have hseg : seg ≠ ['.', '.'] := fun heq => h (heq ▸ List.mem_cons_self)
    have hsegs : ['.', '.'] ∉ segs := fun hmem => h (List.mem_cons_of_mem seg hmem)
    rw [walk, List.foldl_cons, normalizeSegment]
    by_cases hskip : seg = [] ∨ seg = ['.']
    · rw [if_pos hskip, if_pos hskip, ih hsegs]
    · rw [if_neg hskip, if_neg hskip, if_neg hseg, if_neg hseg, ih hsegs]

/-- A segment that the normalization keeps. -/
structure IsName (seg : List Char) : Prop where
  free : '/' ∉ seg
  ne_nil : seg ≠ []
  ne_dot : seg ≠ ['.']
  ne_parent : seg ≠ ['.', '.']

/-- The normalization keeps only names. -/
lemma isName_foldl {segs dir : List (List Char)} (hsegs : Segments.Free '/' segs)
    (hdir : ∀ seg ∈ dir, IsName seg) : ∀ seg ∈ segs.foldl normalizeSegment dir, IsName seg := by
  induction segs generalizing dir with
  | nil => exact hdir
  | cons seg segs ih =>
    refine ih hsegs.tail ?_
    intro other hother
    rw [normalizeSegment] at hother
    split_ifs at hother with hskip hparent
    · exact hdir other hother
    · exact hdir other (List.dropLast_subset dir hother)
    · obtain hother | hother := List.mem_append.mp hother
      · exact hdir other hother
      · obtain rfl := List.mem_singleton.mp hother
        rw [not_or] at hskip
        exact ⟨hsegs.head, hskip.1, hskip.2, hparent⟩

lemma isName_of_mem_kept {path : String} {seg : List Char} (h : seg ∈ keptSegments path) :
    IsName seg :=
  isName_foldl (Segments.free_splitOn path.toList) (by simp) seg h

/-- Names are kept as they are. -/
lemma foldl_names {segs dir : List (List Char)} (h : ∀ seg ∈ segs, IsName seg) :
    segs.foldl normalizeSegment dir = dir ++ segs := by
  induction segs generalizing dir with
  | nil => simp
  | cons seg segs ih =>
    have hseg := h seg List.mem_cons_self
    have hkeep : normalizeSegment dir seg = dir ++ [seg] := by
      simp [normalizeSegment, hseg.ne_nil, hseg.ne_dot, hseg.ne_parent]
    rw [List.foldl_cons, hkeep, ih fun other hother => h other (List.mem_cons_of_mem seg hother)]
    simp

/-- The segments of a normalized path. -/
lemma splitOn_normalizePath (path : String) :
    (normalizePath path).toList.splitOn '/' =
      if keptSegments path = [] then [[]] else keptSegments path := by
  rw [normalizePath, String.toList_ofList]
  split_ifs with hempty
  · rw [hempty]
    rfl
  · exact List.splitOn_intercalate '/' (fun seg hseg => (isName_of_mem_kept hseg).free) hempty

/-- **Normalizing again changes nothing.** -/
theorem keptSegments_normalizePath (path : String) :
    keptSegments (normalizePath path) = keptSegments path := by
  rw [keptSegments, splitOn_normalizePath]
  split_ifs with hempty
  · rw [hempty]
    rfl
  · exact foldl_names fun seg hseg => isName_of_mem_kept hseg

lemma noParent_normalizePath (path : String) :
    ['.', '.'] ∉ (normalizePath path).toList.splitOn '/' := by
  rw [splitOn_normalizePath]
  split_ifs with hempty
  · decide
  · exact fun hmem => (isName_of_mem_kept hmem).ne_parent rfl

/-- **A relative path without a parent segment** stays under the root. -/
theorem contained_of_noParent {path : String} (hrelative : path.toList.head? ≠ some '/')
    (hparent : ['.', '.'] ∉ path.toList.splitOn '/') : Contained path where
  relative := hrelative
  inside := walk_eq_foldl hparent
  noParent := noParent_normalizePath path
  still_inside := by
    rw [walk_eq_foldl (noParent_normalizePath path)]
    exact congrArg some (keptSegments_normalizePath path)

/-! ## Comparing the gates -/

/-- What both gates refuse: a separator of the wrong kind or place, an ASCII control character,
or a parent segment. -/
def RefusedByBoth (path : String) : Prop :=
  '\\' ∈ path.toList ∨ path.toList.head? = some '/' ∨
    (∃ c ∈ path.toList, c.toNat < 0x20 ∨ c.toNat = 0x7f) ∨
    ['.', '.'] ∈ path.toList.splitOn '/'

/-- What the sidecar alone refuses: a control character above ASCII, or a drive prefix. -/
def RefusedBySidecar (path : String) : Prop :=
  (∃ c ∈ path.toList, 0x80 ≤ c.toNat ∧ c.toNat ≤ 0x9f) ∨ hasDrivePrefix path.toList = true

/-- What the protocol layer alone refuses: a long path, or a segment that is a drive. -/
def RefusedByProtocol (path : String) : Prop :=
  maxMemberPathLength < utf16Length path ∨ ∃ seg ∈ path.toList.splitOn '/', isDriveSegment seg

/-- **The gates agree on a path**: unless it is empty, both accept it or neither does, and when one
accepts it, the path stays under the root. -/
structure GatesAgree (path : String) : Prop where
  same : path ≠ "" → (validateMemberPath path = .ok () ↔ parseMemberPath path = some path)
  inside : validateMemberPath path = .ok () ∨ parseMemberPath path = some path → Contained path

/-- A supplementary character begins with a surrogate. -/
lemma charCode_low_iff (c : Char) :
    charCode c < 0x20 ∨ charCode c = 0x7f ↔ c.toNat < 0x20 ∨ c.toNat = 0x7f := by
  rw [charCode]
  split_ifs <;> omega

/-- An ASCII control character or one above ASCII. -/
lemma any_control_iff (cs : List Char) :
    (cs.any fun c => c == '\x00' || isControl c) = true ↔
      (∃ c ∈ cs, c.toNat < 0x20 ∨ c.toNat = 0x7f) ∨ ∃ c ∈ cs, 0x80 ≤ c.toNat ∧ c.toNat ≤ 0x9f := by
  have hcontrol (c : Char) : (c == '\x00' || isControl c) = true ↔
      (c.toNat < 0x20 ∨ c.toNat = 0x7f) ∨ (0x80 ≤ c.toNat ∧ c.toNat ≤ 0x9f) := by
    by_cases hc : c = '\x00'
    · rw [hc]
      decide
    · simp only [isControl, Bool.or_eq_true, Bool.and_eq_true, beq_iff_eq, decide_eq_true_eq, hc,
        false_or]
      omega
  simp only [List.any_eq_true, hcontrol, and_or_left, exists_or]

/-- The protocol layer's two scans find the ASCII control characters. -/
lemma any_low_iff (cs : List Char) :
    (cs.any (· == '\x00') = true ∨
        (cs.any fun c => decide (charCode c < 0x20) || charCode c == 0x7f) = true) ↔
      ∃ c ∈ cs, c.toNat < 0x20 ∨ c.toNat = 0x7f := by
  have hlow (c : Char) : (decide (charCode c < 0x20) || charCode c == 0x7f) = true ↔
      c.toNat < 0x20 ∨ c.toNat = 0x7f := by
    rw [← charCode_low_iff]
    simp
  simp only [List.any_eq_true, hlow, beq_iff_eq]
  refine ⟨?_, .inr⟩
  rintro (⟨c, hc, rfl⟩ | h)
  · exact ⟨_, hc, .inl (by decide)⟩
  · exact h

lemma any_parent_iff (path : String) :
    (path.toList.splitOn '/').any (· == ['.', '.']) = true ↔
      ['.', '.'] ∈ path.toList.splitOn '/' := by
  simp

lemma utf16Length_eq_zero {path : String} (h : utf16Length path = 0) : path = "" := by
  rw [utf16Length] at h
  cases hcs : path.toList with
  | nil => exact String.toList_eq_nil_iff.mp hcs
  | cons c cs =>
    rw [hcs, List.map_cons, List.sum_cons] at h
    split_ifs at h <;> omega

/-- A check that refuses leaves what the later checks say. -/
lemma ite_error_eq_ok {ε α : Type} {c : Prop} [Decidable c] {e : ε} {checked : Except ε α} {a : α} :
    (if c then .error e else checked) = .ok a ↔ ¬c ∧ checked = .ok a := by
  split_ifs with hc <;> simp [hc]

/-- What the sidecar accepts. -/
lemma validateMemberPath_ok_iff (path : String) :
    validateMemberPath path = .ok () ↔ ¬RefusedByBoth path ∧ ¬RefusedBySidecar path := by
  have hshape : (path.toList.any (· == '\\') || path.toList.head? == some '/') = true ↔
      '\\' ∈ path.toList ∨ path.toList.head? = some '/' := by simp
  simp only [validateMemberPath, ite_error_eq_ok, hshape, any_control_iff, any_parent_iff,
    RefusedByBoth, RefusedBySidecar, not_or, and_true]
  constructor
  · rintro ⟨⟨hsep, hhead⟩, ⟨hlow, hhigh⟩, hparent, hdrive⟩
    exact ⟨⟨hsep, hhead, hlow, hparent⟩, hhigh, hdrive⟩
  · rintro ⟨⟨hsep, hhead, hlow, hparent⟩, hhigh, hdrive⟩
    exact ⟨⟨hsep, hhead⟩, ⟨hlow, hhigh⟩, hparent, hdrive⟩

/-- What the protocol layer accepts. -/
lemma parseMemberPath_some_iff {path : String} (h : path ≠ "") :
    parseMemberPath path = some path ↔ ¬RefusedByBoth path ∧ ¬RefusedByProtocol path := by
  have hlow := any_low_iff path.toList
  have hshape : (path.toList.head? == some '/' || path.toList.any (· == '\\')) = true ↔
      '\\' ∈ path.toList ∨ path.toList.head? = some '/' := by simp [or_comm]
  have hlength : (utf16Length path == 0 || decide (utf16Length path > maxMemberPathLength)) = true ↔
      maxMemberPathLength < utf16Length path := by
    simpa using fun hzero => absurd (utf16Length_eq_zero hzero) h
  have hdrive : (path.toList.splitOn '/').any isDriveSegment = true ↔
      ∃ seg ∈ path.toList.splitOn '/', isDriveSegment seg = true := by simp
  simp only [parseMemberPath, Option.ite_none_left_eq_some, hlength, hshape, any_parent_iff, hdrive,
    RefusedByBoth, RefusedByProtocol, ← hlow, not_or, and_true]
  constructor
  · rintro ⟨hlong, ⟨hsep, hhead⟩, hzero, hcontrol, hparent, hsegment⟩
    exact ⟨⟨hsep, hhead, ⟨hzero, hcontrol⟩, hparent⟩, hlong, hsegment⟩
  · rintro ⟨⟨hsep, hhead, ⟨hzero, hcontrol⟩, hparent⟩, hlong, hsegment⟩
    exact ⟨hlong, ⟨hsep, hhead⟩, hzero, hcontrol, hparent, hsegment⟩

/-- What either gate accepts stays under the root. -/
lemma contained_of_accepted {path : String}
    (h : validateMemberPath path = .ok () ∨ parseMemberPath path = some path) :
    Contained path := by
  have hboth : ¬RefusedByBoth path := by
    obtain hsidecar | hprotocol := h
    · exact ((validateMemberPath_ok_iff path).mp hsidecar).1
    · by_cases hempty : path = ""
      · rw [hempty] at hprotocol
        exact absurd hprotocol (by decide)
      · exact ((parseMemberPath_some_iff hempty).mp hprotocol).1
  refine contained_of_noParent (fun hhead => hboth ?_) (fun hparent => hboth ?_)
  · exact .inr (.inl hhead)
  · exact .inr (.inr (.inr hparent))

/-- **The gates agree exactly** on the paths that both refuse for a common reason, and on those
where the sidecar's own reasons and the protocol layer's own reasons hold together or not at all. -/
theorem gates_agree_iff (path : String) :
    GatesAgree path ↔
      path = "" ∨ RefusedByBoth path ∨ (RefusedBySidecar path ↔ RefusedByProtocol path) := by
  have hsidecar := validateMemberPath_ok_iff path
  have hinside : validateMemberPath path = .ok () ∨ parseMemberPath path = some path →
      Contained path := contained_of_accepted
  by_cases hempty : path = ""
  · exact iff_of_true ⟨fun hne => absurd hempty hne, hinside⟩ (.inl hempty)
  · have hprotocol := parseMemberPath_some_iff hempty
    rw [or_iff_right hempty]
    by_cases hboth : RefusedByBoth path
    · refine iff_of_true ⟨fun _ => ?_, hinside⟩ (.inl hboth)
      rw [hsidecar, hprotocol]
      tauto
    · rw [or_iff_right hboth]
      rw [and_iff_right hboth] at hsidecar hprotocol
      refine Iff.trans ⟨fun h => h.same hempty, fun h => ⟨fun _ => h, hinside⟩⟩ ?_
      rw [hsidecar, hprotocol, not_iff_not]

/-- A chapter of a folder that is named like a drive with more behind the colon. -/
theorem gates_disagree_on_drive :
    validateMemberPath "C:one.xhtml" = .error (.invalidMemberPath "C:one.xhtml") ∧
      parseMemberPath "C:one.xhtml" = some "C:one.xhtml" ∧ ¬GatesAgree "C:one.xhtml" := by
  have hsidecar : validateMemberPath "C:one.xhtml" =
      .error (.invalidMemberPath "C:one.xhtml") := by decide +kernel
  have hprotocol : parseMemberPath "C:one.xhtml" = some "C:one.xhtml" := by decide +kernel
  refine ⟨hsidecar, hprotocol, fun hagree => ?_⟩
  have hok := (hagree.same (by decide)).mpr hprotocol
  rw [hsidecar] at hok
  cases hok

end Epub

end TuxBooks
