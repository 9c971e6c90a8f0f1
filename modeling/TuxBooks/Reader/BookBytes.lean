import Mathlib.Algebra.Group.Nat.Defs
import Mathlib.Algebra.Order.Group.Int
import Mathlib.Data.List.Basic
import Mathlib.Tactic.Common
import TuxBooks.Lib.Base64

set_option relaxedAutoImplicit false
set_option autoImplicit false

/-!
# The bytes of a stored book

`services/reader.rs` reads a book's file, a range of it, or a member of an EPUB, and
`commands/reader.rs` answers the calls of the `tuxbooks://` protocol handler with them. Both calls
take an optional offset and an optional length of 64 bits.

The file system and the document worker are parameters. A sum that leaves 64 bits stops the program
where overflow is checked and wraps around in a release build.

## Main definitions

* `TuxBooks.BookFiles.Library` — the stored books and what can be read of them.
* `TuxBooks.BookFiles.loadBookFileRange` — the bytes of a range, with the size of the file.
* `TuxBooks.BookFiles.getBookBytes`, `TuxBooks.BookFiles.getBookResource` — the two calls.
* `TuxBooks.BookFiles.sliced` — the slice that an offset and a length ask for.

## Main results

* `TuxBooks.BookFiles.loadBookFileRange_ok` — a ranged read is the slice of the file.
* `TuxBooks.BookFiles.rangedReads_iff` — when each call answers with the slice that was asked for.
-/

namespace TuxBooks

namespace BookFiles

/-! ## Books and their files -/

inductive BookFormat where
  | epub
  | pdf
  deriving DecidableEq

namespace BookFormat

/-- The file name of a path: the last component, unless it is `..`. -/
def fileName (path : String) : Option (List Char) :=
  let components := (path.toList.splitOn '/').filter fun part => part ≠ [] ∧ part ≠ ['.']
  components.getLast?.filter (· ≠ ['.', '.'])

/-- What follows the last dot of a file name that does not begin with it. -/
def extension (path : String) : Option (List Char) := do
  let name ← fileName path
  let parts := name.splitOn '.'
  if name.dropWhile (· ≠ '.') = [] ∨ parts.dropLast = [[]] then none else parts.getLast?

/-- Extension to format. -/
def fromExtension (ext : List Char) : Option BookFormat :=
  match String.ofList (ext.map Char.toLower) with
  | "epub" => some .epub
  | "pdf" => some .pdf
  | _ => none

/-- Path to format: none for a missing or unsupported extension. -/
def fromPath (path : String) : Option BookFormat :=
  (extension path).bind fromExtension

example : fromPath "/home/me/Books/Dune.v2.EPUB" = some .epub := by decide +kernel

end BookFormat

/-- The errors of the reading services. -/
inductive AppError where
  | database (detail : String)
  | io (detail : String)
  | worker (detail : String)
  | notFound
  | invalidInput (detail : String)
  deriving DecidableEq

/-- A file or a member read whole: a vector holds at most `isize::MAX` bytes. -/
structure Content where
  bytes : List UInt8
  fits : bytes.length < 2 ^ 63

/-- A stored book, as far as its file is concerned. -/
structure Book where
  path : String

/-- The database of books, the files by their paths, and the members that the document worker
extracts. -/
structure Library where
  getBook : ℤ → Except AppError (Option Book)
  read : String → Except AppError Content
  epubMember : String → String → Except AppError (Option Content)

/-- The book of that id. -/
def storedBook (library : Library) (bookId : ℤ) : Except AppError Book := do
  match ← library.getBook bookId with
  | some book => .ok book
  | none => .error .notFound

/-- The raw bytes of a stored book's source file. -/
def loadBookFile (library : Library) (bookId : ℤ) : Except AppError Content := do
  let book ← storedBook library bookId
  library.read book.path

/-- Addition that stops at the largest value of 64 bits. -/
def saturatingAdd (a b : ℕ) : ℕ := min (a + b) (2 ^ 64 - 1)

/-- A byte range of a stored book's source file, with the file's total size. -/
def loadBookFileRange (library : Library) (bookId : ℤ) (offset length : UInt64) :
    Except AppError (List UInt8 × ℕ) := do
  let book ← storedBook library bookId
  let file ← library.read book.path
  let total := file.bytes.length
  let start := min offset.toNat total
  let stop := min (saturatingAdd length.toNat start) total
  return ((file.bytes.drop start).take (stop - start), total)

/-- The book of that id, which must be an EPUB. -/
def epubBook (library : Library) (bookId : ℤ) : Except AppError Book := do
  let book ← storedBook library bookId
  if BookFormat.fromPath book.path ≠ some .epub then
    .error (.invalidInput s!"book {bookId} is not an EPUB")
  else .ok book

/-- The media type by the extension of a member. -/
def guessMemberMediaType (resource : String) : String :=
  let extension := (resource.toList.splitOn '.').getLast?.getD []
  match String.ofList (extension.map Char.toLower) with
  | "xhtml" => "application/xhtml+xml"
  | "html" | "htm" => "text/html"
  | "css" => "text/css"
  | "js" => "text/javascript"
  | "png" => "image/png"
  | "jpg" | "jpeg" => "image/jpeg"
  | "gif" => "image/gif"
  | "svg" => "image/svg+xml"
  | "webp" => "image/webp"
  | "ncx" => "application/x-dtbncx+xml"
  | "opf" => "application/oebps-package+xml"
  | "mp3" => "audio/mpeg"
  | "mp4" | "m4v" => "video/mp4"
  | "ogg" | "oga" => "audio/ogg"
  | "ogv" => "video/ogg"
  | "webm" => "video/webm"
  | "woff" => "font/woff"
  | "woff2" => "font/woff2"
  | "ttf" => "font/ttf"
  | "otf" => "font/otf"
  | "xml" => "application/xml"
  | "txt" => "text/plain"
  | _ => "application/octet-stream"

/-- One member of an EPUB by its path, with its media type. -/
def loadBookResource (library : Library) (bookId : ℤ) (resource : String) :
    Except AppError (Content × String) := do
  let book ← epubBook library bookId
  match ← library.epubMember book.path resource with
  | some content => .ok (content, guessMemberMediaType resource)
  | none => .error .notFound

/-! ## The two calls -/

/-- How a call ends: with an answer, or with a panic of the thread that served it. -/
inductive Call (α : Type) where
  | returned (answer : Except AppError α)
  | panicked
  deriving DecidableEq

/-- What both calls answer: the encoded bytes, the offset that they start at, and the size. -/
structure GetBookBytesResult where
  data : String
  offset : ℕ
  total : ℕ
  deriving DecidableEq

structure GetBookResourceResult extends GetBookBytesResult where
  mediaType : String
  deriving DecidableEq

/-- The plain sum of two numbers of 64 bits: none where overflow is checked. -/
def plainAdd (overflowChecks : Bool) (a b : ℕ) : Option ℕ :=
  if a + b < 2 ^ 64 then some (a + b)
  else if overflowChecks then none else some ((a + b) % 2 ^ 64)

/-- `&bytes[start..stop]`, which is none where indexing panics. -/
def index (bytes : List UInt8) (start stop : ℕ) : Option (List UInt8) :=
  if start ≤ stop ∧ stop ≤ bytes.length then some ((bytes.drop start).take (stop - start))
  else none

section Calls

variable (overflowChecks : Bool) (library : Library)

/-- The raw bytes of a stored book's source file: a range when both an offset and a length are
given, else the whole file. -/
def getBookBytes (bookId : ℤ) (offset length : Option UInt64) : Call GetBookBytesResult :=
  let loaded : Except AppError (List UInt8 × ℕ) :=
    match offset, length with
    | some offset, some length => loadBookFileRange library bookId offset length
    | _, _ => (loadBookFile library bookId).map fun file => (file.bytes, file.bytes.length)
  .returned (loaded.map fun (data, total) =>
    { data := Base64.encode data, offset := (offset.getD 0).toNat, total := total })

/-- One member of an EPUB, or a range of it, with its media type. -/
def getBookResource (bookId : ℤ) (path : String) (offset length : Option UInt64) :
    Call GetBookResourceResult :=
  match loadBookResource library bookId path with
  | .error e => .returned (.error e)
  | .ok (content, mediaType) =>
    let total := content.bytes.length
    let start := min (offset.getD 0).toNat total
    let stop := match length with
      | some length => (plainAdd overflowChecks start length.toNat).map (min · total)
      | none => some total
    match stop.bind (index content.bytes start) with
    | none => .panicked
    | some data => .returned (.ok
        { data := Base64.encode data, offset := start, total := total, mediaType := mediaType })

end Calls

/-! ## The slice that was asked for -/

section Slices

variable {overflowChecks : Bool} {library : Library}

/-- The bytes from `min (offset, total)` to `min (offset + length, total)`, to the end when no
length is given, with the offset that they start at. -/
def sliced (bytes : List UInt8) (offset length : Option UInt64) :
    GetBookBytesResult :=
  let total := bytes.length
  let start := min (offset.getD 0).toNat total
  let stop := match length with
    | some length => min ((offset.getD 0).toNat + length.toNat) total
    | none => total
  { data := Base64.encode ((bytes.drop start).take (stop - start))
    offset := start
    total := total }

/-- The offset and the length are both given and the offset is within the file, or what is missing
makes no difference. -/
def FileRangeMeets (total : ℕ) : Option UInt64 → Option UInt64 → Prop
  | some offset, some _ => offset.toNat ≤ total
  | some offset, none => offset.toNat = 0
  | none, some length => total ≤ length.toNat
  | none, none => True

/-- The end of the range, counted from the clamped offset, is a number of 64 bits. -/
def ResourceRangeMeets (total : ℕ) (offset length : Option UInt64) : Prop :=
  ∀ len ∈ length, min (offset.getD 0).toNat total + len.toNat < 2 ^ 64

/-- A clamped start and a clamped end are those of the range that was asked for. -/
lemma clamped_stop (offset length total : ℕ) :
    min (min offset total + length) total = min (offset + length) total := by
  omega

lemma saturated_stop {start total : ℕ} (htotal : total < 2 ^ 63) (length : ℕ) :
    min (saturatingAdd length start) total = min (start + length) total := by
  unfold saturatingAdd
  omega

/-- **A ranged read is the slice of the file**, at every offset and length. -/
theorem loadBookFileRange_ok {bookId : ℤ} {book : Book} {file : Content}
    (hbook : library.getBook bookId = .ok (some book)) (hfile : library.read book.path = .ok file)
    (offset length : UInt64) :
    loadBookFileRange library bookId offset length =
      .ok ((file.bytes.drop offset.toNat).take length.toNat, file.bytes.length) := by
  have hrun : loadBookFileRange library bookId offset length =
      .ok ((file.bytes.drop (min offset.toNat file.bytes.length)).take
        (min (saturatingAdd length.toNat (min offset.toNat file.bytes.length)) file.bytes.length
          - min offset.toNat file.bytes.length), file.bytes.length) := by
    simp [loadBookFileRange, storedBook, hbook, hfile, bind, Except.bind, pure, Except.pure]
  rw [hrun, saturated_stop file.fits]
  congr 2
  rcases Nat.le_total file.bytes.length offset.toNat with hpast | hwithin
  · rw [min_eq_right hpast, List.drop_length, List.drop_eq_nil_of_le hpast]
    simp
  · rw [min_eq_left hwithin, List.take_eq_take_iff, List.length_drop]
    omega

/-- What the file call answers: the slice of the range or the whole file, with the offset as it
was asked for. -/
lemma getBookBytes_eq {bookId : ℤ} {book : Book} {file : Content}
    (hbook : library.getBook bookId = .ok (some book)) (hfile : library.read book.path = .ok file)
    (offset length : Option UInt64) :
    getBookBytes library bookId offset length = .returned (.ok
      { data := Base64.encode <|
          match offset, length with
          | some offset, some length => (file.bytes.drop offset.toNat).take length.toNat
          | _, _ => file.bytes
        offset := (offset.getD 0).toNat
        total := file.bytes.length }) := by
  have hwhole : loadBookFile library bookId = .ok file := by
    simp [loadBookFile, storedBook, hbook, hfile, bind, Except.bind]
  unfold getBookBytes
  cases offset with
  | none => simp [hwhole, Except.map]
  | some offset =>
    cases length with
    | none => simp [hwhole, Except.map]
    | some length => simp [loadBookFileRange_ok hbook hfile, Except.map]

/-- The slice that was asked for, as a drop and a take. -/
lemma sliced_data (bytes : List UInt8) (offset length : Option UInt64) :
    sliced bytes offset length =
      { data := Base64.encode <|
          match length with
          | some length => (bytes.drop (offset.getD 0).toNat).take length.toNat
          | none => bytes.drop (offset.getD 0).toNat
        offset := min (offset.getD 0).toNat bytes.length
        total := bytes.length } := by
  unfold sliced
  cases length with
  | none =>
    simp only [GetBookBytesResult.mk.injEq, and_true]
    congr 1
    rcases Nat.le_total bytes.length (offset.getD 0).toNat with hpast | hwithin
    · simp [min_eq_right hpast, List.drop_eq_nil_of_le hpast]
    · rw [min_eq_left hwithin, List.take_of_length_le (by rw [List.length_drop])]
  | some length =>
    simp only [GetBookBytesResult.mk.injEq, and_true]
    congr 1
    rcases Nat.le_total bytes.length (offset.getD 0).toNat with hpast | hwithin
    · simp [min_eq_right hpast, List.drop_eq_nil_of_le hpast]
    · rw [min_eq_left hwithin, List.take_eq_take_iff, List.length_drop]
      omega

/-- The file call answers with the slice that was asked for exactly when the condition on its range
holds. -/
lemma getBookBytes_eq_sliced_iff {bookId : ℤ} {book : Book}
    {file : Content} (hbook : library.getBook bookId = .ok (some book))
    (hfile : library.read book.path = .ok file) (offset length : Option UInt64) :
    getBookBytes library bookId offset length =
        .returned (.ok (sliced file.bytes offset length)) ↔
      FileRangeMeets file.bytes.length offset length := by
  rw [getBookBytes_eq hbook hfile, sliced_data]
  simp only [Call.returned.injEq, Except.ok.injEq, GetBookBytesResult.mk.injEq, and_true,
    Base64.encode_injective.eq_iff]
  cases offset with
  | none =>
    cases length with
    | none => simp [FileRangeMeets]
    | some length =>
      simp only [FileRangeMeets, Option.getD_none, UInt64.toNat_zero, List.drop_zero, Nat.zero_min,
        and_true]
      constructor
      · intro hwhole
        have hlength := congrArg List.length hwhole
        rw [List.length_take] at hlength
        omega
      · intro htotal
        rw [List.take_of_length_le htotal]
  | some offset =>
    cases length with
    | none =>
      simp only [FileRangeMeets, Option.getD_some]
      constructor
      · rintro ⟨hwhole, hoffset⟩
        have hlength := congrArg List.length hwhole
        rw [List.length_drop] at hlength
        omega
      · intro hzero
        simp [hzero]
    | some length =>
      simp only [FileRangeMeets, Option.getD_some, true_and]
      omega

/-- What the member call answers: the slice that was asked for, or a panic when the end of the
range leaves 64 bits, whether or not overflow is checked. -/
lemma getBookResource_eq {bookId : ℤ} {book : Book} {path : String} {member : Content}
    (hbook : library.getBook bookId = .ok (some book))
    (hepub : BookFormat.fromPath book.path = some .epub)
    (hmember : library.epubMember book.path path = .ok (some member))
    (offset length : Option UInt64) :
    (ResourceRangeMeets member.bytes.length offset length →
      getBookResource overflowChecks library bookId path offset length =
        .returned (.ok { toGetBookBytesResult := sliced member.bytes offset length
                         mediaType := guessMemberMediaType path })) ∧
    (¬ ResourceRangeMeets member.bytes.length offset length →
      getBookResource overflowChecks library bookId path offset length = .panicked) := by
  have hloaded : loadBookResource library bookId path =
      .ok (member, guessMemberMediaType path) := by
    simp [loadBookResource, epubBook, storedBook, hbook, hepub, hmember, bind, Except.bind]
  have hfits := member.fits
  unfold getBookResource
  simp only [hloaded]
  cases length with
  | none =>
    have hmeets : ResourceRangeMeets member.bytes.length offset none := by
      simp [ResourceRangeMeets]
    refine ⟨fun _ => ?_, fun hnot => absurd hmeets hnot⟩
    have hindex : index member.bytes (min (offset.getD 0).toNat member.bytes.length)
        member.bytes.length = some _ := if_pos ⟨Nat.min_le_right .., le_refl _⟩
    simp only [Option.bind_some, hindex, sliced]
  | some length =>
    simp only [ResourceRangeMeets, Option.mem_def, Option.some.injEq, forall_eq', not_lt]
    constructor
    · intro hlt
      have hindex : index member.bytes (min (offset.getD 0).toNat member.bytes.length)
          (min (min (offset.getD 0).toNat member.bytes.length + length.toNat)
            member.bytes.length) = some _ := if_pos (by omega)
      rw [clamped_stop] at hindex
      simp only [plainAdd, if_pos hlt, Option.map_some, Option.bind_some, clamped_stop, hindex,
        sliced]
    · intro hge
      have hlength := length.toNat_lt
      have hpast : index member.bytes (min (offset.getD 0).toNat member.bytes.length)
          (min ((min (offset.getD 0).toNat member.bytes.length + length.toNat) % 2 ^ 64)
            member.bytes.length) = none := if_neg (by omega)
      simp only [plainAdd, if_neg (Nat.not_lt.mpr hge)]
      cases overflowChecks with
      | true => simp
      | false => simp only [Bool.false_eq_true, if_false, Option.map_some, Option.bind_some, hpast]

lemma getBookResource_eq_sliced_iff {bookId : ℤ} {book : Book} {path : String} {member : Content}
    (hbook : library.getBook bookId = .ok (some book))
    (hepub : BookFormat.fromPath book.path = some .epub)
    (hmember : library.epubMember book.path path = .ok (some member))
    (offset length : Option UInt64) :
    (∃ mediaType, getBookResource overflowChecks library bookId path offset length =
        .returned (.ok { toGetBookBytesResult := sliced member.bytes offset length
                         mediaType := mediaType })) ↔
      ResourceRangeMeets member.bytes.length offset length := by
  have ⟨hmeets, hpanics⟩ := @getBookResource_eq overflowChecks library _ _ _ _ hbook hepub
    hmember offset length
  constructor
  · rintro ⟨mediaType, hreturned⟩
    by_contra hnot
    rw [hpanics hnot] at hreturned
    cases hreturned
  · intro h
    exact ⟨_, hmeets h⟩

/-- **When the two ranged reads slice alike.** The file call answers with the slice that was asked
for exactly when its range is complete and starts within the file, or what is missing makes no
difference; the member call does exactly when the end of its range is a number of 64 bits. -/
theorem rangedReads_iff (overflowChecks : Bool) (library : Library) (bookId : ℤ) (book : Book)
    (hbook : library.getBook bookId = .ok (some book)) (offset length : Option UInt64) :
    (∀ file, library.read book.path = .ok file →
      (getBookBytes library bookId offset length =
          .returned (.ok (sliced file.bytes offset length)) ↔
        FileRangeMeets file.bytes.length offset length)) ∧
    (∀ path member, BookFormat.fromPath book.path = some .epub →
      library.epubMember book.path path = .ok (some member) →
      ((∃ mediaType, getBookResource overflowChecks library bookId path offset length =
          .returned (.ok { toGetBookBytesResult := sliced member.bytes offset length
                           mediaType := mediaType })) ↔
        ResourceRangeMeets member.bytes.length offset length)) :=
  ⟨fun _ hfile => getBookBytes_eq_sliced_iff hbook hfile offset length,
    fun _ _ hepub hmember => getBookResource_eq_sliced_iff hbook hepub hmember offset length⟩

end Slices

/-! ## Where they part -/

/-- One EPUB of four bytes, with one member of three. -/
def oneBook : Library where
  getBook bookId := .ok (if bookId = 1 then some ⟨"/library/one.epub"⟩ else none)
  read _ := .ok ⟨[80, 75, 3, 4], by decide⟩
  epubMember _ path := .ok (if path = "a.css" then some ⟨[97, 123, 125], by decide⟩ else none)

/-- A range with both ends, within the file and the member, is served by both calls. -/
theorem rangedReads_oneBook :
    getBookBytes oneBook 1 (some 1) (some 2) =
        .returned (.ok (sliced [80, 75, 3, 4] (some 1) (some 2))) ∧
      ∃ mediaType, getBookResource true oneBook 1 "a.css" (some 1) (some 2) =
        .returned (.ok { toGetBookBytesResult := sliced [97, 123, 125] (some 1) (some 2)
                         mediaType := mediaType }) := by
  have hboth := rangedReads_iff true oneBook 1 ⟨"/library/one.epub"⟩ rfl (some 1) (some 2)
  constructor
  · exact (hboth.1 ⟨[80, 75, 3, 4], by decide⟩ rfl).2 (show (1 : UInt64).toNat ≤ 4 by decide)
  · refine (hboth.2 "a.css" ⟨[97, 123, 125], by decide⟩ (by decide +kernel) rfl).2 ?_
    rintro len ⟨⟩
    decide

/-- A length without an offset is ignored by the file call, which answers with all four bytes where
two were asked for; and a length close to the largest number stops the member call, in a build of
either kind. -/
theorem rangedReads_part :
    getBookBytes oneBook 1 none (some 2) ≠
        .returned (.ok (sliced [80, 75, 3, 4] none (some 2))) ∧
      ∀ overflowChecks, getBookResource overflowChecks oneBook 1 "a.css" (some 1)
        (some 18446744073709551615) = .panicked := by
  constructor
  · decide +kernel
  · intro overflowChecks
    cases overflowChecks <;> decide +kernel

end BookFiles

end TuxBooks
