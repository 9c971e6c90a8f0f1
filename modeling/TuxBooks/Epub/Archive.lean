import Mathlib.Algebra.Group.Nat.Defs
import Mathlib.Data.List.Basic
import Mathlib.Tactic.Common

set_option relaxedAutoImplicit false
set_option autoImplicit false

/-!
# Reading members of an archive within the limits

An archive as the list of its entries, the quota checks made before and while one is read, and
the lookup of a member by its name.

## Main definitions

* `TuxBooks.ResourceLimits` — the quotas that reading an archive consults.
* `TuxBooks.Epub.EpubError` — what opening a publication can fail with.
* `TuxBooks.Epub.checkArchiveTotals`, `TuxBooks.Epub.readEntry` — the scan and the lookup.
-/

namespace TuxBooks

/-- A tripped quota. -/
structure LimitExceeded where
  limit : String
  detail : String
  deriving DecidableEq

/-- The quotas on archives. -/
structure ResourceLimits where
  maxEntries : ℕ
  maxCompressedMemberBytes : ℕ
  maxDecompressedBytes : ℕ
  maxTotalUncompressedBytes : ℕ

namespace ResourceLimits

/-- The documented baseline. -/
def defaults : ResourceLimits where
  maxEntries := 100000
  maxCompressedMemberBytes := 256 * 2 ^ 20
  maxDecompressedBytes := 512 * 2 ^ 20
  maxTotalUncompressedBytes := 2 * 2 ^ 30

def checkEntries (limits : ResourceLimits) (count : ℕ) : Except LimitExceeded Unit :=
  if count ≤ limits.maxEntries then .ok () else .error ⟨"max_entries", s!"{count} entries"⟩

def checkMember (limits : ResourceLimits) (compressed declaredUncompressed : ℕ) :
    Except LimitExceeded Unit :=
  if compressed > limits.maxCompressedMemberBytes then
    .error ⟨"max_compressed_member_bytes", s!"{compressed} bytes"⟩
  else if declaredUncompressed > limits.maxDecompressedBytes then
    .error ⟨"max_decompressed_bytes", s!"{declaredUncompressed} bytes declared"⟩
  else .ok ()

def checkTotalUncompressed (limits : ResourceLimits) (total : ℕ) : Except LimitExceeded Unit :=
  if total ≤ limits.maxTotalUncompressedBytes then .ok ()
  else .error ⟨"max_total_uncompressed_bytes", s!"{total} bytes"⟩

end ResourceLimits

namespace Epub

/-- What opening a publication and reading its members can fail with. -/
inductive EpubError where
  | io
  | brokenSpine (idref : String)
  | externalRef (what : String)
  | invalidMemberPath (path : String)
  | limit (exceeded : LimitExceeded)
  deriving DecidableEq

/-- A tripped quota as a failure to open. -/
def limited {α : Type} : Except LimitExceeded α → Except EpubError α
  | .ok value => .ok value
  | .error exceeded => .error (.limit exceeded)

/-- An entry of an archive. Its name may fail to decode, and reading its bytes may fail. -/
structure ZipEntry where
  name : Option String
  isDir : Bool
  compressedSize : ℕ
  size : ℕ
  data : Option (List UInt8)
  deriving DecidableEq

/-- The entries of an archive, in the order of its directory. -/
abbrev ZipArchive := List ZipEntry

/-- Addition that stops at the largest value of 64 bits. -/
def saturatingAdd (a b : ℕ) : ℕ := min (a + b) (2 ^ 64 - 1)

/-- Entry count and the sum of the declared sizes, before any member is decompressed. -/
def checkArchiveTotals (zip : ZipArchive) (limits : ResourceLimits) : Except EpubError Unit := do
  limited (limits.checkEntries zip.length)
  let total := zip.foldl
    (fun total entry => if entry.isDir then total else saturatingAdd total entry.size) 0
  limited (limits.checkTotalUncompressed total)

/-- Read to the end with a cap on the delivered bytes. -/
def readBounded (data : Option (List UInt8)) (maxBytes : ℕ) : Except EpubError (List UInt8) :=
  match data with
  | none => .error .io
  | some bytes =>
    if bytes.length > maxBytes then
      .error (.limit ⟨"max_decompressed_bytes", s!"stream exceeded {maxBytes} bytes"⟩)
    else .ok bytes

/-- The first file of that name. -/
def readEntry (zip : ZipArchive) (name : String) (limits : ResourceLimits) :
    Except EpubError (Option (List UInt8)) :=
  match zip.find? fun entry => !entry.isDir && entry.name == some name with
  | none => .ok none
  | some file => do
    limited (limits.checkMember file.compressedSize file.size)
    let data ← readBounded file.data limits.maxDecompressedBytes
    return some data

/-- Some file of the archive has that name. -/
def HasMember (zip : ZipArchive) (name : String) : Prop :=
  ∃ entry ∈ zip, entry.isDir = false ∧ entry.name = some name

end Epub

end TuxBooks
