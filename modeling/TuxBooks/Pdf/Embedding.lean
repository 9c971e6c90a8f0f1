import Mathlib.Order.Lattice.Nat
import TuxBooks.Epub.Archive
import TuxBooks.Lib.Fallible
import TuxBooks.Pdf.Objects

set_option relaxedAutoImplicit false
set_option autoImplicit false

/-!
# Metadata in a PDF

Reading the information dictionary of a PDF, in `sidecar/src/pdf/parser.rs`, and writing the
metadata of a form into it, in `sidecar/src/pdf/writer.rs`. The dictionary that is written is a new
object; the one before it stays in the document.

## Main definitions

* `TuxBooks.PdfFile.parsePdfBytes`, `TuxBooks.PdfFile.rewritePdfBytes` — reading and writing a file.
* `TuxBooks.PdfFile.Embedded` — what a rewriting does to a document.

## Main results

* `TuxBooks.PdfFile.rewritePdfBytes_embedded` — what a rewritten file is loaded as.
* `TuxBooks.PdfFile.parse_rewritten` — what is read from it.
* `TuxBooks.PdfFile.rewritten` — both, and what a second rewriting adds.
* `TuxBooks.PdfFile.card_rewrites` — every rewriting adds one object.
-/

namespace TuxBooks

namespace PdfFile

/-! ## Quotas -/

/-- The quotas on a PDF. -/
structure PdfLimits where
  maxSourceFileBytes : ℕ
  maxStreamDecompressedBytes : ℕ
  maxMetadataStringBytes : ℕ
  maxPages : ℕ
  maxPageTreeNodes : ℕ
  maxPageTreeDepth : ℕ

inductive PdfError where
  | parse (message : String)
  | limit (exceeded : LimitExceeded)

namespace PdfLimits

/-- The documented baseline. -/
def defaults : PdfLimits where
  maxSourceFileBytes := 2 ^ 30
  maxStreamDecompressedBytes := 512 * 2 ^ 20
  maxMetadataStringBytes := 2 ^ 20
  maxPages := 100000
  maxPageTreeNodes := 1000000
  maxPageTreeDepth := 128

/-- A count within a quota. -/
def within (limit unit : String) (quota count : ℕ) : Except PdfError Unit :=
  if count ≤ quota then .ok () else .error (.limit ⟨limit, s!"{count} {unit}"⟩)

variable (limits : PdfLimits)

def checkSourceFile (bytes : ℕ) : Except PdfError Unit :=
  within "max_source_file_bytes" "bytes" limits.maxSourceFileBytes bytes

def checkMetadataString (value : String) : Except PdfError Unit :=
  within "max_metadata_string_bytes" "bytes" limits.maxMetadataStringBytes value.utf8ByteSize

def checkPages (count : ℕ) : Except PdfError Unit :=
  within "max_pages" "pages" limits.maxPages count

def checkPageTreeNode (visited : ℕ) : Except PdfError Unit :=
  within "max_page_tree_nodes" "nodes" limits.maxPageTreeNodes visited

def checkPageTreeDepth (depth : ℕ) : Except PdfError Unit :=
  if depth ≤ limits.maxPageTreeDepth then .ok ()
  else .error (.limit ⟨"max_page_tree_depth", s!"depth {depth}"⟩)

variable {limits}

lemma le_of_checkPageTreeNode {visited : ℕ} (h : limits.checkPageTreeNode visited = .ok ()) :
    visited ≤ limits.maxPageTreeNodes := by
  rw [checkPageTreeNode, within] at h
  split_ifs at h with hle
  exact hle

end PdfLimits

def loadError {α : Type} : Except LopdfError α → Except PdfError α
  | .ok value => .ok value
  | .error (.memoryLimitExceeded limit) => .error (.limit ⟨"max_stream_decompressed_bytes",
      s!"a document stream inflates past the {limit} byte load cap"⟩)
  | .error (.other message) => .error (.parse message)

def saveError {α : Type} : Except String α → Except PdfError α
  | .ok value => .ok value
  | .error message => .error (.parse message)

/-- The check of the deadline. -/
def expired : Except LimitExceeded Unit → Except PdfError Unit
  | .ok () => .ok ()
  | .error exceeded => .error (.limit exceeded)

/-! ## Reading -/

/-- Bibliographic metadata of the information dictionary. -/
structure PdfMetadata where
  title : String
  author : Option String
  description : Option String

section Read

variable {File : Type} (lib : Lopdf File) (limits : PdfLimits)
  (deadline : ℕ → Except LimitExceeded Unit) (doc : Document)

/-- Follow one reference. -/
def resolve : Object → Option Object
  | .reference id => lib.getObject doc id
  | object => some object

def infoDict : Option Dictionary :=
  ((doc.trailer.get INFO).bind (resolve lib doc)).bind Object.asDict

/-- The children of a node of the page tree. -/
def kids (dict : Dictionary) (depth : ℕ) : List (Dictionary × ℕ) :=
  match (dict.get (ascii "Kids")).bind Object.asArray with
  | some items =>
    (items.filterMap fun kid => (resolve lib doc kid).bind Object.asDict).map (·, depth + 1)
  | none => []

/-- The walk over the page tree, from the nodes on the stack. -/
def walk (visited pages : ℕ) : List (Dictionary × ℕ) → Except PdfError ℕ
  | [] => .ok pages
  | (dict, depth) :: stack =>
    match hvisited : limits.checkPageTreeNode (visited + 1) with
    | .error error => .error error
    | .ok () => do
      limits.checkPageTreeDepth depth
      if (dict.get (ascii "Type")).bind Object.asName = some (ascii "Page") then
        limits.checkPages (pages + 1)
        walk (visited + 1) (pages + 1) stack
      else
        let stack := (kids lib doc dict depth).reverse ++ stack
        limits.checkPageTreeNode (visited + 1 + stack.length)
        walk (visited + 1) pages stack
  termination_by limits.maxPageTreeNodes - visited
  decreasing_by
    all_goals
      have hle := PdfLimits.le_of_checkPageTreeNode hvisited
      omega

def countPagesBounded : Except PdfError ℕ :=
  match ((doc.trailer.get ROOT).bind (resolve lib doc)).bind Object.asDict with
  | none => .error (.parse "missing document catalog")
  | some catalog =>
    match ((catalog.get (ascii "Pages")).bind (resolve lib doc)).bind Object.asDict with
    | none => .ok 0
    | some root => walk lib limits doc 0 0 [(root, 1)]

/-- A text within its quota. -/
def checked (value : Option String) : Except PdfError (Option String) :=
  match value with
  | some value => do
    limits.checkMetadataString value
    return some value
  | none => return none

/-- The text of an entry. -/
def entryText (key : List UInt8) : Option String :=
  (((((infoDict lib doc).bind (Dictionary.get · key)).bind (resolve lib doc)).bind
    Object.asStr).map decodePdfString).filter (· ≠ "")

def read (key : List UInt8) : Except PdfError (Option String) :=
  checked limits (entryText lib doc key)

def parsePdfBytes (file : File) : Except PdfError PdfMetadata := do
  limits.checkSourceFile (lib.len file)
  expired (deadline 0)
  let doc ← loadError (lib.load limits.maxStreamDecompressedBytes file)
  expired (deadline 1)
  let _ ← countPagesBounded lib limits doc
  expired (deadline 2)
  let title ← read lib limits doc (ascii "Title")
  let author ← read lib limits doc (ascii "Author")
  let description ← read lib limits doc (ascii "Subject")
  return { title := title.getD "", author, description }

end Read

/-! ## Writing -/

def nonEmpty (value : Option String) : Option String := (value.map trim).filter (· ≠ "")

def setRequired (info : Dictionary) (key : List UInt8) (value : String) : Dictionary :=
  info.set key (pdfString value)

/-- An entry that is removed when there is nothing to write. -/
def setOptional (info : Dictionary) (key : List UInt8) (value : Option String) : Dictionary :=
  match nonEmpty value with
  | some value => setRequired info key value
  | none => info.remove key

/-- The information dictionary of a form. -/
def embed (info : Dictionary) (metadata : PdfMetadata) : Dictionary :=
  setOptional (setOptional (setRequired info (ascii "Title") metadata.title)
    (ascii "Author") metadata.author) (ascii "Subject") metadata.description

section Write

variable {File : Type} (lib : Lopdf File) (limits : PdfLimits)

def existingInfo (doc : Document) : Option Dictionary := do
  let info ← doc.trailer.get INFO
  let object ← match info with
    | .reference id => lib.getObject doc id
    | other => some other
  object.asDict

def rewritePdfBytes (file : File) (metadata : PdfMetadata) : Except PdfError File := do
  limits.checkSourceFile (lib.len file)
  let document ← loadError (lib.load limits.maxStreamDecompressedBytes file)
  let info := embed ((existingInfo lib document).getD []) metadata
  let added := lib.addObject document (.dictionary info)
  saveError (lib.save { added.1 with trailer := added.1.trailer.set INFO (.reference added.2) })

end Write

/-! ## The entries of a form -/

/-- The keys that a form writes. -/
def managed : List (List UInt8) := [ascii "Title", ascii "Author", ascii "Subject"]

section Entries

variable {info : Dictionary} {key other : List UInt8} {value : Option String}
  {metadata : PdfMetadata}

lemma get_setOptional_self :
    (setOptional info key value).get key = (nonEmpty value).map pdfString := by
  rw [setOptional]
  cases nonEmpty value with
  | none => exact Dictionary.get_remove_self
  | some text => exact Dictionary.get_set_self

lemma get_setOptional_of_ne (hne : other ≠ key) :
    (setOptional info key value).get other = info.get other := by
  rw [setOptional]
  cases nonEmpty value with
  | none => exact Dictionary.get_remove_of_ne hne
  | some text => exact Dictionary.get_set_of_ne hne

/-- An entry that is written again. -/
lemma setOptional_eq_self (h : info.get key = (nonEmpty value).map pdfString) :
    setOptional info key value = info := by
  rw [setOptional]
  cases hvalue : nonEmpty value with
  | none =>
    rw [hvalue] at h
    exact Dictionary.remove_eq_self h
  | some text =>
    rw [hvalue] at h
    exact Dictionary.set_eq_self h

lemma get_embed_title :
    (embed info metadata).get (ascii "Title") = some (pdfString metadata.title) := by
  rw [embed, get_setOptional_of_ne (by decide), get_setOptional_of_ne (by decide), setRequired,
    Dictionary.get_set_self]

lemma get_embed_author :
    (embed info metadata).get (ascii "Author") = (nonEmpty metadata.author).map pdfString := by
  rw [embed, get_setOptional_of_ne (by decide), get_setOptional_self]

lemma get_embed_subject :
    (embed info metadata).get (ascii "Subject") =
      (nonEmpty metadata.description).map pdfString := by
  rw [embed, get_setOptional_self]

/-- Other entries are kept. -/
lemma get_embed_of_notMem (h : key ∉ managed) :
    (embed info metadata).get key = info.get key := by
  simp only [managed, List.mem_cons, List.not_mem_nil, or_false, not_or] at h
  obtain ⟨htitle, hauthor, hsubject⟩ := h
  rw [embed, get_setOptional_of_ne hsubject, get_setOptional_of_ne hauthor, setRequired,
    Dictionary.get_set_of_ne htitle]

/-- **A form that is written again changes no entry.** -/
theorem embed_embed : embed (embed info metadata) metadata = embed info metadata := by
  have htitle : setRequired (embed info metadata) (ascii "Title") metadata.title =
      embed info metadata := Dictionary.set_eq_self get_embed_title
  have hauthor : setOptional (embed info metadata) (ascii "Author") metadata.author =
      embed info metadata := setOptional_eq_self get_embed_author
  have hsubject : setOptional (embed info metadata) (ascii "Subject") metadata.description =
      embed info metadata := setOptional_eq_self get_embed_subject
  conv_lhs => rw [embed]
  rw [htitle, hauthor, hsubject]

end Entries

/-! ## What a rewriting does -/

section Rewriting

variable {File : Type} {lib : Lopdf File} {limits : PdfLimits} {doc doc' doc'' : Document}
  {file file' : File} {metadata : PdfMetadata}

lemma eq_ok_of_saveError {α : Type} {result : Except String α} {value : α}
    (h : saveError result = .ok value) : result = .ok value := by
  cases result with
  | error message => cases h
  | ok value => exact congrArg Except.ok (Except.ok.inj h)

lemma existingInfo_eq : existingInfo lib doc = infoDict lib doc := by
  rw [existingInfo, infoDict]
  cases doc.trailer.get INFO with
  | none => rfl
  | some info => cases info <;> rfl

variable (lib) in
/-- The information dictionary is a new object, and nothing else is. -/
def AddsInfo (doc doc' : Document) : Prop :=
  ∃ id entries, id ∉ doc.objects ∧ infoDict lib doc' = some entries ∧
    doc'.objects = doc.objects.insert id (.dictionary entries)

/-- Every object is kept. -/
lemma AddsInfo.lookup (h : AddsInfo lib doc doc') {id : ObjectId} {object : Object}
    (hobject : doc.objects.lookup id = some object) : doc'.objects.lookup id = some object := by
  obtain ⟨new, entries, hnew, -, hobjects⟩ := h
  have hne : id ≠ new := by
    rintro rfl
    exact hnew (Finmap.mem_of_lookup_eq_some hobject)
  rw [hobjects, Finmap.lookup_insert_of_ne _ hne, hobject]

/-- There is one object more. -/
lemma AddsInfo.card (h : AddsInfo lib doc doc') :
    doc'.objects.keys.card = doc.objects.keys.card + 1 := by
  obtain ⟨new, entries, hnew, -, hobjects⟩ := h
  have hkeys : doc'.objects.keys = insert new doc.objects.keys := by
    ext id
    rw [hobjects, Finset.mem_insert, Finmap.mem_keys, Finmap.mem_keys, Finmap.mem_insert]
  rw [hkeys, Finset.card_insert_of_notMem (mt Finmap.mem_keys.mp hnew)]

variable (lib metadata) in
/-- What a rewriting does to a document. -/
structure Embedded (doc doc' : Document) : Prop where
  info : infoDict lib doc' = some (embed ((infoDict lib doc).getD []) metadata)
  added : AddsInfo lib doc doc'
  root : doc'.trailer.get ROOT = doc.trailer.get ROOT

/-- What a rewritten file is loaded as. -/
theorem rewritePdfBytes_embedded (hlib : lib.Faithful limits.maxStreamDecompressedBytes)
    (hload : lib.load limits.maxStreamDecompressedBytes file = .ok doc)
    (hrewrite : rewritePdfBytes lib limits file metadata = .ok file') :
    ∃ doc', lib.load limits.maxStreamDecompressedBytes file' = .ok doc' ∧
      Embedded lib metadata doc doc' := by
  simp only [rewritePdfBytes, existingInfo_eq] at hrewrite
  obtain ⟨-, -, hrewrite⟩ := Fallible.bind_eq_ok hrewrite
  obtain ⟨document, hdocument, hrewrite⟩ := Fallible.bind_eq_ok hrewrite
  rw [hload] at hdocument
  cases hdocument
  obtain ⟨doc', hload', hobjects, hinfo, hroot⟩ := hlib.saved _ _ (eq_ok_of_saveError hrewrite)
  rw [hlib.added_objects] at hobjects
  rw [Dictionary.get_set_self] at hinfo
  rw [Dictionary.get_set_of_ne (by decide), hlib.added_trailer] at hroot
  have hdict : infoDict lib doc' = some (embed ((infoDict lib doc).getD []) metadata) := by
    rw [infoDict, hinfo, Option.bind_some, resolve,
      hlib.found doc' _ _ (by rw [hobjects, Finmap.lookup_insert])]
    rfl
  exact ⟨doc', hload', hdict, ⟨_, _, hlib.added_new _ _, hdict, hobjects⟩, hroot⟩

/-- Entries that the form does not write are kept. -/
lemma Embedded.entry (h : Embedded lib metadata doc doc') {key : List UInt8}
    (hkey : key ∉ managed) :
    (infoDict lib doc').bind (Dictionary.get · key) =
      (infoDict lib doc).bind (Dictionary.get · key) := by
  rw [h.info, Option.bind_some, get_embed_of_notMem hkey]
  cases infoDict lib doc <;> rfl

/-- The same form again writes the same entries. -/
lemma Embedded.again (h : Embedded lib metadata doc doc') (h' : Embedded lib metadata doc' doc'') :
    infoDict lib doc'' = infoDict lib doc' := by
  rw [h'.info, h.info, Option.getD_some, embed_embed]

/-! ## What is read -/

/-- The fields of a form as they are read back. -/
def trimmed (metadata : PdfMetadata) : PdfMetadata :=
  { title := trim metadata.title
    author := nonEmpty metadata.author
    description := nonEmpty metadata.description }

variable (lib limits) in
/-- The checks of the parser on a rewritten file. -/
def admission (deadline : ℕ → Except LimitExceeded Unit) (file : File) (doc : Document)
    (metadata : PdfMetadata) : Except PdfError Unit := do
  limits.checkSourceFile (lib.len file)
  expired (deadline 0)
  expired (deadline 1)
  let _ ← countPagesBounded lib limits doc
  expired (deadline 2)
  let _ ← checked limits (nonEmpty (some metadata.title))
  let _ ← checked limits (nonEmpty metadata.author)
  let _ ← checked limits (nonEmpty metadata.description)
  return ()

lemma resolve_pdfString (value : String) :
    resolve lib doc (pdfString value) = some (pdfString value) := by
  rw [pdfString]
  split_ifs <;> rfl

/-- The text of an entry that the form writes. -/
lemma entryText_eq {info : Dictionary} {key : List UInt8} {value : Option String}
    (hinfo : infoDict lib doc = some info) (hentry : info.get key = value.map pdfString) :
    entryText lib doc key = nonEmpty value := by
  rw [entryText, hinfo, Option.bind_some, hentry]
  cases value with
  | none => rfl
  | some text =>
    rw [Option.map_some, Option.bind_some, resolve_pdfString, Option.bind_some,
      decodePdfString_pdfString]
    rfl

lemma nonEmpty_nonEmpty (value : Option String) : nonEmpty (nonEmpty value) = nonEmpty value := by
  cases value with
  | none => rfl
  | some text =>
    by_cases h : trim text = ""
    · simp [nonEmpty, h, Option.filter]
    · simp [nonEmpty, h, Option.filter, trim_trim]

/-- A check passes its text on. -/
lemma checked_bind {α : Type} (value : Option String) (next : Option String → Except PdfError α) :
    (checked limits value >>= next) = (checked limits value >>= fun _ => next value) := by
  cases value with
  | none => rfl
  | some text =>
    rw [checked]
    cases limits.checkMetadataString text <;> rfl

/-- **What is read from a rewritten file**, when the parser admits it. -/
theorem parse_rewritten (h : Embedded lib metadata doc doc')
    (hload : lib.load limits.maxStreamDecompressedBytes file' = .ok doc')
    (deadline : ℕ → Except LimitExceeded Unit) :
    parsePdfBytes lib limits deadline file' =
      (fun _ => trimmed metadata) <$> admission lib limits deadline file' doc' metadata := by
  have htitle : entryText lib doc' (ascii "Title") = nonEmpty (some metadata.title) :=
    entryText_eq h.info get_embed_title
  have hauthor : entryText lib doc' (ascii "Author") = nonEmpty metadata.author := by
    rw [entryText_eq h.info get_embed_author, nonEmpty_nonEmpty]
  have hsubject : entryText lib doc' (ascii "Subject") = nonEmpty metadata.description := by
    rw [entryText_eq h.info get_embed_subject, nonEmpty_nonEmpty]
  have hblank : (nonEmpty (some metadata.title)).getD "" = trim metadata.title := by
    by_cases hempty : trim metadata.title = ""
    · simp [nonEmpty, hempty, Option.filter]
    · simp [nonEmpty, hempty, Option.filter]
  have hdoc : ∀ next : Document → Except PdfError PdfMetadata,
      (loadError (.ok doc') >>= next) = next doc' := fun _ => rfl
  rw [parsePdfBytes, admission, hload]
  simp only [hdoc, map_bind, map_pure, read, htitle, hauthor, hsubject]
  apply bind_congr; intro _
  apply bind_congr; intro _
  apply bind_congr; intro _
  apply bind_congr; intro _
  apply bind_congr; intro _
  rw [checked_bind]
  apply bind_congr; intro _
  rw [checked_bind]
  apply bind_congr; intro _
  rw [checked_bind]
  apply bind_congr; intro _
  rw [hblank, trimmed]

/-- **Rewriting a file**: the form is read back, other entries and objects are kept, and the same
form again adds one more object with the entries there are. -/
theorem rewritten (hlib : lib.Faithful limits.maxStreamDecompressedBytes)
    (hload : lib.load limits.maxStreamDecompressedBytes file = .ok doc)
    (hrewrite : rewritePdfBytes lib limits file metadata = .ok file') :
    ∃ doc', lib.load limits.maxStreamDecompressedBytes file' = .ok doc' ∧
      (∀ deadline, parsePdfBytes lib limits deadline file' =
        (fun _ => trimmed metadata) <$> admission lib limits deadline file' doc' metadata) ∧
      (∀ key, key ∉ managed → (infoDict lib doc').bind (Dictionary.get · key) =
        (infoDict lib doc).bind (Dictionary.get · key)) ∧
      (∀ id object, doc.objects.lookup id = some object →
        doc'.objects.lookup id = some object) ∧
      AddsInfo lib doc doc' ∧
      ∀ file'', rewritePdfBytes lib limits file' metadata = .ok file'' →
        ∃ doc'', lib.load limits.maxStreamDecompressedBytes file'' = .ok doc'' ∧
          infoDict lib doc'' = infoDict lib doc' ∧ AddsInfo lib doc' doc'' ∧
          doc''.objects.keys.card = doc'.objects.keys.card + 1 := by
  obtain ⟨doc', hload', h⟩ := rewritePdfBytes_embedded hlib hload hrewrite
  refine ⟨doc', hload', parse_rewritten h hload', fun key hkey => h.entry hkey,
    fun id object hobject => h.added.lookup hobject, h.added, ?_⟩
  intro file'' hagain
  obtain ⟨doc'', hload'', h'⟩ := rewritePdfBytes_embedded hlib hload' hagain
  exact ⟨doc'', hload'', h.again h', h'.added, h'.added.card⟩

/-! ## Rewriting again and again -/

variable (lib limits metadata) in
/-- The file after some rewritings with one form. -/
def rewrites : ℕ → File → Except PdfError File
  | 0, file => .ok file
  | n + 1, file => do
    let file ← rewritePdfBytes lib limits file metadata
    rewrites n file

/-- **Every rewriting adds one object.** -/
theorem card_rewrites (hlib : lib.Faithful limits.maxStreamDecompressedBytes) {n : ℕ}
    (hload : lib.load limits.maxStreamDecompressedBytes file = .ok doc)
    (hrewrites : rewrites lib limits metadata n file = .ok file') :
    ∃ doc', lib.load limits.maxStreamDecompressedBytes file' = .ok doc' ∧
      doc'.objects.keys.card = doc.objects.keys.card + n := by
  induction n generalizing file doc with
  | zero =>
    cases hrewrites
    exact ⟨doc, hload, rfl⟩
  | succ n ih =>
    obtain ⟨next, hnext, hrest⟩ := Fallible.bind_eq_ok hrewrites
    obtain ⟨doc₁, hload₁, h⟩ := rewritePdfBytes_embedded hlib hload hnext
    obtain ⟨doc', hload', hcard⟩ := ih hload₁ hrest
    refine ⟨doc', hload', ?_⟩
    have hone := h.added.card
    omega

end Rewriting

/-! ## A library in memory -/

/-- A library whose files are the documents, with new objects under the next number. -/
def memory : Lopdf Document where
  len doc := doc.objects.keys.card
  load _ doc := .ok doc
  save doc := .ok doc
  getObject doc id := doc.objects.lookup id
  addObject doc object :=
    let id := (doc.objects.keys.sup Prod.fst + 1, 0)
    ({ doc with objects := doc.objects.insert id object }, id)

lemma memory_faithful (cap : ℕ) : memory.Faithful cap where
  found _ _ _ h := h
  added_new doc object := by
    intro hmem
    have hle := Finset.le_sup (f := Prod.fst) (Finmap.mem_keys.mpr hmem)
    simp only [memory] at hle
    omega
  added_objects _ _ := rfl
  added_trailer _ _ := rfl
  saved doc file h := by
    cases h
    exact ⟨doc, rfl, rfl, rfl, rfl⟩

/-- A document with a catalog and nothing else. -/
def plain : Document where
  trailer := [(ROOT, .reference (1, 0))]
  objects := (∅ : Finmap fun _ : ObjectId => Object).insert (1, 0) (.dictionary [])

def dune : PdfMetadata := { title := " Dune ", author := some "Frank Herbert", description := none }

/-- The document after a form is written into it. -/
def plainWith (metadata : PdfMetadata) : Document where
  trailer := [(ROOT, .reference (1, 0)), (INFO, .reference (2, 0))]
  objects := plain.objects.insert (2, 0) (.dictionary (embed [] metadata))

lemma rewrite_plain (metadata : PdfMetadata) :
    rewritePdfBytes memory .defaults plain metadata = .ok (plainWith metadata) := by
  rfl

lemma admission_plain {metadata : PdfMetadata} {deadline : ℕ → Except LimitExceeded Unit}
    (hdeadline : ∀ n, deadline n = .ok ()) :
    admission memory .defaults deadline (plainWith metadata) (plainWith metadata) metadata = do
      let _ ← checked .defaults (nonEmpty (some metadata.title))
      let _ ← checked .defaults (nonEmpty metadata.author)
      let _ ← checked .defaults (nonEmpty metadata.description)
      return () := by
  have hpages : countPagesBounded memory .defaults (plainWith metadata) = .ok 0 := rfl
  have hsource : PdfLimits.defaults.checkSourceFile (memory.len (plainWith metadata)) = .ok () :=
    rfl
  rw [admission, hdeadline, hdeadline, hdeadline, hpages, hsource]
  rfl

/-- The form is read back without the blanks around its title. -/
theorem rewritten_plain : ∃ file', rewritePdfBytes memory .defaults plain dune = .ok file' ∧
    parsePdfBytes memory .defaults (fun _ => .ok ()) file' = .ok
      { title := "Dune", author := some "Frank Herbert", description := none } := by
  obtain ⟨doc', hload, hparse, -⟩ :=
    rewritten (memory_faithful _) (rfl : memory.load _ plain = .ok plain) (rewrite_plain dune)
  cases hload
  refine ⟨_, rewrite_plain dune, ?_⟩
  rw [hparse, admission_plain fun _ => rfl]
  rfl

/-- A long text. -/
def xs (n : ℕ) : String := String.ofList (List.replicate n 'x')

lemma trim_xs (n : ℕ) : trim (xs n) = xs n := by
  have hblank : (List.replicate n 'x').dropWhile isWhite = List.replicate n 'x' := by
    cases n <;> rfl
  rw [trim, xs, String.toList_ofList, hblank, List.reverse_replicate, hblank,
    List.reverse_replicate]

lemma utf8ByteSize_xs (n : ℕ) : (xs n).utf8ByteSize = n := by
  induction n with
  | zero => rfl
  | succ n ih =>
    have hcons : xs (n + 1) = String.singleton 'x' ++ xs n := by
      rw [xs, xs, List.replicate_succ, String.ofList_cons]
    rw [hcons, String.utf8ByteSize_append, ih, Nat.add_comm]
    rfl

/-- A form whose title is beyond the quota on texts. -/
def longTitle : PdfMetadata :=
  { title := xs (PdfLimits.defaults.maxMetadataStringBytes + 1), author := none,
    description := none }

lemma checked_longTitle : ∃ error,
    checked .defaults (nonEmpty (some longTitle.title)) = .error error := by
  have hne : xs (PdfLimits.defaults.maxMetadataStringBytes + 1) ≠ "" := by
    intro hempty
    have hsize := utf8ByteSize_xs (PdfLimits.defaults.maxMetadataStringBytes + 1)
    rw [hempty] at hsize
    cases hsize
  have htext : nonEmpty (some longTitle.title) = some longTitle.title := by
    simp [nonEmpty, longTitle, trim_xs, hne]
  have hrefused : ∃ error,
      PdfLimits.defaults.checkMetadataString longTitle.title = .error error := by
    rw [PdfLimits.checkMetadataString, PdfLimits.within, longTitle, utf8ByteSize_xs,
      if_neg (Nat.not_succ_le_self _)]
    exact ⟨_, rfl⟩
  obtain ⟨error, herror⟩ := hrefused
  rw [htext, checked, herror]
  exact ⟨error, rfl⟩

/-- The same form again adds an object, and a long title is written that cannot be read back. -/
theorem not_rewritten_plain :
    (∃ file' file'', rewritePdfBytes memory .defaults plain dune = .ok file' ∧
      rewritePdfBytes memory .defaults file' dune = .ok file'' ∧
      file''.objects.keys.card ≠ file'.objects.keys.card) ∧
    ∃ file', rewritePdfBytes memory .defaults plain longTitle = .ok file' ∧
      ∀ book, parsePdfBytes memory .defaults (fun _ => .ok ()) file' ≠ .ok book := by
  constructor
  · refine ⟨_, _, rewrite_plain dune, rfl, ?_⟩
    decide
  · refine ⟨_, rewrite_plain longTitle, ?_⟩
    intro book hbook
    obtain ⟨doc', hload, h⟩ :=
      rewritePdfBytes_embedded (memory_faithful _) (rfl : memory.load _ plain = .ok plain)
        (rewrite_plain longTitle)
    cases hload
    obtain ⟨error, hchecked⟩ := checked_longTitle
    rw [parse_rewritten h rfl, admission_plain fun _ => rfl, hchecked] at hbook
    cases hbook

end PdfFile

end TuxBooks
