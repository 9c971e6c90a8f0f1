import Mathlib.Data.Finmap
import TuxBooks.Catalog.Metadata
import TuxBooks.Lib.Utf16

set_option relaxedAutoImplicit false
set_option autoImplicit false

/-!
# The objects of a PDF

What `sidecar/src/pdf` uses of the library that loads and saves PDFs, and the two forms in which
the text of a field is written: the bytes of an ASCII text, or UTF-16 after a mark of two bytes.

## Main definitions

* `TuxBooks.PdfFile.Object`, `TuxBooks.PdfFile.Document` — a document.
* `TuxBooks.PdfFile.Lopdf`, `TuxBooks.PdfFile.Lopdf.Faithful` — the library, and what is expected
  of it.
* `TuxBooks.PdfFile.pdfString`, `TuxBooks.PdfFile.decodePdfString` — a text as a string object, and
  back.

## Main results

* `TuxBooks.PdfFile.decodePdfString_pdfString` — every text is read back, trimmed.
-/

namespace TuxBooks

namespace PdfFile

/-! ## Documents -/

/-- A number and a generation. -/
abbrev ObjectId := ℕ × ℕ

inductive StringFormat where
  | literal
  | hexadecimal

inductive Object where
  | null
  | boolean (value : Bool)
  | integer (value : ℤ)
  | real (value : ℚ)
  | name (bytes : List UInt8)
  | string (bytes : List UInt8) (format : StringFormat)
  | array (items : List Object)
  | dictionary (entries : List (List UInt8 × Object))
  | stream (entries : List (List UInt8 × Object)) (content : List UInt8)
  | reference (id : ObjectId)

/-- The entries of a dictionary, under their keys. -/
abbrev Dictionary := List (List UInt8 × Object)

namespace Object

def asDict : Object → Option Dictionary
  | .dictionary entries => some entries
  | _ => none

def asStr : Object → Option (List UInt8)
  | .string bytes _ => some bytes
  | _ => none

def asName : Object → Option (List UInt8)
  | .name bytes => some bytes
  | _ => none

def asArray : Object → Option (List Object)
  | .array items => some items
  | _ => none

end Object

namespace Dictionary

def get (dict : Dictionary) (key : List UInt8) : Option Object := List.lookup key dict

def set : Dictionary → List UInt8 → Object → Dictionary
  | [], key, value => [(key, value)]
  | entry :: dict, key, value =>
    if entry.1 = key then (key, value) :: dict else entry :: set dict key value

def remove (dict : Dictionary) (key : List UInt8) : Dictionary :=
  dict.filter fun entry => entry.1 ≠ key

variable {dict : Dictionary} {key other : List UInt8} {value : Object}

lemma get_cons (entry : List UInt8 × Object) :
    get (entry :: dict) key = if entry.1 = key then some entry.2 else get dict key := by
  rw [get, List.lookup_cons]
  by_cases h : entry.1 = key
  · simp [h]
  · rw [if_neg h, beq_false_of_ne (Ne.symm h)]
    rfl

@[simp] lemma get_set_self : get (set dict key value) key = some value := by
  induction dict with
  | nil => simp [set, get_cons]
  | cons entry dict ih =>
    rw [set]
    split_ifs with h
    · simp [get_cons]
    · rw [get_cons, if_neg h, ih]

@[simp] lemma get_set_of_ne (hne : other ≠ key) :
    get (set dict key value) other = get dict other := by
  induction dict with
  | nil => simp [set, get, hne]
  | cons entry dict ih =>
    rw [set]
    split_ifs with h
    · rw [get_cons, get_cons, if_neg hne.symm, if_neg (h ▸ hne.symm)]
    · rw [get_cons, get_cons, ih]

@[simp] lemma get_remove_self : get (remove dict key) key = none := by
  induction dict with
  | nil => rfl
  | cons entry dict ih =>
    rw [remove, List.filter_cons]
    split_ifs with h
    · rw [get_cons, if_neg (of_decide_eq_true h)]
      exact ih
    · exact ih

@[simp] lemma get_remove_of_ne (hne : other ≠ key) :
    get (remove dict key) other = get dict other := by
  induction dict with
  | nil => rfl
  | cons entry dict ih =>
    rw [remove, List.filter_cons]
    split_ifs with h
    · rw [get_cons, get_cons, ← remove, ih]
    · have hkey : entry.1 = key := by simpa using h
      rw [get_cons, if_neg (hkey ▸ hne.symm)]
      exact ih

/-- An entry set again. -/
lemma set_eq_self (h : get dict key = some value) : set dict key value = dict := by
  induction dict with
  | nil => cases h
  | cons entry dict ih =>
    rw [get_cons] at h
    rw [set]
    split_ifs at h ⊢ with hkey
    · cases h
      rw [← hkey]
    · rw [ih h]

/-- An entry removed again. -/
lemma remove_eq_self (h : get dict key = none) : remove dict key = dict := by
  rw [remove, List.filter_eq_self]
  intro entry hentry
  rw [decide_eq_true_eq]
  rintro rfl
  rw [get, List.lookup_eq_none_iff] at h
  simpa using h entry hentry

end Dictionary

/-- The bytes of an ASCII text. -/
def ascii (text : String) : List UInt8 := text.toList.map fun c => .ofNat c.toNat

def INFO : List UInt8 := ascii "Info"

def ROOT : List UInt8 := ascii "Root"

structure Document where
  trailer : Dictionary
  objects : Finmap fun _ : ObjectId => Object

/-! ## The library -/

/-- What loading a file fails with. -/
inductive LopdfError where
  | memoryLimitExceeded (limit : ℕ)
  | other (message : String)

/-- What the program uses of the library. A file is known by its length and by the document that
is loaded from it, with a cap on what one stream inflates to. -/
structure Lopdf (File : Type) where
  len : File → ℕ
  load : ℕ → File → Except LopdfError Document
  save : Document → Except String File
  getObject : Document → ObjectId → Option Object
  addObject : Document → Object → Document × ObjectId

/-- What is expected of the library: an object is found under its number, a new object gets a new
number, and a saved document is loaded with its objects, its catalog and its information. -/
structure Lopdf.Faithful {File : Type} (lib : Lopdf File) (cap : ℕ) : Prop where
  found : ∀ doc id entries, doc.objects.lookup id = some (.dictionary entries) →
    lib.getObject doc id = some (.dictionary entries)
  added_new : ∀ doc object, (lib.addObject doc object).2 ∉ doc.objects
  added_objects : ∀ doc object, (lib.addObject doc object).1.objects =
    doc.objects.insert (lib.addObject doc object).2 object
  added_trailer : ∀ doc object, (lib.addObject doc object).1.trailer = doc.trailer
  saved : ∀ doc file, lib.save doc = .ok file → ∃ doc', lib.load cap file = .ok doc' ∧
    doc'.objects = doc.objects ∧
    doc'.trailer.get INFO = doc.trailer.get INFO ∧ doc'.trailer.get ROOT = doc.trailer.get ROOT

/-! ## Text -/

def isAscii (text : String) : Bool := text.toList.all fun c => c.toNat < 0x80

def pdfString (value : String) : Object :=
  if isAscii value then .string (ascii value) .literal
  else .string (0xFE :: 0xFF :: Utf16.toBytes (Utf16.encode value.toList)) .hexadecimal

def decodePdfString (bytes : List UInt8) : String :=
  let value :=
    match bytes with
    | 0xFE :: 0xFF :: rest => Utf16.decode (Utf16.ofBytes rest)
    | bytes => bytes.map fun byte => Char.ofNat byte.toNat
  trim (String.ofList value)

lemma toNat_byte {c : Char} (h : c.toNat < 0x80) : (UInt8.ofNat c.toNat).toNat = c.toNat := by
  apply UInt8.toNat_ofNat_of_lt'
  show c.toNat < 0x100
  omega

lemma toList_lt {text : String} (h : isAscii text = true) {c : Char} (hc : c ∈ text.toList) :
    c.toNat < 0x80 := by
  have hall := List.all_eq_true.mp h c hc
  simpa using hall

/-- An ASCII text is read byte by byte. -/
lemma decodePdfString_ascii {text : String} (h : isAscii text = true) :
    decodePdfString (ascii text) = trim text := by
  have hplain : ∀ rest, ascii text ≠ 0xFE :: rest := by
    intro rest heq
    cases htext : text.toList with
    | nil =>
      rw [ascii, htext] at heq
      cases heq
    | cons c cs =>
      have hlt := toList_lt h (htext ▸ List.mem_cons_self)
      rw [ascii, htext, List.map_cons] at heq
      have hbyte := congrArg UInt8.toNat (List.cons.inj heq).1
      rw [toNat_byte hlt] at hbyte
      exact absurd (hbyte ▸ hlt) (by decide)
  have hchars : (ascii text).map (fun byte => Char.ofNat byte.toNat) = text.toList := by
    rw [ascii, List.map_map]
    conv_rhs => rw [← List.map_id text.toList]
    apply List.map_congr_left
    intro c hc
    show Char.ofNat (UInt8.ofNat c.toNat).toNat = c
    rw [toNat_byte (toList_lt h hc), Char.ofNat_toNat]
  rw [decodePdfString, hchars, String.ofList_toList]
  intro rest heq
  exact hplain _ heq

/-- **Every text is read back**, trimmed. -/
theorem decodePdfString_pdfString (value : String) :
    ((pdfString value).asStr).map decodePdfString = some (trim value) := by
  rw [pdfString]
  split_ifs with h
  · rw [Object.asStr, Option.map_some, decodePdfString_ascii h]
  · simp only [Object.asStr, Option.map_some, decodePdfString, Utf16.ofBytes_toBytes,
      Utf16.decode_encode, String.ofList_toList]

end PdfFile

end TuxBooks
