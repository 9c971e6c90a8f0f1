import Mathlib.Data.Prod.Lex
import Mathlib.Data.Rat.Defs
import Mathlib.Data.String.Basic
import Mathlib.Data.List.Sort
import Mathlib.Data.List.Infix
import Mathlib.Data.List.Lex
import Mathlib.Algebra.Order.Ring.Int
import TuxBooks.Lib.Table

set_option relaxedAutoImplicit false
set_option autoImplicit false

/-!
# Wire and state types of cloud-folder sync

The data model of `sidecar/src/sync/model.rs`: JSON values, the hybrid logical clock, the
entity kinds with their merge modes, operations, and the canonical state of an entity.

JSON columns of the database hold the value they encode (`serde_json` reads back what it
wrote), so a `value_json` column is a `Value` here. JSON numbers are integers or finite
fractions; `1` and `1.0` are different values, as they are for `serde_json`.

## Main definitions

* `TuxBooks.Value`, `TuxBooks.Fields` — a JSON value and a JSON map.
* `TuxBooks.Hlc` — the hybrid logical clock with its lexicographic order.
* `TuxBooks.EntityKind`, `TuxBooks.EntityKind.mergeMode`, `TuxBooks.fieldNames`.
* `TuxBooks.Op` — an operation.
* `TuxBooks.canonicalFromSnapshot`, `TuxBooks.changedFields` — canonical state.
* `TuxBooks.isHexId`, `TuxBooks.isHexHash`, `TuxBooks.isSafeUid` — identifier checks.

## Main results

* `TuxBooks.Hlc.zero_lt` — a clock with a device and a non-negative wall is above zero.
* `TuxBooks.Hlc.seen_le` — the clock a nullable column reports is at most the clock stored.
-/

namespace TuxBooks

/-! ## JSON values -/

/-- A JSON value as `serde_json::Value` has it. An object lists its entries in key order. -/
inductive Value where
  | null
  | bool (b : Bool)
  | int (n : ℤ)
  | float (q : ℚ)
  | str (s : String)
  | arr (items : List Value)
  | obj (entries : List (String × Value))
  deriving Repr

namespace Value

mutual

/-- Structural equality of JSON values. -/
def beq : Value → Value → Bool
  | null, null => true
  | bool a, bool b => a == b
  | int a, int b => a == b
  | float a, float b => a == b
  | str a, str b => a == b
  | arr a, arr b => beqList a b
  | obj a, obj b => beqEntries a b
  | _, _ => false

def beqList : List Value → List Value → Bool
  | [], [] => true
  | a :: as, b :: bs => beq a b && beqList as bs
  | _, _ => false

def beqEntries : List (String × Value) → List (String × Value) → Bool
  | [], [] => true
  | (k, a) :: as, (l, b) :: bs => k == l && beq a b && beqEntries as bs
  | _, _ => false

end

mutual

/-- Structural equality is equality. -/
lemma eq_of_beq : ∀ {a b : Value}, beq a b = true ↔ a = b
  | null, b => by cases b <;> simp [beq]
  | bool _, b => by cases b <;> simp [beq]
  | int _, b => by cases b <;> simp [beq]
  | float _, b => by cases b <;> simp [beq]
  | str _, b => by cases b <;> simp [beq]
  | arr as, b => by
    cases b with
    | arr bs => simpa [beq] using eq_of_beqList
    | _ => simp [beq]
  | obj as, b => by
    cases b with
    | obj bs => simpa [beq] using eq_of_beqEntries
    | _ => simp [beq]

lemma eq_of_beqList : ∀ {as bs : List Value}, beqList as bs = true ↔ as = bs
  | [], bs => by cases bs <;> simp [beqList]
  | a :: as, bs => by
    cases bs with
    | nil => simp [beqList]
    | cons b bs =>
      simp [beqList, (eq_of_beq : beq a b = true ↔ a = b),
        (eq_of_beqList : beqList as bs = true ↔ as = bs)]

lemma eq_of_beqEntries : ∀ {as bs : List (String × Value)}, beqEntries as bs = true ↔ as = bs
  | [], bs => by cases bs <;> simp [beqEntries]
  | (k, a) :: as, bs => by
    cases bs with
    | nil => simp [beqEntries]
    | cons b bs =>
      obtain ⟨l, b⟩ := b
      simp [beqEntries, (eq_of_beq : beq a b = true ↔ a = b),
        (eq_of_beqEntries : beqEntries as bs = true ↔ as = bs)]

end

instance : DecidableEq Value := fun _ _ => decidable_of_iff _ eq_of_beq

/-- `Value::is_null`. -/
def isNull : Value → Bool
  | null => true
  | _ => false

/-- `Value::as_str`. -/
def asStr : Value → Option String
  | str s => some s
  | _ => none

/-- `Value::as_bool`. -/
def asBool : Value → Option Bool
  | bool b => some b
  | _ => none

/-- `Value::as_i64`: an integer that fits in 64 signed bits. -/
def asI64 : Value → Option ℤ
  | int n => if -2 ^ 63 ≤ n ∧ n < 2 ^ 63 then some n else none
  | _ => none

/-- `Value::as_f64`: any number. -/
def asF64 : Value → Option ℚ
  | int n => some n
  | float q => some q
  | _ => none

/-- `Value::as_array`. -/
def asArray : Value → Option (List Value)
  | arr items => some items
  | _ => none

/-- `Value::get` with a key. -/
def get (v : Value) (key : String) : Option Value :=
  match v with
  | obj entries => (entries.find? (·.1 == key)).map (·.2)
  | _ => none

end Value

/-- A JSON map (`serde_json::Map<String, Value>`). -/
abbrev Fields := Table String Value

/-- The JSON object of a map, with its keys in order. -/
def Fields.toValue (fields : Fields) : Value :=
  .obj ((fields.entries.map fun e => (e.1, e.2)).insertionSort fun a b => a.1 ≤ b.1)

/-! ## Constants -/

/-- Readers reject a newer schema instead of guessing. -/
def opSchema : ℕ := 1

/-- One operation file is small; covers travel as separate blobs. -/
def maxOpFileBytes : ℕ := 1 <<< 20

/-- Keeps one hostile field from becoming an unbounded allocation. -/
def maxFieldStringBytes : ℕ := 512 * 1024

def maxCollectionNameBytes : ℕ := 512

def maxListItems : ℕ := 512

/-! ## Hybrid logical clock -/

/-- A hybrid logical clock. Ordering is `(wall, counter, device)`. -/
structure Hlc where
  wall : ℤ
  counter : ℕ
  device : String
  deriving DecidableEq, Repr

namespace Hlc

/-- The ordering key. -/
def key (h : Hlc) : ℤ ×ₗ ℕ ×ₗ String := toLex (h.wall, toLex (h.counter, h.device))

lemma key_injective : Function.Injective key := by
  intro a b h
  cases a
  cases b
  simpa [key] using h

instance : LinearOrder Hlc := LinearOrder.lift' key key_injective

lemma lt_iff {a b : Hlc} :
    a < b ↔ a.wall < b.wall ∨ a.wall = b.wall ∧
      (a.counter < b.counter ∨ a.counter = b.counter ∧ a.device < b.device) := by
  change key a < key b ↔ _
  simp only [key, Prod.Lex.toLex_lt_toLex]

/-- The empty device id is below every other one. -/
lemma empty_lt {s : String} (h : s ≠ "") : "" < s := by
  rw [String.lt_iff_toList_lt]
  cases hs : s.toList with
  | nil => exact absurd (String.toList_eq_nil_iff.mp hs) h
  | cons c cs => simp

/-- The zero clock of a row that nothing has written yet. -/
def zero : Hlc := ⟨0, 0, ""⟩

/-- A clock with a device and a non-negative wall is above zero. -/
lemma zero_lt {h : Hlc} (hwall : 0 ≤ h.wall) (hdev : h.device ≠ "") : zero < h := by
  rw [lt_iff]
  rcases hwall.lt_or_eq with hw | hw
  · exact Or.inl hw
  · refine Or.inr ⟨hw, ?_⟩
    rcases Nat.eq_zero_or_pos h.counter with hc | hc
    · exact Or.inr ⟨hc.symm, empty_lt hdev⟩
    · exact Or.inl hc

/-- What a nullable clock column reports: a clock of wall zero reads as absent. -/
def stored (h : Hlc) : Option Hlc := if h.wall ≠ 0 then some h else none

/-- The clock a reader of a nullable column compares with. -/
def seen (h : Hlc) : Hlc := h.stored.getD zero

lemma seen_of_wall_ne_zero {h : Hlc} (hw : h.wall ≠ 0) : h.seen = h := by
  simp [seen, stored, hw]

lemma seen_of_wall_eq_zero {h : Hlc} (hw : h.wall = 0) : h.seen = zero := by
  simp [seen, stored, hw]

/-- The clock reported is at most the clock stored. -/
lemma seen_le {h : Hlc} (hpos : zero < h) : h.seen ≤ h := by
  by_cases hw : h.wall = 0
  · rw [seen_of_wall_eq_zero hw]
    exact hpos.le
  · rw [seen_of_wall_ne_zero hw]

/-- A clock with a non-negative wall shows at least the zero clock. -/
lemma zero_le_seen {h : Hlc} (hwall : 0 ≤ h.wall) : zero ≤ h.seen := by
  by_cases hw : h.wall = 0
  · rw [seen_of_wall_eq_zero hw]
  · rw [seen_of_wall_ne_zero hw]
    exact (lt_iff.mpr (Or.inl (lt_of_le_of_ne hwall (Ne.symm hw)))).le

/-- A clock that is at most another one as stored is at most it as shown. -/
lemma seen_le_seen {a b : Hlc} (ha : 0 ≤ a.wall) (hb : 0 ≤ b.wall) (h : a.seen ≤ b) :
    a.seen ≤ b.seen := by
  by_cases hbw : b.wall = 0
  · by_cases haw : a.wall = 0
    · rw [seen_of_wall_eq_zero haw]
      exact zero_le_seen hb
    · rw [seen_of_wall_ne_zero haw] at h
      refine absurd h (not_le.mpr (lt_iff.mpr (Or.inl ?_)))
      omega
  · rw [seen_of_wall_ne_zero hbw]
    exact h

end Hlc

/-! ## Entity kinds -/

inductive EntityKind where
  | annotation
  | progress
  | metadata
  | collection
  | membership
  | opened
  | bookIdentity
  /-- Whole-book Forget/restore lifecycle; the entity uid is the forgotten book uid. -/
  | book
  deriving DecidableEq, Repr

inductive MergeMode where
  | field
  | entity
  deriving DecidableEq, Repr

namespace EntityKind

def asStr : EntityKind → String
  | annotation => "annotation"
  | progress => "progress"
  | metadata => "metadata"
  | collection => "collection"
  | membership => "membership"
  | opened => "opened"
  | bookIdentity => "book_identity"
  | book => "book"

/-- Progress is one coherent locator, membership and opened are single values; every other
kind merges per field. -/
def mergeMode : EntityKind → MergeMode
  | progress | membership | opened | book => .entity
  | _ => .field

end EntityKind

/-- The syncable fields of each kind. -/
def fieldNames : EntityKind → List String
  | EntityKind.annotation =>
    ["kind", "cfi", "chapter_href", "page_number", "page_fraction", "text", "color",
      "geometry", "note", "label", "created_at"]
  | .progress =>
    ["chapter_href", "cfi", "character_offset", "page_number", "scroll_offset",
      "progress_percent", "locator", "progression", "locations", "engine", "schema_version"]
  | .metadata =>
    ["title", "subtitle", "publisher", "language", "isbn", "description", "publication_date",
      "series", "series_index", "cover_path", "authors_customized", "authors",
      "subjects_customized", "subjects"]
  | .collection => ["name", "created_at"]
  | .membership => ["present", "added_at"]
  | .opened => ["last_opened_at"]
  | .bookIdentity => ["content_hash"]
  | .book => ["snapshot", "replacement_book_uid", "discarded"]

/-! ## Operations -/

/-- A generated operation. `fields` carries only changed fields; a cleared field is present
with JSON `null`. -/
structure Op where
  schema : ℕ
  opId : String
  deviceId : String
  hlc : Hlc
  kind : EntityKind
  entityUid : String
  bookUid : Option String
  deleted : Bool
  /-- Restore a tombstoned entity. Only the explicit trash action sets this. -/
  restore : Bool
  fields : Fields
  /-- The prior canonical state, carried by deletes. -/
  prior : Option Fields
  createdAt : String

/-- Canonical state: every syncable field of a kind, present once. -/
abbrev State := Fields

/-- Exactly the syncable fields of a trigger snapshot; a missing one is `null`. -/
def canonicalFromSnapshot (kind : EntityKind) (snapshot : Fields) : State :=
  Table.ofKeys (fieldNames kind) fun field => (snapshot.lookup field).getD .null

/-- The part of `current` that differs from `previous`. -/
def changedFields (previous current : State) : Fields :=
  current.filterRows fun field value => previous.lookup field != some value

/-- `previous.values().all(Value::is_null)`. -/
def State.allNull (state : State) : Bool := state.entries.all fun e => e.2.isNull

/-- Stable issue key for one conflict. -/
def conflictIssueKey (kind : EntityKind) (entityUid field : String) : String :=
  "conflict:" ++ kind.asStr ++ ":" ++ entityUid ++ ":" ++ field

/-! ## Identifier checks -/

def isHexChar (c : Char) : Bool := ('0' ≤ c && c ≤ '9') || ('a' ≤ c && c ≤ 'f')

def isHexId (value : String) : Bool :=
  value.utf8ByteSize == 32 && value.toList.all isHexChar

def isHexHash (value : String) : Bool :=
  value.utf8ByteSize == 64 && value.toList.all isHexChar

def isUidChar (c : Char) : Bool :=
  c.isAlphanum || c == '-' || c == '_' || c == ':' || c == '.'

def isSafeUid (value : String) : Bool :=
  value != "" && decide (value.utf8ByteSize ≤ 160) && value.toList.all isUidChar &&
    !decide (['.', '.'] <:+: value.toList) && value.toList.head? != some '.'

/-- `str::split_once`: the text before and after the first `c`. -/
def splitOnce (c : Char) (s : String) : Option (String × String) :=
  match s.toList.dropWhile (· != c) with
  | [] => none
  | _ :: rest => some (String.ofList (s.toList.takeWhile (· != c)), String.ofList rest)

/-- `str::rsplit_once`: the text before and after the last `c`. -/
def rsplitOnce (c : Char) (s : String) : Option (String × String) :=
  match s.toList.reverse.dropWhile (· != c) with
  | [] => none
  | _ :: rest =>
    some (String.ofList rest.reverse, String.ofList (s.toList.reverse.takeWhile (· != c)).reverse)

/-- Application errors of the sync code. -/
inductive AppError where
  | database (detail : String)
  | notFound
  | invalidInput (detail : String)
  deriving DecidableEq, Repr

/-! ## Lemmas -/

lemma isHexId_ne_empty {value : String} (h : isHexId value = true) : value ≠ "" := by
  rintro rfl
  simp [isHexId] at h

/-- Joining the halves of a split gives the text back. -/
lemma splitOnce_eq_some {c : Char} {s a b : String} (h : splitOnce c s = some (a, b)) :
    a ++ String.singleton c ++ b = s := by
  unfold splitOnce at h
  split at h
  · cases h
  · next x rest hrest =>
    simp only [Option.some.injEq, Prod.mk.injEq] at h
    obtain ⟨rfl, rfl⟩ := h
    have hx : x = c := by
      have hhead := List.head?_dropWhile_not (· != c) s.toList
      simpa [hrest] using hhead
    apply String.toList_injective
    have hsplit := List.takeWhile_append_dropWhile (p := (· != c)) (l := s.toList)
    rw [hrest, hx] at hsplit
    simpa [String.toList_append] using hsplit

lemma lookup_canonicalFromSnapshot (kind : EntityKind) (snapshot : Fields) (field : String) :
    (canonicalFromSnapshot kind snapshot).lookup field =
      if field ∈ fieldNames kind then some ((snapshot.lookup field).getD .null) else none :=
  Table.lookup_ofKeys _ _ _

lemma lookup_changedFields (previous current : State) (field : String) :
    (changedFields previous current).lookup field =
      (current.lookup field).filter fun value => previous.lookup field != some value := by
  simp [changedFields]

end TuxBooks
