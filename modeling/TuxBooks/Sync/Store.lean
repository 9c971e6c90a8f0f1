import TuxBooks.Sync.Model

set_option relaxedAutoImplicit false
set_option autoImplicit false

/-!
# The wire validator

`validate_op` of `sidecar/src/sync/store.rs`: what an operation read from the folder must
satisfy before it is applied, with the text of each rejection.

## Main definitions

* `TuxBooks.validateFieldValue` — the check of one field of one kind.
* `TuxBooks.validateOp` — the check of a whole operation.
* `TuxBooks.Op.Accepted` — what an accepted operation satisfies.

## Main results

* `TuxBooks.accepted_of_validateOp` — an operation that passes the validator is accepted.
-/

namespace TuxBooks

/-- Stop with `message` when `bad` holds. -/
def reject (bad : Bool) (message : String) : Except String Unit :=
  if bad then .error message else .ok ()

@[simp] lemma reject_eq_ok {bad : Bool} {message : String} :
    reject bad message = .ok () ↔ bad = false := by
  cases bad <;> simp [reject]

/-- A sequence of checks passes when each of them does. -/
lemma except_bind_eq_ok {x : Except String Unit} {f : Unit → Except String Unit} :
    (x >>= f) = .ok () ↔ x = .ok () ∧ f () = .ok () := by
  cases x <;> simp [bind, Except.bind]

/-- A loop of checks passes when each of them does. -/
lemma forM_eq_ok {α : Type} {l : List α} {f : α → Except String Unit} :
    l.forM f = .ok () ↔ ∀ a ∈ l, f a = .ok () := by
  induction l with
  | nil => exact iff_of_true rfl fun _ h => by cases h
  | cons a l ih =>
    have hcons : (a :: l).forM f = (f a >>= fun _ => l.forM f) := rfl
    rw [hcons, except_bind_eq_ok, ih, List.forall_mem_cons]

/-! ## Field values -/

def boundedString (value : Value) (field : String) : Except String Unit :=
  match value.asStr with
  | none => .error (field ++ " must be a string or null")
  | some text => reject (decide (text.utf8ByteSize > maxFieldStringBytes)) (field ++ " is too long")

def stringListItem (field : String) (item : Value) : Except String Unit :=
  match item.asStr with
  | none => .error (field ++ " entries must be strings")
  | some text => reject (decide (text.utf8ByteSize > 1024)) (field ++ " entry is too long")

def stringList (value : Value) (field : String) : Except String Unit :=
  match value.asArray with
  | none => .error (field ++ " must be an array or null")
  | some items => do
    reject (decide (items.length > maxListItems)) (field ++ " has too many entries")
    items.forM (stringListItem field)

def positiveInteger (value : Value) (field : String) : Except String Unit :=
  match value.asI64 with
  | none => .error (field ++ " must be an integer")
  | some n => reject (decide (n < 1)) (field ++ " must be at least 1")

def nonNegativeInteger (value : Value) (field : String) : Except String Unit :=
  match value.asI64 with
  | none => .error (field ++ " must be an integer")
  | some n => reject (decide (n < 0)) (field ++ " must not be negative")

def number (value : Value) (field : String) : Except String Unit :=
  reject value.asF64.isNone (field ++ " must be a number")

def unitNumber (value : Value) (field : String) : Except String Unit :=
  match value.asF64 with
  | none => .error (field ++ " must be a number")
  | some q => reject (!decide (0 ≤ q ∧ q ≤ 1)) (field ++ " is outside 0..=1")

def percent (value : Value) : Except String Unit :=
  match value.asF64 with
  | none => .error "progress_percent must be a number"
  | some q => reject (!decide (0 ≤ q ∧ q ≤ 100)) "progress_percent is outside 0..=100"

def boolean (value : Value) (message : String) : Except String Unit :=
  reject value.asBool.isNone message

/-- `char::is_whitespace`: the Unicode `White_Space` property. -/
def isWhite (c : Char) : Bool :=
  let n := c.toNat
  (9 ≤ n && n ≤ 13) || n == 32 || n == 0x85 || n == 0xA0 || n == 0x1680 ||
    (0x2000 ≤ n && n ≤ 0x200A) || n == 0x2028 || n == 0x2029 || n == 0x202F || n == 0x205F ||
    n == 0x3000

/-- `str::trim().is_empty()`: nothing but whitespace. -/
def isBlank (text : String) : Bool := text.toList.all isWhite

def collectionName (value : Value) : Except String Unit :=
  match value.asStr with
  | none => .error "collection name must be a string"
  | some name => do
    reject (isBlank name) "collection name is empty"
    reject (decide (name.utf8ByteSize > maxCollectionNameBytes)) "collection name is too long"

def validateFieldValue (kind : EntityKind) (field : String) (value : Value) :
    Except String Unit :=
  if value.isNull then .ok ()
  else match kind with
    | EntityKind.annotation =>
      if field = "kind" then
        reject (!(value == .str "bookmark" || value == .str "highlight"))
          "annotation kind must be bookmark or highlight"
      else if field = "page_number" then positiveInteger value field
      else if field = "page_fraction" then unitNumber value field
      else boundedString value field
    | .progress =>
      if field = "progress_percent" then percent value
      else if field = "progression" then unitNumber value field
      else if field = "character_offset" then nonNegativeInteger value field
      else if field = "page_number" then positiveInteger value field
      else if field = "scroll_offset" then number value field
      else if field = "schema_version" then nonNegativeInteger value field
      else boundedString value field
    | .metadata =>
      if field = "series_index" then number value field
      else if field = "authors_customized" ∨ field = "subjects_customized" then
        boolean value (field ++ " must be a boolean")
      else if field = "authors" ∨ field = "subjects" then stringList value field
      else boundedString value field
    | .collection =>
      if field = "name" then collectionName value else boundedString value field
    | .membership =>
      if field = "present" then boolean value "membership present must be a boolean"
      else boundedString value field
    | .opened => boundedString value field
    | .bookIdentity =>
      if field = "content_hash" then
        reject (!(value.asStr.any isHexHash)) "content_hash must be 64 lowercase hex characters"
      else .error ("unknown identity field " ++ field)
    | .book =>
      if field = "snapshot" then boundedString value field
      else if field = "replacement_book_uid" then
        reject (!(value.asStr.any isSafeUid)) "replacement_book_uid must be a safe uid"
      else if field = "discarded" then boolean value "discarded must be a boolean"
      else .error ("unknown book field " ++ field)

/-! ## Operations -/

/-- The loop over `fields`, and with another message prefix over `prior`. -/
def validateFields (kind : EntityKind) (label : String) (fields : Fields) :
    Except String Unit :=
  fields.entries.forM fun e => do
    reject (!decide (e.1 ∈ fieldNames kind))
      (label ++ e.1 ++ " is not valid for " ++ kind.asStr)
    validateFieldValue kind e.1 e.2

def validateScope (op : Op) : Except String Unit :=
  if op.kind = .bookIdentity then do
    reject op.deleted "book identity operations cannot be deletes"
    reject (op.bookUid != some op.entityUid) "book identity entity_uid must equal book_uid"
  else if op.kind = .book then
    reject (op.bookUid != some op.entityUid) "book entity_uid must equal book_uid"
  else
    reject (op.kind != .collection && op.bookUid.isNone)
      "book-scoped operation is missing book_uid"

def validateMembership (op : Op) : Except String Unit :=
  if op.kind = .membership then
    match (op.entityUid.toList.splitOn ':').map String.ofList with
    | [collection, book] =>
      reject (!(isSafeUid collection && isSafeUid book))
        "membership entity_uid must be collection:book"
    | _ => .error "membership entity_uid must be collection:book"
  else .ok ()

def validatePrior (op : Op) : Except String Unit :=
  match op.prior with
  | some prior => validateFields op.kind "prior field " prior
  | none => .ok ()

def validateOp (op : Op) : Except String Unit := do
  reject (op.schema != opSchema) ("unsupported operation schema " ++ toString op.schema)
  reject (!isHexId op.opId) "op_id must be 32 lowercase hex characters"
  reject (!isHexId op.deviceId) "device_id must be 32 lowercase hex characters"
  reject (op.hlc.device != op.deviceId) "hlc device must match device_id"
  reject (decide (op.hlc.wall < 0)) "hlc wall must not be negative"
  reject (!isSafeUid op.entityUid) "entity_uid contains unsupported characters"
  reject (op.bookUid.any fun uid => !isSafeUid uid) "book_uid contains unsupported characters"
  reject (op.deleted && !op.fields.entries.isEmpty)
    "a delete operation carries prior state, not fields"
  reject (op.restore && op.deleted) "a restore cannot also be a delete"
  validateScope op
  validateFields op.kind "field " op.fields
  validatePrior op
  validateMembership op

/-- What an operation that passed the validator satisfies. -/
structure Op.Accepted (op : Op) : Prop where
  opId : isHexId op.opId = true
  deviceId : isHexId op.deviceId = true
  device : op.hlc.device = op.deviceId
  wall : 0 ≤ op.hlc.wall
  entityUid : isSafeUid op.entityUid = true
  noFields : op.deleted = true → op.fields.entries = []
  notBoth : ¬(op.restore = true ∧ op.deleted = true)
  scope : validateScope op = .ok ()
  fields : validateFields op.kind "field " op.fields = .ok ()
  membership : validateMembership op = .ok ()

/-- An operation that passes the validator is accepted. -/
theorem accepted_of_validateOp {op : Op} (h : validateOp op = .ok ()) : op.Accepted := by
  simp only [validateOp, except_bind_eq_ok, reject_eq_ok] at h
  obtain ⟨-, hop, hdev, hmatch, hwall, huid, -, hnf, hboth, hscope, hfields, -, hmem⟩ := h
  refine ⟨by simpa using hop, by simpa using hdev, by simpa using hmatch, by simpa using hwall,
    by simpa using huid, fun hd => ?_, fun hb => ?_, hscope, hfields, hmem⟩
  · simpa [hd] using hnf
  · simp [hb.1, hb.2] at hboth

/-- The clock of an accepted operation is above the zero clock. -/
lemma Op.Accepted.zero_lt {op : Op} (h : op.Accepted) : Hlc.zero < op.hlc :=
  Hlc.zero_lt h.wall (by rw [h.device]; exact isHexId_ne_empty h.deviceId)

/-- An accepted delete carries no field. -/
lemma Op.Accepted.lookup_fields_of_deleted {op : Op} (h : op.Accepted) (hd : op.deleted = true)
    (field : String) : op.fields.lookup field = none := by
  rw [AList.lookup_eq_none, AList.mem_keys]
  simp [AList.keys, h.noFields hd]

/-- A loop over fields passes when every field is one of the kind and has a value for it. -/
lemma validateFields_eq_ok {kind : EntityKind} {label : String} {fields : Fields} :
    validateFields kind label fields = .ok () ↔ ∀ field value, fields.lookup field = some value →
      field ∈ fieldNames kind ∧ validateFieldValue kind field value = .ok () := by
  unfold validateFields
  rw [forM_eq_ok]
  simp only [except_bind_eq_ok, reject_eq_ok, Bool.not_eq_false', decide_eq_true_eq]
  constructor
  · intro h field value hvalue
    exact h ⟨field, value⟩ (AList.mem_lookup_iff.mp hvalue)
  · intro h e he
    exact h e.1 e.2 (AList.mem_lookup_iff.mpr he)

/-- A field of an accepted operation is one of its kind. -/
lemma Op.Accepted.mem_fieldNames {op : Op} (h : op.Accepted) {field : String} {value : Value}
    (hvalue : op.fields.lookup field = some value) : field ∈ fieldNames op.kind :=
  (validateFields_eq_ok.mp h.fields field value hvalue).1

end TuxBooks
