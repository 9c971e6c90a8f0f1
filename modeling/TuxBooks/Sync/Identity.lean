import TuxBooks.Sync.Mirror

set_option relaxedAutoImplicit false
set_option autoImplicit false

/-!
# Re-keying the mirror when two identities merge

The `sync_*` half of `sidecar/src/sync/identity.rs`: what merging two book uids, or two
collection uids, does to the mirror rows. `merge_book_identity` also folds the local catalog
rows of the losing book into the winner; those tables are not part of the mirror.

## Main definitions

* `TuxBooks.Mirror.mergeSelfKeyed` — combine the rows of an entity keyed by its book.
* `TuxBooks.Mirror.mergeEntityUid` — combine two rows of one entity-mode kind.
* `TuxBooks.Mirror.mergeBookIdentity`, `TuxBooks.Mirror.mergeCollectionIdentity`.
-/

namespace TuxBooks

/-- `INSERT ... ON CONFLICT DO UPDATE ... WHERE excluded.hlc > hlc`: a field keeps whichever
clock is newer. -/
def mergeFieldRow (fields : Table String FieldRow) (field : String) (row : FieldRow) :
    Table String FieldRow :=
  match fields.lookup field with
  | some current => if row.hlc > current.hlc then fields.insert field row else fields
  | none => fields.insert field row

/-- Every field row of the loser, merged into those of the winner. -/
def mergeFieldRows (loser winner : Table String FieldRow) : Table String FieldRow :=
  loser.entries.foldl (fun fields e => mergeFieldRow fields e.1 e.2) winner

/-- `LIKE` of SQLite on the pattern characters `_` and `%`, without case for ASCII letters. -/
def sqlLike : List Char → List Char → Bool
  | [], [] => true
  | [], _ :: _ => false
  | '%' :: p, [] => sqlLike p []
  | '%' :: p, c :: s => sqlLike p (c :: s) || sqlLike ('%' :: p) s
  | _ :: _, [] => false
  | '_' :: p, _ :: s => sqlLike p s
  | a :: p, c :: s => a.toLower == c.toLower && sqlLike p s
termination_by p s => p.length + s.length

attribute [grind =] sqlLike

namespace Mirror

def eraseRow (m : Mirror) (kind : EntityKind) (uid : String) : Mirror :=
  { m with entities := m.entities.erase (kind, uid) }

/-- `rekey_entity_uid`: move the row `src` under `dst`, with another book uid if one is given. -/
def rekeyEntityUid (m : Mirror) (kind : EntityKind) (src dst : String)
    (bookUid : Option String) : Mirror :=
  match m.entities.lookup (kind, src) with
  | some r => (m.eraseRow kind src).setRow kind dst { r with bookUid := bookUid.or r.bookUid }
  | none => m

/-- Combine two rows of an entity-mode kind: the greater clock takes `dst`, a tie keeps the
row that is already there. -/
def mergeEntityUid (m : Mirror) (kind : EntityKind) (src dst bookUid : String) : Mirror :=
  if src = dst then m
  else match m.entities.lookup (kind, src), m.entities.lookup (kind, dst) with
    | some s, some d =>
      if s.hlc > d.hlc then (m.eraseRow kind dst).rekeyEntityUid kind src dst (some bookUid)
      else m.eraseRow kind src
    | some _, none => m.rekeyEntityUid kind src dst (some bookUid)
    | none, _ => m

/-- The field-level branch of `merge_self_keyed`: the winner row is created from the loser's
columns when it is missing, then takes every newer field. -/
def mergeSelfKeyedFields (m : Mirror) (kind : EntityKind) (loser winner : String) : Mirror :=
  match m.entities.lookup (kind, loser) with
  | none => m
  | some l =>
    let w := (m.entities.lookup (kind, winner)).getD
      { l with bookUid := some winner, fields := ∅ }
    (m.setRow kind winner { w with fields := mergeFieldRows l.fields w.fields }).eraseRow
      kind loser

def mergeSelfKeyed (m : Mirror) (kind : EntityKind) (loser winner : String) : Mirror :=
  match kind.mergeMode with
  | .entity => m.mergeEntityUid kind loser winner winner
  | .field => m.mergeSelfKeyedFields kind loser winner

/-- The membership rows that a book merge re-keys. -/
def membershipsOfBook (m : Mirror) (bookUid : String) : List String :=
  (m.entities.entries.filter fun e =>
    e.1.1 == .membership && e.2.bookUid == some bookUid).map (·.1.2)

/-- Move one membership row under the winning book. -/
def rekeyMembershipBook (winner : String) (m : Mirror) (uid : String) : Mirror :=
  match rsplitOnce ':' uid with
  | some (collection, _) =>
    m.mergeEntityUid .membership uid (collection ++ ":" ++ winner) winner
  | none => m

/-- `UPDATE ... SET book_uid = winner WHERE book_uid = loser` on a nullable column. -/
def replaceUid (loser winner : String) (uid : Option String) : Option String :=
  if uid = some loser then some winner else uid

/-- The merge edge, and the bindings and aliases of the loser, of `merge_book_identity`. -/
def mergeBookStart (m : Mirror) (loser winner : String) : Mirror :=
  { m with
    merges := m.merges.insert loser winner
    bindings := m.bindings.mapRows fun _ (b : BindingRow) =>
      if b.bookUid = loser then { b with bookUid := winner } else b
    aliases := m.aliases.mapRows fun _ (uid : String) =>
      if uid = loser then winner else uid }

/-- The self-keyed rows of `merge_book_identity`, and the book uid of every row. -/
def mergeBookSelfKeyed (m : Mirror) (loser winner : String) : Mirror :=
  let m := ((m.mergeSelfKeyed .progress loser winner).mergeSelfKeyed .metadata loser
    winner).mergeSelfKeyed .opened loser winner
  { m with entities := m.entities.mapRows fun _ (r : EntityRow) =>
      { r with bookUid := replaceUid loser winner r.bookUid } }

/-- The memberships are keyed collection:book, so their suffix changes too. -/
def rekeyMemberships (m : Mirror) (winner : String) : Mirror :=
  (m.membershipsOfBook winner).foldl (rekeyMembershipBook winner) m

/-- The transaction of `merge_book_identity` on the mirror, for two canonical live uids. -/
def mergeBookRows (m : Mirror) (loser winner : String) : Mirror :=
  let m := ((m.mergeBookStart loser winner).mergeBookSelfKeyed loser winner).rekeyMemberships
    winner
  { m with trash := m.trash.map fun (t : TrashRow) =>
      { t with bookUid := replaceUid loser winner t.bookUid } }

/-- Re-key every shared row from `loser` to `winner`. Delete wins: a forgotten identity takes
no part in a merge. -/
def mergeBookIdentity (m : Mirror) (loser winner : String) : Mirror :=
  let winner := m.canonicalBookUid winner
  let loser := m.canonicalBookUid loser
  if loser = winner then m
  else if (m.forgottenReplacement winner).isSome ∨ (m.forgottenReplacement loser).isSome then m
  else m.mergeBookRows loser winner

/-- The membership rows whose entity uid is `LIKE '<collection>:%'`. -/
def membershipsLike (m : Mirror) (collection : String) : List String :=
  (m.entities.entries.filter fun e =>
    e.1.1 == .membership && sqlLike (collection ++ ":%").toList e.1.2.toList).map (·.1.2)

/-- Move one membership row under the winning collection. -/
def rekeyMembershipCollection (winner : String) (m : Mirror) (uid : String) : Mirror :=
  match rsplitOnce ':' uid with
  | some (_, book) => m.mergeEntityUid .membership uid (winner ++ ":" ++ book) book
  | none => m

/-- Merge two collections that share a name. -/
def mergeCollectionIdentity (m : Mirror) (loser winner : String) : Mirror :=
  if loser = winner then m
  else
    let m := { m with entityMerges := m.entityMerges.insert (.collection, loser) winner }
    let w := m.row .collection winner
    let l := m.row .collection loser
    let m := (m.setRow .collection winner
      { w with fields := mergeFieldRows l.fields w.fields }).eraseRow .collection loser
    let m := (m.membershipsLike loser).foldl (rekeyMembershipCollection winner) m
    { m with trash := m.trash.map fun (t : TrashRow) =>
        if t.kind = .collection ∧ t.entityUid = loser then { t with entityUid := winner } else t }

end Mirror

end TuxBooks
