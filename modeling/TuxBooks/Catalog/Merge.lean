import TuxBooks.Catalog.Metadata

set_option relaxedAutoImplicit false
set_option autoImplicit false

/-!
# Folding the catalog rows of one book into another

The library half of the transaction of `merge_book_identity` in
`sidecar/src/sync/identity.rs`, one definition for each table in the order of its statements.

## Main definitions

* `TuxBooks.Catalog.mergeBook` — the whole library half.
-/

namespace TuxBooks

/-- `COALESCE` of every effective column, the winner first. -/
def EffectiveValues.coalesce (w l : EffectiveValues) : EffectiveValues where
  title := w.title.or l.title
  subtitle := w.subtitle.or l.subtitle
  author := w.author.or l.author
  publisher := w.publisher.or l.publisher
  language := w.language.or l.language
  isbn := w.isbn.or l.isbn
  description := w.description.or l.description
  publicationDate := w.publicationDate.or l.publicationDate
  series := w.series.or l.series
  seriesIndex := w.seriesIndex.or l.seriesIndex
  coverPath := w.coverPath.or l.coverPath

/-- `MAX` of two nullable texts, as the aggregate over their rows. -/
def maxText : Option String → Option String → Option String
  | some a, some b => some (max a b)
  | a, none => a
  | none, b => b

namespace Catalog

/-- The row that the folded record gets, when one of the two books has a record. -/
def mergedRecord (winner loser : Option RecordRow) : Option RecordRow :=
  match winner, loser with
  | none, none => none
  | some w, none => some w
  | none, some l => some { l with seriesId := none }
  | some w, some l => some
    { w with
      values := w.values.coalesce l.values
      lastOpenedAt := maxText w.lastOpenedAt l.lastOpenedAt
      progressPercent := w.progressPercent.or l.progressPercent
      annotationCount := w.annotationCount + l.annotationCount
      available := w.available || l.available }

/-- Fold the losing durable record into the winner. An update that moves `last_opened_at` raises
the trigger of that column; an insert does not. -/
def mergeRecord (c : Catalog) (loser winner : String) : Catalog :=
  let w := c.records.lookup winner
  match mergedRecord w (c.records.lookup loser) with
  | none => c
  | some r => { c with records := c.records.insert winner r }.markWhen
      (w.any fun (w : RecordRow) => w.lastOpenedAt != r.lastOpenedAt)
      (.opened winner) (.upsert (openedSnapshot r.lastOpenedAt))

/-- Point every file row of the loser at the winner. -/
def moveFiles (c : Catalog) (loser winner : String) : Catalog :=
  { c with files := c.files.mapRows fun _ (f : FileRow) =>
      if f.bookUid = some loser then { f with bookUid := some winner } else f }

/-- The newest copy of a book. -/
def newestFile (c : Catalog) (uid : String) : Option String :=
  (c.files.entries.filter fun e => e.2.bookUid == some uid).foldl
    (fun best e => maxText best (some e.2.modifiedAt)) none

section

variable (jsonReal : ℚ → Value)

/-- Annotations from both copies are kept. -/
def moveAnnotations (c : Catalog) (loser winner : String) : Catalog :=
  (c.annotations.entries.filter fun e => e.2.bookUid == loser).foldl
    (fun c e => c.putAnnotation jsonReal e.1 { e.2 with bookUid := winner }) c

/-- The newest saved position survives; a tie falls back to the losing copy. -/
def dropOlderProgress (c : Catalog) (loser winner : String) : Catalog :=
  match c.progress.lookup loser, c.progress.lookup winner with
  | some l, some w => if l.updatedAt ≥ w.updatedAt then c.deleteProgress jsonReal winner else c
  | _, _ => c

/-- Move the loser's position unless the winner kept its own. -/
def moveProgress (c : Catalog) (loser winner : String) : Catalog :=
  match c.progress.lookup loser, c.progress.lookup winner with
  | none, _ => c
  | some _, some _ => c.deleteProgress jsonReal loser
  | some l, none => { c with progress := c.progress.erase loser }.putProgress jsonReal winner l

/-- Refresh the position and the annotation count of the record. -/
def refreshRecord (c : Catalog) (winner : String) : Catalog :=
  match c.records.lookup winner with
  | some r => { c with
      records := c.records.insert winner { r with
        progressPercent := (c.progress.lookup winner).bind (·.progressPercent)
        annotationCount := (c.annotations.entries.filter fun e =>
          e.2.bookUid == winner).length } }
  | none => c

/-- Whether the loser has the newer copy. The file rows already point at the winner here. -/
def loserIsNewer (c : Catalog) (loser winner : String) : Bool :=
  match c.newestFile loser, c.newestFile winner with
  | some l, some w => decide (l > w)
  | some _, none => true
  | none, _ => false

/-- Replace the winner's overrides and lists by the loser's. -/
def takeOverrides (c : Catalog) (loser winner : String) (r : OverrideRow) : Catalog :=
  let c := (c.deleteList jsonReal .authors winner).deleteList jsonReal .subjects winner
  let c := c.clearOverrides winner
  let c := { c with overrides := c.overrides.erase loser }.upsertOverrides jsonReal winner r
  (c.moveList jsonReal .authors loser winner).moveList jsonReal .subjects loser winner

/-- The loser's overrides and lists move when the winner has none, or is older. -/
def mergeOverrides (c : Catalog) (loser winner : String) : Catalog :=
  match c.overrides.lookup loser with
  | none => c
  | some r =>
    if (c.overrides.lookup winner).isNone || c.loserIsNewer loser winner then
      c.takeOverrides jsonReal loser winner r
    else c

end

/-- Memberships from both copies are unioned. -/
def mergeMemberships (c : Catalog) (loser winner : String) : Catalog :=
  (c.bookCollections.entries.filter fun e => e.1.1 == loser).foldl
    (fun c e => if (c.bookCollections.lookup (winner, e.1.2)).isSome then c
      else c.putMembership winner e.1.2 e.2) c

/-- Delete the losing record. What refers to it goes by cascade and raises no marker, since the
record is gone by then. -/
def deleteRecord (c : Catalog) (uid : String) : Catalog :=
  { c with
    records := c.records.erase uid
    overrides := c.overrides.erase uid
    bookLists := (c.bookLists.erase (.authors, uid)).erase (.subjects, uid)
    annotations := c.annotations.filterRows fun _ r => r.bookUid != uid
    progress := c.progress.erase uid
    bookCollections := c.bookCollections.filterRows fun k _ => k.1 != uid }

/-- The user state of the losing book, moved to a winner that has its record. -/
def moveUserState (jsonReal : ℚ → Value) (c : Catalog) (loser winner : String) : Catalog :=
  let c := (c.moveAnnotations jsonReal loser winner).dropOlderProgress jsonReal loser winner
  let c := (c.moveProgress jsonReal loser winner).refreshRecord winner
  (c.mergeOverrides jsonReal loser winner).mergeMemberships loser winner

/-- The library half of the transaction of `merge_book_identity`. -/
def mergeBook (jsonReal : ℚ → Value) (c : Catalog) (loser winner : String) : Catalog :=
  let c := (c.mergeRecord loser winner).moveFiles loser winner
  (c.moveUserState jsonReal loser winner).deleteRecord loser

end Catalog

end TuxBooks
