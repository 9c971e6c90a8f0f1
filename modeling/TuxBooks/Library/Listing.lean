import Mathlib.Data.Int.Notation
import Mathlib.Data.List.Induction
import Mathlib.Data.List.Nodup
import TuxBooks.Lib.Patches

set_option relaxedAutoImplicit false
set_option autoImplicit false

/-!
# The library list on screen

The hook `useLibraryData`: fetches of the whole list, events that are buffered and flushed into it,
and the backend whose changes they follow. A run interleaves the backend's changes, the delivery of
their events in order, the steps of the fetches and the flush timer in any way.

## Main definitions

* `TuxBooks.Listing.LibraryData` — the hook's state beside the backend's history.
* `TuxBooks.Listing.LibraryData.applyFetched`, `TuxBooks.Listing.LibraryData.flushPending`,
  `TuxBooks.Listing.LibraryData.loadLibrary` — the hook's functions.
* `TuxBooks.Listing.LibraryData.step`, `TuxBooks.Listing.LibraryData.run` — one step and a whole
  run.
* `TuxBooks.Listing.LibraryData.owes` — whether the list may have lost something since the last
  fetch.

## Main results

* `TuxBooks.Listing.content_flushPending` — a flush applies the buffered events in order.
* `TuxBooks.Listing.converges` — when nothing is owed, the list converges to the backend.
-/

namespace TuxBooks

namespace Listing

/-- A book of the list. -/
structure ListedBook (φ : Type) where
  id : ℤ
  fields : φ
  deriving DecidableEq

/-- The books of the backend, each once. -/
structure Shelf (φ : Type) where
  books : List (ListedBook φ)
  nodup : (books.map ListedBook.id).Nodup

variable {φ : Type}

/-! ## The backend -/

/-- A change of the backend, as its event announces it. -/
inductive Change (φ : Type) where
  | changed (book : ListedBook φ)
  | removed (bookId : ℤ)
  | reload (next : Shelf φ)

/-- The list with a book in the place of the one with that id, or at the end. -/
def placeBook (next : List (ListedBook φ)) (id : ℤ) (book : ListedBook φ) :
    List (ListedBook φ) :=
  match next.findIdx? (·.id == id) with
  | some found => next.set found book
  | none => next ++ [book]

/-- What a list says of each id. -/
def content (books : List (ListedBook φ)) : ℤ → Option (ListedBook φ) :=
  fun id => books.find? (·.id == id)

/-! ## Lists of books -/

lemma content_eq_some {books : List (ListedBook φ)} {id : ℤ} {book : ListedBook φ}
    (hnodup : (books.map ListedBook.id).Nodup) :
    content books id = some book ↔ book ∈ books ∧ book.id = id := by
  induction books with
  | nil => simp [content]
  | cons first books ih =>
    rw [List.map_cons, List.nodup_cons] at hnodup
    have hrest := ih hnodup.2
    rw [content] at hrest ⊢
    by_cases hfirst : first.id = id
    · have hother : ∀ other ∈ books, other.id ≠ id := fun other hmem heq =>
        hnodup.1 (List.mem_map.mpr ⟨other, hmem, heq.trans hfirst.symm⟩)
      rw [List.find?_cons_of_pos (by simpa using hfirst), Option.some.injEq, List.mem_cons]
      constructor
      · rintro rfl
        exact ⟨.inl rfl, hfirst⟩
      · rintro ⟨rfl | hmem, hid⟩
        · rfl
        · exact absurd hid (hother book hmem)
    · rw [List.find?_cons_of_neg (by simpa using hfirst), hrest, List.mem_cons]
      constructor
      · rintro ⟨hmem, hid⟩
        exact ⟨.inr hmem, hid⟩
      · rintro ⟨rfl | hmem, hid⟩
        · exact absurd hid hfirst
        · exact ⟨hmem, hid⟩

/-- **Lists with the same content** have the same books, each once. -/
theorem perm_of_content {books books' : List (ListedBook φ)}
    (hnodup : (books.map ListedBook.id).Nodup) (hnodup' : (books'.map ListedBook.id).Nodup)
    (h : content books = content books') : books.Perm books' := by
  refine (List.perm_ext_iff_of_nodup hnodup.of_map hnodup'.of_map).mpr fun book => ?_
  have hmem : content books book.id = some book ↔ _ := content_eq_some hnodup
  have hmem' : content books' book.id = some book ↔ _ := content_eq_some hnodup'
  rw [h] at hmem
  simpa using hmem.symm.trans hmem'

lemma content_set {books : List (ListedBook φ)} {i : ℕ} {book old : ListedBook φ}
    (hnodup : (books.map ListedBook.id).Nodup) (hold : books[i]? = some old)
    (hid : old.id = book.id) :
    content (books.set i book) = Function.update (content books) book.id (some book) := by
  induction books generalizing i with
  | nil => simp at hold
  | cons first books ih =>
    rw [List.map_cons, List.nodup_cons] at hnodup
    funext id
    cases i with
    | zero =>
      obtain rfl : first = old := by simpa using hold
      by_cases hk : id = book.id
      · simp [content, hk]
      · have hne : ¬first.id = id := fun heq => hk (heq.symm.trans hid)
        rw [Function.update_of_ne hk, content, content, List.set_cons_zero,
          List.find?_cons_of_neg (by simpa using Ne.symm hk),
          List.find?_cons_of_neg (by simpa using hne)]
    | succ i =>
      have hold' : books[i]? = some old := by simpa using hold
      have hrest := congrFun (ih hnodup.2 hold') id
      have hfirst : first.id ≠ book.id := fun heq =>
        hnodup.1 (List.mem_map.mpr ⟨old, List.mem_of_getElem? hold', hid.trans heq.symm⟩)
      rw [List.set_cons_succ]
      by_cases hk : first.id = id
      · have hne : id ≠ book.id := hk ▸ hfirst
        rw [Function.update_of_ne hne, content, content,
          List.find?_cons_of_pos (by simpa using hk), List.find?_cons_of_pos (by simpa using hk)]
      · rw [content, List.find?_cons_of_neg (by simpa using hk)]
        refine hrest.trans ?_
        by_cases hid' : id = book.id
        · simp [hid']
        · rw [Function.update_of_ne hid', Function.update_of_ne hid', content, content,
            List.find?_cons_of_neg (by simpa using hk)]

lemma nodup_set {books : List (ListedBook φ)} {i : ℕ} {book old : ListedBook φ}
    (hnodup : (books.map ListedBook.id).Nodup) (hold : books[i]? = some old)
    (hid : old.id = book.id) : ((books.set i book).map ListedBook.id).Nodup := by
  have hids : (books.map ListedBook.id)[i]? = some book.id := by simp [hold, hid]
  obtain ⟨hlt, hget⟩ := List.getElem?_eq_some_iff.mp hids
  rwa [List.map_set, ← hget, List.set_getElem_self]

lemma content_concat {books : List (ListedBook φ)} {book : ListedBook φ}
    (hnew : ∀ other ∈ books, other.id ≠ book.id) :
    content (books ++ [book]) = Function.update (content books) book.id (some book) := by
  funext id
  rw [content, List.find?_append]
  by_cases hk : id = book.id
  · have hnone : books.find? (·.id == id) = none :=
      List.find?_eq_none.mpr fun other hmem => by simpa [hk] using hnew other hmem
    rw [hnone, hk, Function.update_self]
    simp
  · rw [Function.update_of_ne hk, content]
    have hne : ¬book.id = id := fun heq => hk heq.symm
    simp [hne]

/-- **Placing a book** sets what the list says of its id. -/
theorem content_placeBook {books : List (ListedBook φ)} {book : ListedBook φ}
    (hnodup : (books.map ListedBook.id).Nodup) :
    content (placeBook books book.id book) =
        Function.update (content books) book.id (some book) ∧
      ((placeBook books book.id book).map ListedBook.id).Nodup := by
  rw [placeBook]
  split
  · next found hfound =>
    obtain ⟨hlt, hid, -⟩ := List.findIdx?_eq_some_iff_getElem.mp hfound
    have hold : books[found]? = some books[found] := List.getElem?_eq_getElem hlt
    have hid' : books[found].id = book.id := by simpa using hid
    exact ⟨content_set hnodup hold hid', nodup_set hnodup hold hid'⟩
  · next hnone =>
    have hnew : ∀ other ∈ books, other.id ≠ book.id := by
      simpa using List.findIdx?_eq_none_iff.mp hnone
    refine ⟨content_concat hnew, ?_⟩
    rw [List.map_append, List.map_singleton]
    refine List.nodup_append.mpr ⟨hnodup, List.nodup_singleton _, ?_⟩
    intro id hmem id' hmem' heq
    obtain ⟨other, hother, rfl⟩ := List.mem_map.mp hmem
    exact hnew other hother (heq.trans (List.mem_singleton.mp hmem'))

lemma content_filter (books : List (ListedBook φ)) (keep : ℤ → Bool) (id : ℤ) :
    content (books.filter fun book => keep book.id) id =
      if keep id then content books id else none := by
  rw [content, List.find?_filter]
  by_cases hkeep : keep id = true
  · rw [if_pos hkeep, content]
    congr 1
    funext book
    by_cases hid : book.id = id <;> simp [hid, hkeep]
  · rw [if_neg hkeep, List.find?_eq_none]
    intro book _
    by_cases hid : book.id = id <;> simp [hid, hkeep]

lemma nodup_filter {books : List (ListedBook φ)} (hnodup : (books.map ListedBook.id).Nodup)
    (keep : ListedBook φ → Bool) : ((books.filter keep).map ListedBook.id).Nodup :=
  hnodup.sublist (List.filter_sublist.map ListedBook.id)

/-! ## The backend's history -/

/-- The backend after a change. -/
def Change.apply (shelf : Shelf φ) : Change φ → Shelf φ
  | .changed book => ⟨placeBook shelf.books book.id book, (content_placeBook shelf.nodup).2⟩
  | .removed bookId =>
    ⟨shelf.books.filter fun book => book.id != bookId, nodup_filter shelf.nodup _⟩
  | .reload next => next

/-- The book that an import event carries. -/
def Change.book? : Change φ → Option (ListedBook φ)
  | .changed book => some book
  | _ => none

/-! ## The hook's state -/

/-- A buffered event. -/
inductive PendingChange (φ : Type) where
  | upsert (book : ListedBook φ)
  | removed (bookId : ℤ)

structure LibraryStats where
  bookCount : ℤ
  collectionCount : ℤ
  deriving DecidableEq

/-- Who started a fetch: the first effect, a refresh with the skeleton, or a quiet reload. -/
inductive FetchKind where
  | initial
  | refresh
  | reload
  deriving DecidableEq

/-- A fetch under way. Once its snapshot is read, `seen` counts the changes in it. -/
structure Fetch where
  seq : ℕ
  kind : FetchKind
  seen : Option ℕ := none
  deriving DecidableEq

/-- The backend's history with the number of changes whose events are delivered, the fetches under
way, and the state and references of the hook. -/
structure LibraryData (φ : Type) where
  initial : Shelf φ
  log : List (Change φ) := []
  delivered : ℕ := 0
  inFlight : List Fetch
  books : List (ListedBook φ) := []
  index : List (ℤ × ℕ) := []
  pending : List (PendingChange φ) := []
  flushTimer : Bool := false
  fetchSeq : ℕ
  stats : Option LibraryStats := none
  loading : Bool := true
  error : Option String := none

namespace LibraryData

/-- The hook at its first render: the initial load is under way. -/
def mount (initial : Shelf φ) : LibraryData φ where
  initial
  inFlight := [{ seq := 1, kind := .initial }]
  fetchSeq := 1

/-- The backend after its first `n` changes. -/
def backendAt (s : LibraryData φ) (n : ℕ) : Shelf φ := (s.log.take n).foldl Change.apply s.initial

/-- The backend now. -/
def backend (s : LibraryData φ) : Shelf φ := s.log.foldl Change.apply s.initial

/-- The changes whose events are still under way. -/
def undelivered (s : LibraryData φ) : List (Change φ) := s.log.drop s.delivered

end LibraryData

/-! ## Flushing -/

/-- `Map.set`: a key that is there keeps its place. -/
def mapSet {β : Type} (m : List (ℤ × β)) (key : ℤ) (value : β) : List (ℤ × β) :=
  if m.any (·.1 == key) then m.map fun e => if e.1 == key then (key, value) else e
  else m ++ [(key, value)]

/-- `Map.delete` -/
def mapDelete {β : Type} (m : List (ℤ × β)) (key : ℤ) : List (ℤ × β) := m.filter (·.1 != key)

/-- `Set.add` -/
def setAdd (keys : List ℤ) (key : ℤ) : List ℤ := if keys.contains key then keys else keys ++ [key]

/-- The batch by id: the last event wins. -/
structure Collapsed (φ : Type) where
  upserts : List (ℤ × ListedBook φ) := []
  removedIds : List ℤ := []

def Collapsed.add (c : Collapsed φ) : PendingChange φ → Collapsed φ
  | .upsert book =>
    { upserts := mapSet c.upserts book.id book, removedIds := c.removedIds.filter (· != book.id) }
  | .removed bookId =>
    { upserts := mapDelete c.upserts bookId, removedIds := setAdd c.removedIds bookId }

def collapse (pending : List (PendingChange φ)) : Collapsed φ := pending.foldl Collapsed.add {}

/-- `new Map(next.map((book, index) => [book.id, index]))`, the last of equal keys first. -/
def makeIndex (next : List (ListedBook φ)) : List (ℤ × ℕ) :=
  (next.zipIdx.map fun e => (e.1.id, e.2)).reverse

/-- One upsert of a flush: the index is trusted where it points at the id. -/
def flushUpsert (index : List (ℤ × ℕ)) (next : List (ListedBook φ)) (e : ℤ × ListedBook φ) :
    List (ListedBook φ) :=
  match index.lookup e.1 with
  | some i => if (next[i]?).map ListedBook.id = some e.1 then next.set i e.2
    else placeBook next e.1 e.2
  | none => placeBook next e.1 e.2

namespace LibraryData

def cancelFlushTimer (s : LibraryData φ) : LibraryData φ := { s with flushTimer := false }

def scheduleFlush (s : LibraryData φ) : LibraryData φ := { s with flushTimer := true }

/-- A wholesale fetch supersedes buffered events. -/
def applyFetched (s : LibraryData φ) (next : List (ListedBook φ)) : LibraryData φ :=
  { s.cancelFlushTimer with pending := [], books := next, index := makeIndex next }

def flushPending (s : LibraryData φ) : LibraryData φ :=
  let s := s.cancelFlushTimer
  if s.pending.isEmpty then s
  else
    let collapsed := collapse s.pending
    let patched := collapsed.upserts.foldl (flushUpsert s.index) s.books
    let next :=
      if collapsed.removedIds.isEmpty then patched
      else patched.filter fun book => !collapsed.removedIds.contains book.id
    let removedPresent : ℕ := patched.length - next.length
    { s with
      pending := []
      books := next
      index := makeIndex next
      stats :=
        if removedPresent > 0 then
          s.stats.map fun prev => { prev with bookCount := max 0 (prev.bookCount - removedPresent) }
        else s.stats }

/-! ## Fetching -/

/-- The start of `loadLibrary`. -/
def loadLibrary (s : LibraryData φ) (kind : FetchKind) : LibraryData φ :=
  { s with
    fetchSeq := s.fetchSeq + 1
    inFlight := s.inFlight ++ [{ seq := s.fetchSeq + 1, kind }]
    loading := if kind = .refresh then true else s.loading
    error := if kind = .refresh then none else s.error }

/-- The fetch with that number. -/
def fetch? (s : LibraryData φ) (seq : ℕ) : Option Fetch := s.inFlight.find? (·.seq == seq)

def dropFetch (s : LibraryData φ) (seq : ℕ) : LibraryData φ :=
  { s with inFlight := s.inFlight.filter (·.seq != seq) }

/-- The backend serves the snapshot of a fetch. -/
def serveSnapshot (s : LibraryData φ) (seq : ℕ) : LibraryData φ :=
  { s with
    inFlight := s.inFlight.map fun fetch =>
      if fetch.seq == seq && fetch.seen.isNone then { fetch with seen := some s.log.length }
      else fetch }

/-- A fetch that was served completes. Its result counts while it is the newest one. -/
def fetched (s : LibraryData φ) (seq : ℕ) (stats : LibraryStats) : LibraryData φ :=
  match s.fetch? seq with
  | some { seq := _, kind, seen := some seen } =>
    let s := s.dropFetch seq
    if seq ≠ s.fetchSeq then s
    else
      { s.applyFetched (s.backendAt seen).books with
        stats := some stats
        error := if kind = .initial then s.error else none
        loading := false }
  | _ => s

/-- A fetch fails. -/
def fetchFailed (s : LibraryData φ) (seq : ℕ) (message : String) : LibraryData φ :=
  match s.fetch? seq with
  | some fetch =>
    let s := s.dropFetch seq
    if seq ≠ s.fetchSeq then s
    else
      { s with
        error := if fetch.kind = .reload then s.error else some message
        loading := false }
  | none => s

/-! ## Events -/

/-- An import event that carries the books of the next `n` changes. -/
def onImportProgress (s : LibraryData φ) (n : ℕ) : LibraryData φ :=
  match (s.undelivered.take n).mapM Change.book? with
  | some books =>
    scheduleFlush
      { s with
        delivered := s.delivered + books.length
        pending := s.pending ++ books.map .upsert }
  | none => s

/-- The event of the next change. -/
def onLibraryChanged (s : LibraryData φ) : LibraryData φ :=
  match s.undelivered with
  | [] => s
  | .reload _ :: _ =>
    loadLibrary { s.cancelFlushTimer with delivered := s.delivered + 1, pending := [] } .reload
  | .changed book :: _ =>
    scheduleFlush { s with delivered := s.delivered + 1, pending := s.pending ++ [.upsert book] }
  | .removed bookId :: _ =>
    scheduleFlush { s with delivered := s.delivered + 1, pending := s.pending ++ [.removed bookId] }

/-- What can happen next. An event that is not possible changes nothing. -/
inductive Event (φ : Type) where
  | commit (change : Change φ)
  | importProgress (n : ℕ)
  | libraryChanged
  | refresh
  | snapshot (seq : ℕ)
  | fetched (seq : ℕ) (stats : LibraryStats)
  | failed (seq : ℕ) (message : String)
  | timer

def step (s : LibraryData φ) : Event φ → LibraryData φ
  | .commit change => { s with log := s.log ++ [change] }
  | .importProgress n => s.onImportProgress n
  | .libraryChanged => s.onLibraryChanged
  | .refresh => s.loadLibrary .refresh
  | .snapshot seq => s.serveSnapshot seq
  | .fetched seq stats => s.fetched seq stats
  | .failed seq message => s.fetchFailed seq message
  | .timer => if s.flushTimer then s.flushPending else s

def run (s : LibraryData φ) (events : List (Event φ)) : LibraryData φ := events.foldl step s

/-! ## Convergence -/

/-- Every event is delivered, no fetch is under way, and the buffer is flushed. -/
structure Settled (s : LibraryData φ) : Prop where
  delivered : s.undelivered = []
  fetched : s.inFlight = []
  flushed : s.pending = []

/-- **The list shows the backend's books**, each once, with their latest fields. -/
def Shows (s : LibraryData φ) : Prop := s.books.Perm s.backend.books

/-- A step that starts a fetch. -/
def starts (s : LibraryData φ) : Event φ → Bool
  | .refresh => true
  | .libraryChanged => match s.undelivered with
    | .reload _ :: _ => true
    | _ => false
  | _ => false

/-- A step that loses something: the newest fetch fails, or it completes with a snapshot that does
not have every change whose event was delivered. -/
def spoils (s : LibraryData φ) : Event φ → Bool
  | .fetched seq _ => seq == s.fetchSeq && match s.fetch? seq with
    | some { seq := _, kind := _, seen := some seen } => decide (seen < s.delivered)
    | _ => false
  | .failed seq _ => seq == s.fetchSeq && (s.fetch? seq).isSome
  | _ => false

/-- Whether something is owed after a run: a step lost something, and no fetch was started since. -/
def owes (s : LibraryData φ) (owed : Bool) : List (Event φ) → Bool
  | [] => owed
  | e :: events => (s.step e).owes (if s.starts e then false else owed || s.spoils e) events

end LibraryData

/-! ## What a flush does -/

/-- A buffered event as a patch. -/
def PendingChange.patch : PendingChange φ → Patch ℤ (ListedBook φ)
  | .upsert book => ⟨book.id, some book⟩
  | .removed bookId => ⟨bookId, none⟩

/-- A map without double keys, each entry under the id of its book. -/
structure Keyed (m : List (ℤ × ListedBook φ)) : Prop where
  nodup : (m.map Prod.fst).Nodup
  id_eq : ∀ e ∈ m, e.2.id = e.1

/-- Setting a key that is there keeps the keys. -/
lemma keys_replace (m : List (ℤ × ListedBook φ)) (key : ℤ) (value : ListedBook φ) :
    (m.map fun e => if e.1 == key then (key, value) else e).map Prod.fst = m.map Prod.fst := by
  rw [List.map_map]
  refine List.map_congr_left fun e _ => ?_
  by_cases hkey : e.1 = key <;> simp [hkey]

lemma lookup_replace (m : List (ℤ × ListedBook φ)) (key : ℤ) (value : ListedBook φ) (id : ℤ) :
    (m.map fun e => if e.1 == key then (key, value) else e).lookup id =
      if id = key then (m.lookup id).map fun _ => value else m.lookup id := by
  induction m with
  | nil => simp
  | cons e m ih =>
    obtain ⟨k, v⟩ := e
    rw [List.map_cons, List.lookup_cons, List.lookup_cons, ih]
    by_cases hid : id = k
    · by_cases hk : k = key <;> simp [hid, hk]
    · have hne : (id == k) = false := by simpa using hid
      by_cases hk : k = key
      · subst hk
        simp [hne, hid]
      · simp [hne, hk]

lemma lookup_append_new {m : List (ℤ × ListedBook φ)} {key : ℤ} (value : ListedBook φ)
    (hnew : m.lookup key = none) (id : ℤ) :
    (m ++ [(key, value)]).lookup id = if id = key then some value else m.lookup id := by
  rw [List.lookup_append]
  by_cases hid : id = key
  · simp [hid, hnew]
  · have hne : (id == key) = false := by simpa using hid
    simp [hid, List.lookup_cons, hne]

lemma mem_keys_iff {m : List (ℤ × ListedBook φ)} {key : ℤ} :
    m.any (·.1 == key) = true ↔ (m.lookup key).isSome = true := by
  rw [List.lookup_isSome_iff, List.any_eq_true]
  refine exists_congr fun e => and_congr_right fun _ => ?_
  rw [beq_iff_eq, beq_iff_eq, eq_comm]

lemma lookup_mapSet (m : List (ℤ × ListedBook φ)) (key : ℤ) (value : ListedBook φ) (id : ℤ) :
    (mapSet m key value).lookup id = if id = key then some value else m.lookup id := by
  rw [mapSet]
  split_ifs with hany hid hid
  · obtain ⟨old, hold⟩ := Option.isSome_iff_exists.mp (mem_keys_iff.mp hany)
    rw [lookup_replace, if_pos hid, hid, hold]
    rfl
  · rw [lookup_replace, if_neg hid]
  all_goals
    have hnew : m.lookup key = none := by
      rw [← Option.not_isSome_iff_eq_none]
      exact fun hsome => hany (mem_keys_iff.mpr hsome)
    rw [lookup_append_new value hnew]
    simp [hid]

lemma lookup_mapDelete (m : List (ℤ × ListedBook φ)) (key id : ℤ) :
    (mapDelete m key).lookup id = if id = key then none else m.lookup id := by
  rw [mapDelete]
  induction m with
  | nil => simp
  | cons e m ih =>
    obtain ⟨k, v⟩ := e
    by_cases hk : k = key
    · rw [List.filter_cons_of_neg (by simpa using hk), ih, List.lookup_cons]
      by_cases hid : id = key
      · rw [if_pos hid, if_pos hid]
      · have hne : (id == k) = false := by simpa [hk] using hid
        rw [if_neg hid, if_neg hid, hne]
    · rw [List.filter_cons_of_pos (by simpa using hk), List.lookup_cons, List.lookup_cons, ih]
      by_cases hid : id = k
      · simp [hid, hk]
      · have hne : (id == k) = false := by simpa using hid
        rw [hne]

lemma Keyed.mapSet {m : List (ℤ × ListedBook φ)} (h : Keyed m) (book : ListedBook φ) :
    Keyed (mapSet m book.id book) := by
  rw [Listing.mapSet]
  split_ifs with hany
  · refine ⟨by rw [keys_replace]; exact h.nodup, fun e he => ?_⟩
    obtain ⟨old, hold, rfl⟩ := List.mem_map.mp he
    by_cases hkey : old.1 = book.id
    · simp [hkey]
    · simpa [hkey] using h.id_eq old hold
  · constructor
    · rw [List.map_append]
      refine List.nodup_append.mpr ⟨h.nodup, List.nodup_singleton _,
        fun key hkey key' hkey' heq => ?_⟩
      obtain ⟨e, he, rfl⟩ := List.mem_map.mp hkey
      have hid : e.1 = book.id := heq.trans (by simpa using hkey')
      exact hany (List.any_eq_true.mpr ⟨e, he, by simpa using hid⟩)
    · intro e he
      obtain he | he := List.mem_append.mp he
      · exact h.id_eq e he
      · obtain rfl := List.mem_singleton.mp he
        rfl

lemma Keyed.mapDelete {m : List (ℤ × ListedBook φ)} (h : Keyed m) (key : ℤ) :
    Keyed (mapDelete m key) where
  nodup := h.nodup.sublist (List.filter_sublist.map Prod.fst)
  id_eq e he := h.id_eq e (List.mem_of_mem_filter he)

/-- What a collapsed batch says of an id. -/
def Collapsed.value (c : Collapsed φ) (view : ℤ → Option (ListedBook φ)) (id : ℤ) :
    Option (ListedBook φ) :=
  if c.removedIds.contains id then none else (c.upserts.lookup id).or (view id)

lemma contains_setAdd (keys : List ℤ) (key id : ℤ) :
    (setAdd keys key).contains id = (decide (id = key) || keys.contains id) := by
  rw [setAdd]
  by_cases hmem : keys.contains key = true
  · rw [if_pos hmem]
    by_cases hid : id = key
    · rw [hid, hmem]
      simp
    · simp [hid]
  · rw [if_neg hmem]
    by_cases hid : id = key <;> simp [hid]

/-- Adding an event is applying its patch. -/
lemma value_add (c : Collapsed φ) (change : PendingChange φ) (view : ℤ → Option (ListedBook φ)) :
    (c.add change).value view = Patch.apply (c.value view) change.patch := by
  funext id
  cases change with
  | upsert book =>
    rw [Patch.apply, PendingChange.patch]
    by_cases hid : id = book.id
    · simp [hid, Collapsed.value, Collapsed.add, lookup_mapSet]
    · rw [Function.update_of_ne hid]
      simp [Collapsed.value, Collapsed.add, lookup_mapSet, hid]
  | removed bookId =>
    rw [Patch.apply, PendingChange.patch]
    by_cases hid : id = bookId
    · simp [hid, Collapsed.value, Collapsed.add, contains_setAdd, -List.contains_eq_mem]
    · rw [Function.update_of_ne hid]
      simp [Collapsed.value, Collapsed.add, contains_setAdd, lookup_mapDelete, hid,
        -List.contains_eq_mem]

/-- **A collapsed batch** says what its events say, applied in order. -/
lemma value_collapse (pending : List (PendingChange φ)) (view : ℤ → Option (ListedBook φ)) :
    (collapse pending).value view = Patch.applyAll view (pending.map PendingChange.patch) ∧
      Keyed (collapse pending).upserts := by
  induction pending using List.reverseRecOn with
  | nil => exact ⟨by funext id; simp [collapse, Collapsed.value],
    ⟨by simp [collapse], by simp [collapse]⟩⟩
  | append_singleton pending change ih =>
    obtain ⟨hvalue, hkeyed⟩ := ih
    have hadd : collapse (pending ++ [change]) = (collapse pending).add change := by
      simp [collapse]
    rw [hadd, value_add, hvalue, List.map_append, List.map_singleton, Patch.applyAll_concat]
    refine ⟨rfl, ?_⟩
    cases change with
    | upsert book => exact hkeyed.mapSet book
    | removed bookId => exact hkeyed.mapDelete bookId

/-- One upsert of a flush places its book, whatever the index says. -/
lemma content_flushUpsert (index : List (ℤ × ℕ)) {next : List (ListedBook φ)}
    {e : ℤ × ListedBook φ} (hid : e.2.id = e.1) (hnodup : (next.map ListedBook.id).Nodup) :
    content (flushUpsert index next e) = Function.update (content next) e.1 (some e.2) ∧
      ((flushUpsert index next e).map ListedBook.id).Nodup := by
  have hplace := @content_placeBook _ _ e.2 hnodup
  rw [hid] at hplace
  rw [flushUpsert]
  split
  · next i _ =>
    split_ifs with hat
    · obtain ⟨old, hold, hkey⟩ := Option.map_eq_some_iff.mp hat
      have hset := content_set hnodup hold (hkey.trans hid.symm)
      rw [hid] at hset
      exact ⟨hset, nodup_set hnodup hold (hkey.trans hid.symm)⟩
    · exact hplace
  · exact hplace

/-- The upserts of a flush, in any order. -/
lemma content_foldl_flushUpsert (index : List (ℤ × ℕ)) {m : List (ℤ × ListedBook φ)}
    (h : Keyed m) {next : List (ListedBook φ)} (hnodup : (next.map ListedBook.id).Nodup) :
    content (m.foldl (flushUpsert index) next) = (fun id => (m.lookup id).or (content next id)) ∧
      ((m.foldl (flushUpsert index) next).map ListedBook.id).Nodup := by
  induction m generalizing next with
  | nil => exact ⟨by funext id; simp, hnodup⟩
  | cons e m ih =>
    have hkeys := h.nodup
    rw [List.map_cons, List.nodup_cons] at hkeys
    have hm : Keyed m := ⟨hkeys.2, fun other hother =>
      h.id_eq other (List.mem_cons_of_mem e hother)⟩
    obtain ⟨hcontent, hnodup'⟩ := content_flushUpsert index (h.id_eq e List.mem_cons_self) hnodup
    obtain ⟨hrest, hnodup''⟩ := ih hm hnodup'
    refine ⟨?_, hnodup''⟩
    rw [List.foldl_cons, hrest, hcontent]
    funext id
    by_cases hid : id = e.1
    · have hnone : m.lookup id = none := by
        rw [List.lookup_eq_none_iff]
        intro other hother
        have hne : other.1 ≠ e.1 := fun heq => hkeys.1 (List.mem_map.mpr ⟨other, hother, heq⟩)
        simpa [hid] using hne.symm
      rw [hnone, List.lookup_cons, hid, Function.update_self]
      simp
    · have hne : (id == e.1) = false := by simpa using hid
      rw [Function.update_of_ne hid, List.lookup_cons, hne]

/-- **A flush applies the buffered events in order.** -/
theorem content_flushPending {s : LibraryData φ} (hnodup : (s.books.map ListedBook.id).Nodup) :
    content s.flushPending.books =
        Patch.applyAll (content s.books) (s.pending.map PendingChange.patch) ∧
      (s.flushPending.books.map ListedBook.id).Nodup ∧ s.flushPending.pending = [] := by
  rw [LibraryData.flushPending]
  split_ifs with hempty
  · have hpending : s.pending = [] := List.isEmpty_iff.mp hempty
    refine ⟨?_, hnodup, hpending⟩
    rw [hpending]
    rfl
  · obtain ⟨hvalue, hkeyed⟩ := value_collapse s.pending (content s.books)
    obtain ⟨hpatched, hnodup'⟩ := content_foldl_flushUpsert s.index hkeyed hnodup
    rw [← hvalue]
    refine ⟨?_, ?_, rfl⟩
    · funext id
      change content (if _ then _ else _) id = _
      split_ifs with hremoved
      · have hnone : (collapse s.pending).removedIds = [] := List.isEmpty_iff.mp hremoved
        refine (congrFun hpatched id).trans ?_
        simp [Collapsed.value, hnone]
      · refine (content_filter _ (fun id => !(collapse s.pending).removedIds.contains id)
          id).trans ?_
        have hat := congrFun hpatched id
        cases hmem : (collapse s.pending).removedIds.contains id with
        | false =>
          simp only [Collapsed.value, hmem, Bool.not_false, if_true, Bool.false_eq_true, if_false]
          exact hat
        | true => simp [Collapsed.value, hmem, -List.contains_eq_mem]
    · change ((if _ then _ else _ : List (ListedBook φ)).map ListedBook.id).Nodup
      split_ifs
      · exact hnodup'
      · exact nodup_filter hnodup' _

/-- A flush touches nothing but the list and the buffer. -/
lemma flushPending_frame (s : LibraryData φ) :
    s.flushPending.initial = s.initial ∧ s.flushPending.log = s.log ∧
      s.flushPending.delivered = s.delivered ∧ s.flushPending.inFlight = s.inFlight ∧
      s.flushPending.fetchSeq = s.fetchSeq := by
  rw [LibraryData.flushPending]
  split_ifs <;> exact ⟨rfl, rfl, rfl, rfl, rfl⟩

/-! ## The backend as patches -/

/-- A change as a patch; a reload is announced without one. -/
def Change.patch? : Change φ → Option (Patch ℤ (ListedBook φ))
  | .changed book => some ⟨book.id, some book⟩
  | .removed bookId => some ⟨bookId, none⟩
  | .reload _ => none

/-- None of the changes is a reload. -/
def NoReload (cs : List (Change φ)) : Prop := ∀ c ∈ cs, c.patch?.isSome = true

lemma content_apply {c : Change φ} {p : Patch ℤ (ListedBook φ)} (h : c.patch? = some p)
    (shelf : Shelf φ) : content (c.apply shelf).books = Patch.apply (content shelf.books) p := by
  cases c with
  | changed book =>
    obtain rfl := Option.some.inj h
    exact (content_placeBook shelf.nodup).1
  | removed bookId =>
    obtain rfl := Option.some.inj h
    funext id
    refine (content_filter shelf.books (fun other => other != bookId) id).trans ?_
    rw [Patch.apply]
    by_cases hid : id = bookId
    · simp [hid]
    · simp [hid]
  | reload next => cases h

/-- **Replaying changes** is applying their patches. -/
lemma content_foldl_apply {cs : List (Change φ)} (h : NoReload cs) (shelf : Shelf φ) :
    content (cs.foldl Change.apply shelf).books =
      Patch.applyAll (content shelf.books) (cs.filterMap Change.patch?) := by
  induction cs generalizing shelf with
  | nil => rfl
  | cons c cs ih =>
    obtain ⟨p, hp⟩ := Option.isSome_iff_exists.mp (h c List.mem_cons_self)
    rw [List.foldl_cons, ih (fun other hother => h other (List.mem_cons_of_mem c hother)),
      content_apply hp, List.filterMap_cons_some hp]
    rfl

namespace LibraryData

/-- The list with everything that is buffered or still under way applied to it. -/
def expected (s : LibraryData φ) : ℤ → Option (ListedBook φ) :=
  Patch.applyAll (content s.books)
    (s.pending.map PendingChange.patch ++ s.undelivered.filterMap Change.patch?)

/-- The fetch that was started last is under way. -/
def NewestInFlight (s : LibraryData φ) : Prop := ∃ fetch ∈ s.inFlight, fetch.seq = s.fetchSeq

/-- **The invariant of a run**: when nothing is owed, the newest fetch is under way, or the list
will show the backend once its events are in, unless one of them is a reload. -/
structure Coherent (s : LibraryData φ) (owed : Bool) : Prop where
  delivered : s.delivered ≤ s.log.length
  seen : ∀ fetch ∈ s.inFlight, ∀ seen, fetch.seen = some seen → seen ≤ s.log.length
  seqs : (s.inFlight.map Fetch.seq).Nodup
  started : ∀ fetch ∈ s.inFlight, fetch.seq ≤ s.fetchSeq
  nodup : (s.books.map ListedBook.id).Nodup
  current : owed = false →
    s.NewestInFlight ∨ (NoReload s.undelivered → s.expected = content s.backend.books)

lemma coherent_mount (initial : Shelf φ) : Coherent (mount initial) false where
  delivered := Nat.le_refl _
  seen := by simp [mount]
  seqs := by simp [mount]
  started := by simp [mount]
  nodup := by simp [mount]
  current _ := .inl ⟨_, List.mem_cons_self, rfl⟩

/-- Starting a fetch. -/
lemma Coherent.loadLibrary {s : LibraryData φ} {owed : Bool} (h : s.Coherent owed)
    (kind : FetchKind) (owed' : Bool) : (s.loadLibrary kind).Coherent owed' where
  delivered := h.delivered
  seen fetch hfetch seen hseen := by
    obtain hfetch | hfetch := List.mem_append.mp hfetch
    · exact h.seen fetch hfetch seen hseen
    · obtain rfl := List.mem_singleton.mp hfetch
      cases hseen
  seqs := by
    change ((s.inFlight ++ [_]).map Fetch.seq).Nodup
    rw [List.map_append]
    refine List.nodup_append.mpr ⟨h.seqs, List.nodup_singleton _, fun seq hseq seq' hseq' heq => ?_⟩
    obtain ⟨fetch, hfetch, rfl⟩ := List.mem_map.mp hseq
    have hle := h.started fetch hfetch
    have hnew : seq' = s.fetchSeq + 1 := by simpa using hseq'
    omega
  started fetch hfetch := by
    obtain hfetch | hfetch := List.mem_append.mp hfetch
    · exact Nat.le_succ_of_le (h.started fetch hfetch)
    · obtain rfl := List.mem_singleton.mp hfetch
      exact Nat.le_refl _
  nodup := h.nodup
  current _ := .inl ⟨_, List.mem_append_right _ List.mem_cons_self, rfl⟩

/-- Dropping a fetch that is not the newest. -/
lemma Coherent.dropOld {s : LibraryData φ} {owed : Bool} (h : s.Coherent owed) {seq : ℕ}
    (hseq : seq ≠ s.fetchSeq) : (s.dropFetch seq).Coherent owed where
  delivered := h.delivered
  seen fetch hfetch := h.seen fetch (List.mem_of_mem_filter hfetch)
  seqs := h.seqs.sublist (List.filter_sublist.map Fetch.seq)
  started fetch hfetch := h.started fetch (List.mem_of_mem_filter hfetch)
  nodup := h.nodup
  current howed := by
    obtain ⟨fetch, hfetch, hnewest⟩ | hlist := h.current howed
    · refine .inl ⟨fetch, List.mem_filter.mpr ⟨hfetch, ?_⟩, hnewest⟩
      simpa [hnewest] using hseq.symm
    · exact .inr hlist

/-- **A snapshot with every delivered change** makes the list right. -/
lemma content_snapshot {s : LibraryData φ} {seen : ℕ} (hseen : s.delivered ≤ seen)
    (hnone : NoReload s.undelivered) :
    Patch.applyAll (content (s.backendAt seen).books) (s.undelivered.filterMap Change.patch?) =
      content s.backend.books := by
  have hcut : s.log.take seen =
      s.log.take s.delivered ++ s.undelivered.take (seen - s.delivered) := by
    rw [undelivered, ← List.take_add, Nat.add_sub_cancel' hseen]
  have hsnapshot : content (s.backendAt seen).books =
      Patch.applyAll (content (s.backendAt s.delivered).books)
        ((s.undelivered.take (seen - s.delivered)).filterMap Change.patch?) := by
    rw [backendAt, hcut, List.foldl_append]
    exact content_foldl_apply (fun c hc => hnone c (List.mem_of_mem_take hc)) _
  have hbackend : content s.backend.books =
      Patch.applyAll (content (s.backendAt s.delivered).books)
        (s.undelivered.filterMap Change.patch?) := by
    rw [← content_foldl_apply hnone, backendAt, undelivered, ← List.foldl_append,
      List.take_append_drop, backend]
  have hsplit : s.undelivered.filterMap Change.patch? =
      (s.undelivered.take (seen - s.delivered)).filterMap Change.patch? ++
        (s.undelivered.drop (seen - s.delivered)).filterMap Change.patch? := by
    rw [← List.filterMap_append, List.take_append_drop]
  rw [hsnapshot, hbackend, hsplit]
  exact Patch.applyAll_again _ _ _

/-- A fetch that completes. -/
lemma Coherent.fetched {s : LibraryData φ} {owed : Bool} (h : s.Coherent owed) (seq : ℕ)
    (stats : LibraryStats) :
    (s.fetched seq stats).Coherent (owed || s.spoils (.fetched seq stats)) := by
  have hkeep : s.Coherent (owed || s.spoils (.fetched seq stats)) :=
    { h with current := fun howed => h.current (Bool.or_eq_false_iff.mp howed).1 }
  rw [LibraryData.fetched]
  split
  · next kind seen hfetch =>
    change Coherent (if seq ≠ s.fetchSeq then s.dropFetch seq else _) _
    by_cases hseq : seq ≠ s.fetchSeq
    · rw [if_pos hseq]
      exact hkeep.dropOld hseq
    · rw [if_neg hseq]
      have hnewest : seq = s.fetchSeq := not_not.mp hseq
      refine ⟨h.delivered, fun fetch hmem => h.seen fetch (List.mem_of_mem_filter hmem),
        h.seqs.sublist (List.filter_sublist.map Fetch.seq),
        fun fetch hmem => h.started fetch (List.mem_of_mem_filter hmem),
        (s.backendAt seen).nodup, fun howed => .inr fun hnone => ?_⟩
      have hspoils := (Bool.or_eq_false_iff.mp howed).2
      rw [spoils, hfetch] at hspoils
      have hseen : s.delivered ≤ seen := by simpa [hnewest] using hspoils
      exact content_snapshot hseen hnone
  · exact hkeep

/-- A fetch that fails. -/
lemma Coherent.fetchFailed {s : LibraryData φ} {owed : Bool} (h : s.Coherent owed) (seq : ℕ)
    (message : String) :
    (s.fetchFailed seq message).Coherent (owed || s.spoils (.failed seq message)) := by
  have hkeep : s.Coherent (owed || s.spoils (.failed seq message)) :=
    { h with current := fun howed => h.current (Bool.or_eq_false_iff.mp howed).1 }
  rw [LibraryData.fetchFailed]
  split
  · next fetch hfetch =>
    change Coherent (if seq ≠ s.fetchSeq then s.dropFetch seq else _) _
    by_cases hseq : seq ≠ s.fetchSeq
    · rw [if_pos hseq]
      exact hkeep.dropOld hseq
    · rw [if_neg hseq]
      have hnewest : seq = s.fetchSeq := not_not.mp hseq
      refine ⟨h.delivered, fun fetch hmem => h.seen fetch (List.mem_of_mem_filter hmem),
        h.seqs.sublist (List.filter_sublist.map Fetch.seq),
        fun fetch hmem => h.started fetch (List.mem_of_mem_filter hmem), h.nodup, fun howed => ?_⟩
      have hspoils := (Bool.or_eq_false_iff.mp howed).2
      rw [spoils, hfetch] at hspoils
      simp [hnewest] at hspoils
  · exact hkeep

/-- The backend serves a snapshot. -/
lemma Coherent.serveSnapshot {s : LibraryData φ} {owed : Bool} (h : s.Coherent owed) (seq : ℕ) :
    (s.serveSnapshot seq).Coherent owed := by
  have hseq : (s.serveSnapshot seq).inFlight.map Fetch.seq = s.inFlight.map Fetch.seq := by
    change (s.inFlight.map _).map Fetch.seq = _
    rw [List.map_map]
    refine List.map_congr_left fun fetch _ => ?_
    rw [Function.comp_apply]
    split_ifs <;> rfl
  have hmem {n : ℕ} : n ∈ (s.serveSnapshot seq).inFlight.map Fetch.seq ↔
      n ∈ s.inFlight.map Fetch.seq := by rw [hseq]
  refine ⟨h.delivered, ?_, by rw [hseq]; exact h.seqs, ?_, h.nodup, fun howed => ?_⟩
  · intro fetch hfetch seen hseen
    obtain ⟨old, hold, rfl⟩ := List.mem_map.mp hfetch
    split_ifs at hseen
    · obtain rfl := Option.some.inj hseen
      exact Nat.le_refl _
    · exact h.seen old hold seen hseen
  · intro fetch hfetch
    obtain ⟨old, hold, heq⟩ := List.mem_map.mp (hmem.mp (List.mem_map.mpr ⟨fetch, hfetch, rfl⟩))
    rw [← heq]
    exact h.started old hold
  · obtain ⟨fetch, hfetch, hnewest⟩ | hlist := h.current howed
    · obtain ⟨now, hnow, heq⟩ := List.mem_map.mp (hmem.mpr (List.mem_map.mpr ⟨fetch, hfetch, rfl⟩))
      exact .inl ⟨now, hnow, heq.trans hnewest⟩
    · exact .inr hlist

/-- The backend changes. -/
lemma Coherent.commit {s : LibraryData φ} {owed : Bool} (h : s.Coherent owed)
    (change : Change φ) : (s.step (.commit change)).Coherent owed := by
  have hlength : (s.log ++ [change]).length = s.log.length + 1 := by simp
  refine ⟨?_, ?_, h.seqs, h.started, h.nodup, fun howed => ?_⟩
  · change s.delivered ≤ (s.log ++ [change]).length
    rw [hlength]
    exact Nat.le_succ_of_le h.delivered
  · intro fetch hfetch seen hseen
    change seen ≤ (s.log ++ [change]).length
    rw [hlength]
    exact Nat.le_succ_of_le (h.seen fetch hfetch seen hseen)
  · refine (h.current howed).imp id fun hlist hnone => ?_
    have hundelivered : (s.step (.commit change)).undelivered = s.undelivered ++ [change] :=
      List.drop_append_of_le_length h.delivered
    rw [hundelivered] at hnone
    have hold : NoReload s.undelivered := fun c hc => hnone c (List.mem_append_left _ hc)
    obtain ⟨p, hp⟩ := Option.isSome_iff_exists.mp
      (hnone change (List.mem_append_right _ List.mem_cons_self))
    have hexpected : (s.step (.commit change)).expected = Patch.apply s.expected p := by
      have hpatches : (s.step (.commit change)).undelivered.filterMap Change.patch? =
          s.undelivered.filterMap Change.patch? ++ [p] := by
        rw [hundelivered, List.filterMap_append, List.filterMap_cons_some hp, List.filterMap_nil]
      rw [expected, hpatches, ← List.append_assoc, Patch.applyAll_concat]
      rfl
    have hbackend : (s.step (.commit change)).backend = change.apply s.backend := by
      change (s.log ++ [change]).foldl Change.apply s.initial = _
      rw [List.foldl_append]
      rfl
    rw [hexpected, hlist hold, hbackend, content_apply hp]

/-- Events that move from the way into the buffer leave the list as expected. -/
lemma Coherent.buffer {s : LibraryData φ} {owed : Bool} (h : s.Coherent owed)
    {cs later : List (Change φ)} {buffered : List (PendingChange φ)}
    (hcs : s.undelivered = cs ++ later) (hreload : NoReload cs)
    (hpatch : cs.filterMap Change.patch? = buffered.map PendingChange.patch) :
    (scheduleFlush { s with
      delivered := s.delivered + cs.length
      pending := s.pending ++ buffered }).Coherent owed := by
  have hdrop : s.log.drop (s.delivered + cs.length) = later := by
    rw [← List.drop_drop]
    change s.undelivered.drop cs.length = later
    rw [hcs, List.drop_left]
  have hlength : s.delivered + cs.length ≤ s.log.length := by
    have hle := congrArg List.length hcs
    rw [undelivered, List.length_append, List.length_drop] at hle
    have hdelivered := h.delivered
    omega
  refine ⟨hlength, h.seen, h.seqs, h.started, h.nodup, fun howed => ?_⟩
  refine (h.current howed).imp id fun hlist hnone => ?_
  have hlater : NoReload later := by
    rw [← hdrop]
    exact hnone
  have hall : NoReload s.undelivered := by
    rw [hcs]
    exact fun c hc => (List.mem_append.mp hc).elim (hreload c) (hlater c)
  refine Eq.trans ?_ (hlist hall)
  change Patch.applyAll (content s.books) ((s.pending ++ buffered).map PendingChange.patch ++
    (s.log.drop (s.delivered + cs.length)).filterMap Change.patch?) = s.expected
  rw [hdrop, expected, hcs, List.filterMap_append, hpatch, List.map_append, List.append_assoc]

/-- An import event carries changed books only. -/
lemma eq_map_of_mapM_book? {cs : List (Change φ)} {books : List (ListedBook φ)}
    (h : cs.mapM Change.book? = some books) : cs = books.map .changed := by
  induction cs generalizing books with
  | nil =>
    obtain rfl : [] = books := by simpa using h
    rfl
  | cons c cs ih =>
    simp only [List.mapM_cons, Option.bind_eq_bind, Option.bind_eq_some_iff, Option.pure_def,
      Option.some.injEq] at h
    obtain ⟨book, hbook, rest, hrest, rfl⟩ := h
    cases c with
    | changed other =>
      obtain rfl := Option.some.inj hbook
      rw [ih hrest]
      rfl
    | removed bookId => cases hbook
    | reload next => cases hbook

/-- An import event arrives. -/
lemma Coherent.onImportProgress {s : LibraryData φ} {owed : Bool} (h : s.Coherent owed) (n : ℕ) :
    (s.onImportProgress n).Coherent owed := by
  rw [LibraryData.onImportProgress]
  split
  · next books hbooks =>
    have hchanges := eq_map_of_mapM_book? hbooks
    have hlength : books.length = (books.map (Change.changed (φ := φ))).length := by simp
    rw [hlength]
    have hdelivered : s.undelivered = books.map .changed ++ s.undelivered.drop n := by
      rw [← hchanges, List.take_append_drop]
    refine h.buffer hdelivered ?_ ?_
    · intro c hc
      obtain ⟨book, -, rfl⟩ := List.mem_map.mp hc
      rfl
    · rw [List.filterMap_map, List.map_map]
      exact congrFun (List.filterMap_eq_map (f := PendingChange.patch ∘ .upsert)) books
  · exact h

/-- The event of one change arrives. -/
lemma Coherent.onLibraryChanged {s : LibraryData φ} {owed : Bool} (h : s.Coherent owed) :
    s.onLibraryChanged.Coherent (if s.starts .libraryChanged then false else owed) := by
  cases hcs : s.undelivered with
  | nil =>
    simp only [LibraryData.onLibraryChanged, starts, hcs, Bool.false_eq_true, if_false]
    exact h
  | cons c later =>
    cases c with
    | changed book =>
      simp only [LibraryData.onLibraryChanged, starts, hcs, Bool.false_eq_true, if_false]
      exact @Coherent.buffer _ _ _ h [.changed book] _ [.upsert book] hcs
        (by simp [NoReload, Change.patch?]) rfl
    | removed bookId =>
      simp only [LibraryData.onLibraryChanged, starts, hcs, Bool.false_eq_true, if_false]
      exact @Coherent.buffer _ _ _ h [.removed bookId] _ [.removed bookId] hcs
        (by simp [NoReload, Change.patch?]) rfl
    | reload next =>
      simp only [LibraryData.onLibraryChanged, starts, hcs, if_true]
      have hlength : s.delivered + 1 ≤ s.log.length := by
        have hle := congrArg List.length hcs
        rw [undelivered, List.length_cons, List.length_drop] at hle
        omega
      have hcleared : Coherent { s.cancelFlushTimer with
          delivered := s.delivered + 1
          pending := [] } true :=
        ⟨hlength, h.seen, h.seqs, h.started, h.nodup, fun howed => absurd howed (by decide)⟩
      exact hcleared.loadLibrary .reload false

/-- The buffer is flushed. -/
lemma Coherent.flushPending {s : LibraryData φ} {owed : Bool} (h : s.Coherent owed) :
    s.flushPending.Coherent owed := by
  obtain ⟨hcontent, hnodup, hpending⟩ := content_flushPending h.nodup
  obtain ⟨hinitial, hlog, hdelivered, hinFlight, hseq⟩ := flushPending_frame s
  have hundelivered : s.flushPending.undelivered = s.undelivered := by
    rw [undelivered, undelivered, hlog, hdelivered]
  have hbackend : s.flushPending.backend = s.backend := by rw [backend, backend, hlog, hinitial]
  refine ⟨by rw [hdelivered, hlog]; exact h.delivered, by rw [hinFlight, hlog]; exact h.seen,
    by rw [hinFlight]; exact h.seqs, by rw [hinFlight, hseq]; exact h.started, hnodup,
    fun howed => ?_⟩
  rw [NewestInFlight, hinFlight, hseq, hundelivered, hbackend]
  refine (h.current howed).imp id fun hlist hnone => ?_
  rw [← hlist hnone, expected, expected, hundelivered, hpending, hcontent, ← Patch.applyAll_append]
  rfl

/-- **One step keeps the invariant.** -/
theorem Coherent.step {s : LibraryData φ} {owed : Bool} (h : s.Coherent owed) (e : Event φ) :
    (s.step e).Coherent (if s.starts e then false else owed || s.spoils e) := by
  cases e with
  | commit change =>
    simp only [starts, spoils, Bool.false_eq_true, if_false, Bool.or_false]
    exact h.commit change
  | importProgress n =>
    simp only [starts, spoils, Bool.false_eq_true, if_false, Bool.or_false]
    exact h.onImportProgress n
  | libraryChanged =>
    have hspoils : s.spoils .libraryChanged = false := rfl
    rw [hspoils, Bool.or_false]
    exact h.onLibraryChanged
  | refresh => exact h.loadLibrary .refresh _
  | snapshot seq =>
    simp only [starts, spoils, Bool.false_eq_true, if_false, Bool.or_false]
    exact h.serveSnapshot seq
  | fetched seq stats => exact h.fetched seq stats
  | failed seq message => exact h.fetchFailed seq message
  | timer =>
    simp only [starts, spoils, Bool.false_eq_true, if_false, Bool.or_false, LibraryData.step]
    split_ifs
    · exact h.flushPending
    · exact h

/-- **A run keeps the invariant.** -/
theorem Coherent.run (events : List (Event φ)) {s : LibraryData φ} {owed : Bool}
    (h : s.Coherent owed) : (s.run events).Coherent (s.owes owed events) := by
  induction events generalizing s owed with
  | nil => exact h
  | cons e events ih => exact ih (h.step e)

end LibraryData

/-- **The list converges.** Once every event is delivered, no fetch is under way and the buffer is
flushed, the list shows the backend's books, in every run that owes nothing. -/
theorem converges (initial : Shelf φ) (events : List (LibraryData.Event φ))
    (howed : (LibraryData.mount initial).owes false events = false)
    (hsettled : ((LibraryData.mount initial).run events).Settled) :
    ((LibraryData.mount initial).run events).Shows := by
  have hcoherent := (LibraryData.coherent_mount initial).run events
  have hnone : NoReload ((LibraryData.mount initial).run events).undelivered := by
    rw [hsettled.delivered]
    exact fun c hc => absurd hc List.not_mem_nil
  obtain ⟨fetch, hfetch, -⟩ | hlist := hcoherent.current howed
  · rw [hsettled.fetched] at hfetch
    exact absurd hfetch List.not_mem_nil
  · refine perm_of_content hcoherent.nodup (Shelf.nodup _) ?_
    rw [← hlist hnone, LibraryData.expected, hsettled.delivered, hsettled.flushed]
    rfl

/-- One book on the shelf of the backend. -/
def oneBook : Shelf ℕ := ⟨[⟨1, 0⟩], by decide⟩

/-- The initial load, a change of the book, and its flush. -/
def followed : List (LibraryData.Event ℕ) :=
  [.snapshot 1, .fetched 1 ⟨1, 0⟩, .commit (.changed ⟨1, 5⟩), .libraryChanged, .timer]

theorem converges_followed : ((LibraryData.mount oneBook).run followed).Shows :=
  converges oneBook followed (by decide) ⟨by decide, by decide, by decide⟩

/-- The initial load is read, the book changes and its event is buffered, and the load completes. -/
def overtaken : List (LibraryData.Event ℕ) :=
  [.snapshot 1, .commit (.changed ⟨1, 5⟩), .libraryChanged, .fetched 1 ⟨1, 0⟩]

/-- The change that was announced while the load was under way is lost. -/
theorem not_shows_overtaken :
    ((LibraryData.mount oneBook).run overtaken).Settled ∧
      ¬((LibraryData.mount oneBook).run overtaken).Shows := by
  refine ⟨⟨rfl, rfl, rfl⟩, ?_⟩
  have hbooks : ((LibraryData.mount oneBook).run overtaken).books = [⟨1, 0⟩] := rfl
  have hbackend : ((LibraryData.mount oneBook).run overtaken).backend.books = [⟨1, 5⟩] := rfl
  rw [LibraryData.Shows, hbooks, hbackend]
  decide

end Listing

end TuxBooks
