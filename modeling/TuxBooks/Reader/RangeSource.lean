import Mathlib.Data.List.DropRight
import TuxBooks.Lib.LruCache
import TuxBooks.Shell.BookProtocol

set_option relaxedAutoImplicit false
set_option autoImplicit false

/-!
# Reading a PDF by ranges

`frontend/src/lib/pdf/pdfRangeSource.ts` gives PDFium the bytes of a book at any position. It asks
the protocol handler for chunks, and keeps the chunks that were used last.

Positions and lengths are natural numbers. The size of the file cuts off every sum of them, so that
what JavaScript rounds is cut off too.

## Main definitions

* `TuxBooks.RangeSource.PdfRangeSource`, `TuxBooks.RangeSource.State` — a source and what it keeps.
* `TuxBooks.RangeSource.read` — one call of PDFium.
* `TuxBooks.RangeSource.bookSource` — the source of a book over the protocol.
* `TuxBooks.RangeSource.Meets` — a call that wrote and returned what is in the file.

## Main results

* `TuxBooks.RangeSource.copy_spec` — the loop writes the bytes between its cursor and its end.
* `TuxBooks.RangeSource.reads_meet` — a source whose fetches are the bytes of a file reads the file.
* `TuxBooks.RangeSource.reads_iff` — when every call over the protocol reads the file.
-/

namespace TuxBooks

namespace RangeSource

open BookFiles (Library Content Book)
open BookProtocol

/-! ## Fetching -/

/-- The one shape of URL that is read. -/
structure BookUrl where
  id : ℕ
  format : String
  deriving DecidableEq

def BookUrl.text (url : BookUrl) : String := s!"tuxbooks://book/{url.id}?format={url.format}"

/-- The header `content-range` is the only one that is kept. -/
structure RangeResponse where
  status : ℕ
  body : List UInt8
  contentRange : Option (List Char)
  deriving DecidableEq

abbrev RangeFetcher := BookUrl → List Char → RangeResponse

/-- One request to a handler with the `Range` header. -/
def xhrRangeFetcher (handler : BookUrl → Option (List Char) → Response) : RangeFetcher :=
  fun url range =>
    let response := handler url (some range)
    { status := response.status
      body := response.body
      contentRange := response.headers.lookup "content-range" }

/-- The capture of `/\/(\d+)$/`, as a number. -/
def contentRangeTotal (text : List Char) : Option ℕ :=
  if (text.rdropWhile Char.isDigit).getLast? = some '/' then
    Decimal.digits? (text.rtakeWhile Char.isDigit)
  else none

/-! ## The source -/

/-- A source, with its two bounds. -/
structure PdfRangeSource where
  url : BookUrl
  fetchRange : RangeFetcher
  chunkBytes : ℕ
  maxChunks : ℕ
  chunkBytes_pos : 0 < chunkBytes
  maxChunks_pos : 0 < maxChunks

/-- The size once it is known, and the cached chunks. -/
structure State where
  size : Option ℕ := none
  chunks : LruCache ℕ (List UInt8) := ∅

/-- The size of the file, from the answer to a range of one byte. -/
def fileSize (source : PdfRangeSource) (s : State) : Except String ℕ × State :=
  match s.size with
  | some size => (.ok size, s)
  | none =>
    let response := source.fetchRange source.url "bytes=0-0".toList
    if response.status = 206 then
      match contentRangeTotal (response.contentRange.getD []) with
      | none => (.error "range response missing content-range total", s)
      | some total => (.ok total, { s with size := some total })
    else if response.status = 200 then
      -- The handler knows no ranges: the body is the whole file.
      (.ok response.body.length,
        { size := some response.body.length
          chunks := if 0 < response.body.length then s.chunks.insert 0 response.body
            else s.chunks })
    else (.error s!"failed to stat {source.url.text}: {response.status}", s)

/-- The chunk of an index below the end of the file, from the cache or from the handler. -/
def chunk (source : PdfRangeSource) (s : State) (chunkIndex total : ℕ) :
    Except String (List UInt8) × State :=
  match s.chunks.lookup chunkIndex with
  | some cached => (.ok cached, { s with chunks := s.chunks.insert chunkIndex cached })
  | none =>
    let start := chunkIndex * source.chunkBytes
    let stop := min (start + source.chunkBytes) total - 1
    let response := source.fetchRange source.url (rangeText start stop)
    if response.status = 206 then
      (.ok response.body,
        { s with chunks := s.chunks.put source.maxChunks chunkIndex response.body })
    else if response.status = 200 then
      let body := (response.body.drop start).take (stop + 1 - start)
      (.ok body, { s with chunks := s.chunks.put source.maxChunks chunkIndex body })
    else (.error s!"failed to read {source.url.text}@{start}-{stop}: {response.status}", s)

/-- A memory with bytes at an offset. -/
def written (memory : List UInt8) (offset : ℕ) (bytes : List UInt8) : List UInt8 :=
  memory.take offset ++ bytes ++ memory.drop (offset + bytes.length)

/-- `memory.set`, which throws when the bytes do not fit. -/
def setBytes (memory : List UInt8) (offset : ℕ) (bytes : List UInt8) :
    Except String (List UInt8) :=
  if offset + bytes.length ≤ memory.length then .ok (written memory offset bytes)
  else .error "offset is out of bounds"

/-- The loop of `read` from a cursor on. -/
def copy (source : PdfRangeSource) (total offset position stop cursor : ℕ)
    (memory : List UInt8) (s : State) : Except String Unit × List UInt8 × State :=
  if cursor < stop then
    let chunkIndex := cursor / source.chunkBytes
    match chunk source s chunkIndex total with
    | (.error e, s') => (.error e, memory, s')
    | (.ok bytes, s') =>
      let skipped := cursor - chunkIndex * source.chunkBytes
      let count := min (stop - cursor) (bytes.length - skipped)
      if count = 0 then
        (.error s!"range read stalled at {source.url.text}@{cursor}", memory, s')
      else
        match setBytes memory (offset + (cursor - position)) ((bytes.drop skipped).take count) with
        | .error e => (.error e, memory, s')
        | .ok memory' => copy source total offset position stop (cursor + count) memory' s'
  else (.ok (), memory, s)
termination_by stop - cursor
decreasing_by
  have hpos : 0 < count := Nat.pos_of_ne_zero ‹_›
  exact Nat.sub_lt_sub_left ‹_› (Nat.lt_add_of_pos_right hpos)

/-- One call: the memory has room for what is asked for. -/
structure Request where
  memory : List UInt8
  offset : ℕ
  length : ℕ
  position : ℕ
  room : offset + length ≤ memory.length

/-- How a call ends: the number returned or the error thrown, the memory, and the source. -/
structure Outcome where
  value : Except String ℕ
  memory : List UInt8
  state : State

/-- The bytes at a position, cut off at the end of the file. -/
def read (source : PdfRangeSource) (s : State) (request : Request) : Outcome :=
  match fileSize source s with
  | (.error e, s') => { value := .error e, memory := request.memory, state := s' }
  | (.ok total, s') =>
    if total ≤ request.position then { value := .ok 0, memory := request.memory, state := s' }
    else
      let stop := min (request.position + request.length) total
      match copy source total request.offset request.position stop request.position
          request.memory s' with
      | (.error e, memory, s'') => { value := .error e, memory := memory, state := s'' }
      | (.ok _, memory, s'') =>
        { value := .ok (stop - request.position), memory := memory, state := s'' }

/-- Calls one after the other. -/
def reads (source : PdfRangeSource) : State → List Request → List Outcome
  | _, [] => []
  | s, request :: requests =>
    let outcome := read source s request
    outcome :: reads source outcome.state requests

/-- The call wrote what the file has from the position up to the end of the span or of the file,
returned its number, and left no more chunks than the bound. -/
structure Meets (bytes : List UInt8) (maxChunks : ℕ) (request : Request) (outcome : Outcome) :
    Prop where
  value : outcome.value =
    .ok (min (request.position + request.length) bytes.length - request.position)
  memory : outcome.memory = written request.memory request.offset
    ((bytes.drop request.position).take
      (min (request.position + request.length) bytes.length - request.position))
  bound : outcome.state.chunks.entries.length ≤ maxChunks

/-! ## Writing -/

@[simp] lemma written_nil (memory : List UInt8) (offset : ℕ) :
    written memory offset [] = memory := by
  simp [written]

lemma length_written {memory bytes : List UInt8} {offset : ℕ}
    (hroom : offset + bytes.length ≤ memory.length) :
    (written memory offset bytes).length = memory.length := by
  simp only [written, List.length_append, List.length_take, List.length_drop]
  omega

/-- Two writes, the second where the first ends, are one. -/
lemma written_append {memory left right : List UInt8} {offset : ℕ}
    (hroom : offset + left.length ≤ memory.length) :
    written (written memory offset left) (offset + left.length) right =
      written memory offset (left ++ right) := by
  have hlength : (memory.take offset ++ left).length = offset + left.length := by
    rw [List.length_append, List.length_take]
    omega
  have htake : (written memory offset left).take (offset + left.length) =
      memory.take offset ++ left := by
    rw [written, ← hlength, List.take_left]
  have hdrop : (written memory offset left).drop (offset + left.length + right.length) =
      memory.drop (offset + left.length + right.length) := by
    rw [written, ← hlength, ← List.drop_drop, List.drop_left, List.drop_drop, hlength]
  rw [written, htake, hdrop, written, List.length_append, ← Nat.add_assoc]
  simp

/-! ## Chunks of a file -/

/-- A chunk begins at its index and covers its part of the file. -/
structure Covers (bytes : List UInt8) (chunkBytes chunkIndex : ℕ) (body : List UInt8) : Prop where
  inside : chunkIndex * chunkBytes < bytes.length
  isPrefix : body <+: bytes.drop (chunkIndex * chunkBytes)
  full : min chunkBytes (bytes.length - chunkIndex * chunkBytes) ≤ body.length

/-- What the loop copies out of the chunk of its cursor is what the file has there, and it is not
empty. -/
lemma Covers.copied {bytes body : List UInt8} {chunkBytes cursor : ℕ} (hpos : 0 < chunkBytes)
    (h : Covers bytes chunkBytes (cursor / chunkBytes) body) (hcursor : cursor < bytes.length) :
    0 < body.length - (cursor - cursor / chunkBytes * chunkBytes) ∧
      ∀ count ≤ body.length - (cursor - cursor / chunkBytes * chunkBytes),
        (body.drop (cursor - cursor / chunkBytes * chunkBytes)).take count =
          (bytes.drop cursor).take count := by
  have hfloor : cursor / chunkBytes * chunkBytes ≤ cursor := Nat.div_mul_le_self _ _
  have hceil : cursor < cursor / chunkBytes * chunkBytes + chunkBytes := by
    have hlt := Nat.lt_div_mul_add (a := cursor) hpos
    exact hlt
  have hinside := h.inside
  have hfull := h.full
  obtain ⟨rest, hrest⟩ := h.isPrefix
  generalize cursor / chunkBytes * chunkBytes = start at *
  refine ⟨by omega, fun count hcount => ?_⟩
  have hdrop : bytes.drop cursor = (bytes.drop start).drop (cursor - start) := by
    rw [List.drop_drop]
    congr 1
    omega
  rw [hdrop, ← hrest, List.drop_append_of_le_length (by omega),
    List.take_append_of_le_length (by rw [List.length_drop]; exact hcount)]

/-! ## Refused requests -/

section Refused

variable {source : PdfRangeSource} {s : State}

lemma fileSize_refused (hsize : s.size = none)
    (hstatus : (source.fetchRange source.url "bytes=0-0".toList).status = 416) :
    ∃ e, fileSize source s = (.error e, s) := by
  unfold fileSize
  rw [hsize]
  dsimp only
  rw [if_neg (by rw [hstatus]; decide), if_neg (by rw [hstatus]; decide)]
  exact ⟨_, rfl⟩

lemma chunk_refused {chunkIndex total : ℕ} (hlookup : s.chunks.lookup chunkIndex = none)
    (hstatus : (source.fetchRange source.url (rangeText (chunkIndex * source.chunkBytes)
      (min (chunkIndex * source.chunkBytes + source.chunkBytes) total - 1))).status = 416) :
    ∃ e, chunk source s chunkIndex total = (.error e, s) := by
  unfold chunk
  rw [hlookup]
  dsimp only
  rw [if_neg (by rw [hstatus]; decide), if_neg (by rw [hstatus]; decide)]
  exact ⟨_, rfl⟩

end Refused

/-! ## Faithful sources -/

section Faithful

variable {source : PdfRangeSource} {bytes : List UInt8} {s : State}

/-- Every fetch within the file is answered with the bytes that were asked for, or with the whole
file. -/
structure Faithful (source : PdfRangeSource) (bytes : List UInt8) : Prop where
  stat : ((source.fetchRange source.url "bytes=0-0".toList).status = 206 ∧
      contentRangeTotal ((source.fetchRange source.url "bytes=0-0".toList).contentRange.getD []) =
        some bytes.length) ∨
    ((source.fetchRange source.url "bytes=0-0".toList).status = 200 ∧
      (source.fetchRange source.url "bytes=0-0".toList).body = bytes)
  chunk : ∀ start stop, start ≤ stop → stop < bytes.length →
    ((source.fetchRange source.url (rangeText start stop)).status = 206 ∧
        (source.fetchRange source.url (rangeText start stop)).body =
          (bytes.drop start).take (stop + 1 - start)) ∨
      ((source.fetchRange source.url (rangeText start stop)).status = 200 ∧
        (source.fetchRange source.url (rangeText start stop)).body = bytes)

/-- What a source knows of the file is right, and its cache is within the bound. -/
structure Invariant (source : PdfRangeSource) (bytes : List UInt8) (s : State) : Prop where
  size : ∀ size, s.size = some size → size = bytes.length
  fresh : s.size = none → s.chunks = ∅
  chunks : s.chunks.All (Covers bytes source.chunkBytes)
  bound : s.chunks.entries.length ≤ source.maxChunks

lemma invariant_new : Invariant source bytes {} where
  size := by simp
  fresh _ := rfl
  chunks := LruCache.All.empty
  bound := Nat.zero_le _

/-- The size is that of the file. -/
lemma fileSize_spec (hsource : Faithful source bytes) (hs : Invariant source bytes s) :
    ∃ s', fileSize source s = (.ok bytes.length, s') ∧ Invariant source bytes s' ∧
      s'.size = some bytes.length := by
  unfold fileSize
  cases hsize : s.size with
  | some size =>
    obtain rfl := hs.size size hsize
    exact ⟨s, rfl, hs, hsize⟩
  | none =>
    have hempty := hs.fresh hsize
    dsimp only
    rcases hsource.stat with ⟨hstatus, htotal⟩ | ⟨hstatus, hbody⟩
    · refine ⟨{ s with size := some bytes.length }, ?_, ?_, rfl⟩
      · rw [if_pos hstatus, htotal]
      · exact { size := by simp, fresh := by simp, chunks := hs.chunks, bound := hs.bound }
    · rw [if_neg (by rw [hstatus]; decide), if_pos hstatus, hbody, hempty]
      refine ⟨_, rfl, ⟨by simp, by simp, ?_, ?_⟩, rfl⟩
      · split_ifs with hne
        · refine LruCache.All.empty.insert ⟨by omega, by simp, by simp⟩
        · exact LruCache.All.empty
      · have hmax := source.maxChunks_pos
        split_ifs with hne
        · simp
          omega
        · exact Nat.zero_le _

/-- The chunk of an index within the file covers its part of it. -/
lemma chunk_spec (hsource : Faithful source bytes) (hs : Invariant source bytes s)
    (hsize : s.size = some bytes.length) {chunkIndex : ℕ}
    (hinside : chunkIndex * source.chunkBytes < bytes.length) :
    ∃ body s', chunk source s chunkIndex bytes.length = (.ok body, s') ∧
      Covers bytes source.chunkBytes chunkIndex body ∧ Invariant source bytes s' ∧
      s'.size = some bytes.length := by
  have hpos := source.chunkBytes_pos
  have hkept : ∀ chunks : LruCache ℕ (List UInt8), chunks.All (Covers bytes source.chunkBytes) →
      chunks.entries.length ≤ source.maxChunks →
      Invariant source bytes { s with chunks := chunks } := by
    intro chunks hchunks hbound
    exact { size := hs.size, fresh := by simp [hsize], chunks := hchunks, bound := hbound }
  unfold chunk
  cases hlookup : s.chunks.lookup chunkIndex with
  | some cached =>
    have hcovers := hs.chunks _ _ hlookup
    refine ⟨cached, _, rfl, hcovers, hkept _ (hs.chunks.insert hcovers) ?_, hsize⟩
    rw [LruCache.length_insert_of_lookup hlookup]
    exact hs.bound
  | none =>
    dsimp only
    set start := chunkIndex * source.chunkBytes with hstart
    set stop := min (start + source.chunkBytes) bytes.length - 1 with hstop
    have hcovers : Covers bytes source.chunkBytes chunkIndex
        ((bytes.drop start).take (stop + 1 - start)) := by
      refine ⟨hinside, List.take_prefix _ _, ?_⟩
      rw [List.length_take, List.length_drop]
      omega
    rcases hsource.chunk start stop (by omega) (by omega) with ⟨hstatus, hbody⟩ | ⟨hstatus, hbody⟩
    · rw [if_pos hstatus, hbody]
      exact ⟨_, _, rfl, hcovers, hkept _ (hs.chunks.put hcovers) LruCache.length_put_le, hsize⟩
    · rw [if_neg (by rw [hstatus]; decide), if_pos hstatus, hbody]
      exact ⟨_, _, rfl, hcovers, hkept _ (hs.chunks.put hcovers) LruCache.length_put_le, hsize⟩

/-- **The loop writes the bytes between its cursor and its end**, and it ends.

The induction is on the number of bytes that are left; the chunk of the cursor has at least one of
them. -/
theorem copy_spec (hsource : Faithful source bytes) {offset position stop : ℕ}
    (hstop : stop ≤ bytes.length) :
    ∀ (left cursor : ℕ) (memory : List UInt8) (s : State), stop - cursor = left →
      position ≤ cursor → cursor ≤ stop → offset + (stop - position) ≤ memory.length →
      Invariant source bytes s → s.size = some bytes.length →
      ∃ s', copy source bytes.length offset position stop cursor memory s =
          (.ok (), written memory (offset + (cursor - position))
            ((bytes.drop cursor).take (stop - cursor)), s') ∧
        Invariant source bytes s' ∧ s'.size = some bytes.length := by
  intro left
  induction left using Nat.strong_induction_on with
  | _ left ih =>
    intro cursor memory s hleft hposition hcursor hroom hs hsize
    rw [copy]
    rcases Nat.lt_or_ge cursor stop with hlt | hge
    · have hinside : cursor / source.chunkBytes * source.chunkBytes < bytes.length :=
        lt_of_le_of_lt (Nat.div_mul_le_self _ _) (by omega)
      obtain ⟨body, s', hchunk, hcovers, hs', hsize'⟩ := chunk_spec hsource hs hsize hinside
      obtain ⟨hsome, hcopied⟩ := hcovers.copied source.chunkBytes_pos (by omega)
      set available := body.length - (cursor - cursor / source.chunkBytes * source.chunkBytes)
      set count := min (stop - cursor) available with hcount
      have hbytes := hcopied count (Nat.min_le_right _ _)
      have hlength : ((bytes.drop cursor).take count).length = count := by
        rw [List.length_take, List.length_drop]
        omega
      have hfits : offset + (cursor - position) + ((bytes.drop cursor).take count).length ≤
          memory.length := by omega
      obtain ⟨s'', hcopy, hs'', hsize''⟩ := ih (stop - (cursor + count)) (by omega)
        (cursor + count) (written memory (offset + (cursor - position))
          ((bytes.drop cursor).take count)) s' rfl (by omega) (by omega)
        (by rw [length_written hfits]; exact hroom) hs' hsize'
      refine ⟨s'', ?_, hs'', hsize''⟩
      have hsplit : (bytes.drop cursor).take (stop - cursor) =
          (bytes.drop cursor).take count ++
            (bytes.drop (cursor + count)).take (stop - (cursor + count)) := by
        rw [← List.drop_drop, ← List.take_add]
        congr 1
        omega
      have hnext : offset + (cursor + count - position) =
          offset + (cursor - position) + ((bytes.drop cursor).take count).length := by omega
      simp only [if_pos hlt, hchunk]
      rw [if_neg (by omega), hbytes, setBytes, if_pos hfits]
      dsimp only
      rw [hcopy, hnext, written_append hfits, ← hsplit]
    · rw [if_neg (by omega)]
      refine ⟨s, ?_, hs, hsize⟩
      rw [show stop - cursor = 0 by omega, List.take_zero, written_nil]

/-- One call reads the file and keeps the invariant. -/
lemma read_spec (hsource : Faithful source bytes) (hs : Invariant source bytes s)
    (request : Request) :
    Meets bytes source.maxChunks request (read source s request) ∧
      Invariant source bytes (read source s request).state := by
  obtain ⟨s', hfile, hs', hsize'⟩ := fileSize_spec hsource hs
  unfold read
  rw [hfile]
  dsimp only
  split_ifs with hpast
  · have hzero : min (request.position + request.length) bytes.length - request.position = 0 := by
      omega
    refine ⟨⟨?_, ?_, hs'.bound⟩, hs'⟩
    · rw [hzero]
    · rw [hzero, List.take_zero, written_nil]
  · have hroom := request.room
    obtain ⟨s'', hcopy, hs'', -⟩ := @copy_spec source bytes hsource request.offset
      request.position (min (request.position + request.length) bytes.length)
      (Nat.min_le_right _ _) _ request.position request.memory s' rfl le_rfl (by omega) (by omega)
      hs' hsize'
    rw [hcopy]
    refine ⟨⟨rfl, ?_, hs''.bound⟩, hs''⟩
    dsimp only
    rw [Nat.sub_self, Nat.add_zero]

/-- **A faithful source reads the file** at every call, in every order of calls. -/
theorem reads_meet (hsource : Faithful source bytes) :
    ∀ (requests : List Request) (s : State), Invariant source bytes s →
      List.Forall₂ (Meets bytes source.maxChunks) requests (reads source s requests) := by
  intro requests
  induction requests with
  | nil => exact fun _ _ => .nil
  | cons request requests ih =>
    intro s hs
    obtain ⟨hmeets, hs'⟩ := read_spec hsource hs request
    exact .cons hmeets (ih _ hs')

end Faithful

/-! ## The source of a book -/

/-- The handler of a stored book's bytes. One that knows no ranges is answered as if the header
were missing. -/
def bookHandler (library : Library) (rangeAware : Bool) (url : BookUrl)
    (range : Option (List Char)) : Response :=
  serveBookBytes (sidecarSources library) url.id (some url.format)
    (if rangeAware then range else none)

/-- The source of a book over the protocol. -/
def bookSource (library : Library) (rangeAware : Bool) (url : BookUrl) {chunkBytes maxChunks : ℕ}
    (hchunk : 0 < chunkBytes) (hmax : 0 < maxChunks) : PdfRangeSource where
  url := url
  fetchRange := xhrRangeFetcher (bookHandler library rangeAware)
  chunkBytes := chunkBytes
  maxChunks := maxChunks
  chunkBytes_pos := hchunk
  maxChunks_pos := hmax

/-- The size is the number after the last slash. -/
lemma contentRangeTotal_append (pre : List Char) (total : ℕ) :
    contentRangeTotal (pre ++ '/' :: Nat.toDigits 10 total) = some total := by
  have hdigits := List.all_eq_true.mp (Decimal.all_isDigit_toDigits total)
  have hslash : Char.isDigit '/' = false := by decide
  have hreverse : (pre ++ '/' :: Nat.toDigits 10 total).reverse =
      (Nat.toDigits 10 total).reverse ++ '/' :: pre.reverse := by simp
  have htake : (pre ++ '/' :: Nat.toDigits 10 total).rtakeWhile Char.isDigit =
      Nat.toDigits 10 total := by
    rw [List.rtakeWhile, hreverse, List.takeWhile_append_of_pos (by simpa using hdigits)]
    simp [hslash]
  have hdrop : (pre ++ '/' :: Nat.toDigits 10 total).rdropWhile Char.isDigit = pre ++ ['/'] := by
    rw [List.rdropWhile, hreverse, List.dropWhile_append_of_pos (by simpa using hdigits)]
    simp [hslash]
  simp [contentRangeTotal, htake, hdrop]

lemma lookup_contentRange (bytes : List UInt8) (contentType : String) (text : List Char) :
    (bytesResponse bytes contentType 206 [("content-range", text)]).headers.lookup
      "content-range" = some text := by
  simp [bytesResponse, List.lookup_cons]

lemma contentRangeTotal_contentRange (offset : ℕ) (last : ℤ) (total : ℕ) :
    contentRangeTotal (contentRange offset last total) = some total := by
  unfold contentRange
  apply contentRangeTotal_append

section Book

variable {library : Library} {url : BookUrl} {book : Book} {file : Content}
  {chunkBytes maxChunks : ℕ} {hchunk : 0 < chunkBytes} {hmax : 0 < maxChunks}
  (hbook : library.getBook url.id = .ok (some book)) (hfile : library.read book.path = .ok file)
include hbook hfile

/-- What a fetch of a closed range within the file gives. -/
lemma fetchRange_range {start stop : ℕ} (hle : start ≤ stop) (hstop : stop ≤ MAX_SAFE_INTEGER)
    (hstart : start < file.bytes.length) :
    ((bookSource library true url hchunk hmax).fetchRange url (rangeText start stop)).status =
        206 ∧
      ((bookSource library true url hchunk hmax).fetchRange url (rangeText start stop)).body =
        (file.bytes.drop start).take (stop + 1 - start) ∧
      contentRangeTotal (((bookSource library true url hchunk hmax).fetchRange url
        (rangeText start stop)).contentRange.getD []) = some file.bytes.length := by
  have hserve := serveBookBytes_range hbook hfile (some url.format) hle hstop hstart
  have hlength : stop - start + 1 = stop + 1 - start := by omega
  rw [hlength] at hserve
  simp only [bookSource, xhrRangeFetcher, bookHandler, if_true, hserve]
  rw [lookup_contentRange, Option.getD_some, contentRangeTotal_contentRange]
  exact ⟨rfl, rfl, rfl⟩

/-- A handler that knows no ranges gives the whole file. -/
lemma faithful_whole : Faithful (bookSource library false url hchunk hmax) file.bytes := by
  have hwhole : ∀ range, ((bookSource library false url hchunk hmax).fetchRange url range).status =
      200 ∧ ((bookSource library false url hchunk hmax).fetchRange url range).body =
        file.bytes := by
    intro range
    have hserve := serveBookBytes_none hbook hfile (some url.format)
    simp only [bookSource, xhrRangeFetcher, bookHandler, Bool.false_eq_true, if_false, hserve]
    exact ⟨rfl, rfl⟩
  exact ⟨.inr (hwhole _), fun _ _ _ _ => .inr (hwhole _)⟩

/-- A handler that knows ranges gives what is asked of a file that is not empty and not too
long. -/
lemma faithful_ranges (hne : 0 < file.bytes.length) (hsafe : file.bytes.length ≤ 2 ^ 53) :
    Faithful (bookSource library true url hchunk hmax) file.bytes := by
  refine ⟨.inl ?_, fun start stop hle hlt => .inl ?_⟩
  · have hfirst : "bytes=0-0".toList = rangeText 0 0 := by decide
    obtain ⟨hstatus, -, htotal⟩ := @fetchRange_range library url book file chunkBytes maxChunks
      hchunk hmax hbook hfile 0 0 le_rfl (Nat.zero_le _) hne
    rw [hfirst]
    exact ⟨hstatus, htotal⟩
  · have hmaxSafe : MAX_SAFE_INTEGER = 2 ^ 53 - 1 := rfl
    obtain ⟨hstatus, hbody, -⟩ := @fetchRange_range library url book file chunkBytes maxChunks
      hchunk hmax hbook hfile start stop hle (by omega) (by omega)
    exact ⟨hstatus, hbody⟩

/-- The size of an empty file cannot be asked for by a range. -/
lemma fileSize_empty (hempty : file.bytes.length = 0) :
    ∃ e, fileSize (bookSource library true url hchunk hmax) {} = (.error e, {}) := by
  have hfirst : "bytes=0-0".toList = rangeText 0 0 := by decide
  have hstatus : ((bookSource library true url hchunk hmax).fetchRange url
      "bytes=0-0".toList).status = 416 := by
    rw [hfirst]
    exact serveBookBytes_past hbook hfile (some url.format) le_rfl (Nat.zero_le _) hempty.le
  exact fileSize_refused rfl hstatus

/-- The file beyond the safe integers is not served by ranges, not even its last byte. -/
lemma read_tooLong (hlong : 2 ^ 53 < file.bytes.length) (request : Request)
    (hposition : request.position = 2 ^ 53) (hlength : 0 < request.length) :
    ∃ e, (read (bookSource library true url hchunk hmax) {} request).value = .error e := by
  set source := bookSource library true url hchunk hmax with hsource
  have hfirst : "bytes=0-0".toList = rangeText 0 0 := by decide
  obtain ⟨hstatus, -, htotal⟩ := @fetchRange_range library url book file chunkBytes maxChunks hchunk
    hmax hbook hfile 0 0 le_rfl (Nat.zero_le _) (by omega)
  have hsize : fileSize source {} =
      (.ok file.bytes.length, { size := some file.bytes.length }) := by
    rw [← hfirst, ← hsource] at hstatus htotal
    simp only [fileSize, show source.url = url from rfl, hstatus, htotal, if_true]
  have hfloor : 2 ^ 53 / chunkBytes * chunkBytes ≤ 2 ^ 53 := Nat.div_mul_le_self _ _
  have hceil : 2 ^ 53 < 2 ^ 53 / chunkBytes * chunkBytes + chunkBytes :=
    Nat.lt_div_mul_add (a := 2 ^ 53) hchunk
  have hmaxSafe : MAX_SAFE_INTEGER = 2 ^ 53 - 1 := rfl
  have hchunkBytes : source.chunkBytes = chunkBytes := rfl
  obtain ⟨e, hrefused⟩ := @chunk_refused source { size := some file.bytes.length }
    (2 ^ 53 / chunkBytes) file.bytes.length rfl
    (serveBookBytes_tooLong (sidecarSources library) url.id (some url.format)
      (by rw [hchunkBytes]; omega) (by rw [hchunkBytes]; omega))
  refine ⟨e, ?_⟩
  unfold read
  rw [hsize]
  dsimp only
  rw [if_neg (by omega), copy, if_pos (by omega), hposition]
  simp only [hchunkBytes, hrefused]

end Book

/-- **When every call reads the file.** A source of any chunk size and any bound of its cache
gives PDFium the bytes of the file, at every sequence of calls, exactly when the handler knows no
ranges, or the file has a first byte and no byte past the safe integers. -/
theorem reads_iff (library : Library) (url : BookUrl) (book : Book) (file : Content)
    (hbook : library.getBook url.id = .ok (some book)) (hfile : library.read book.path = .ok file)
    (rangeAware : Bool) {chunkBytes maxChunks : ℕ} (hchunk : 0 < chunkBytes)
    (hmax : 0 < maxChunks) :
    (∀ requests, List.Forall₂ (Meets file.bytes maxChunks) requests
        (reads (bookSource library rangeAware url hchunk hmax) {} requests)) ↔
      rangeAware = false ∨ 0 < file.bytes.length ∧ file.bytes.length ≤ 2 ^ 53 := by
  constructor
  · intro hall
    have hfirst : ∀ request, ∃ value,
        (read (bookSource library rangeAware url hchunk hmax) {} request).value = .ok value := by
      intro request
      obtain ⟨hmeets, -⟩ := List.forall₂_cons.mp (hall [request])
      exact ⟨_, hmeets.value⟩
    cases rangeAware with
    | false => exact .inl rfl
    | true =>
      refine .inr ⟨?_, ?_⟩
      · by_contra hnot
        obtain ⟨value, hvalue⟩ := hfirst ⟨[], 0, 0, 0, le_rfl⟩
        obtain ⟨e, he⟩ := @fileSize_empty library url book file chunkBytes maxChunks hchunk hmax
          hbook hfile (by omega)
        rw [read, he] at hvalue
        cases hvalue
      · by_contra hnot
        obtain ⟨value, hvalue⟩ := hfirst ⟨[0], 0, 1, 2 ^ 53, le_rfl⟩
        obtain ⟨e, he⟩ := @read_tooLong library url book file chunkBytes maxChunks hchunk hmax hbook
          hfile (by omega) ⟨[0], 0, 1, 2 ^ 53, le_rfl⟩ rfl Nat.one_pos
        rw [he] at hvalue
        cases hvalue
  · intro hcondition requests
    have hfaithful : Faithful (bookSource library rangeAware url hchunk hmax) file.bytes := by
      cases rangeAware with
      | false => exact faithful_whole hbook hfile
      | true =>
        rcases hcondition with hfalse | ⟨hne, hsafe⟩
        · cases hfalse
        · exact faithful_ranges hbook hfile hne hsafe
    exact reads_meet hfaithful requests {} invariant_new

/-- Two bytes across the edge of a chunk, and then the first byte again. -/
theorem reads_oneBook :
    List.Forall₂ (Meets [80, 75, 3, 4] 1) [⟨[0, 0], 0, 2, 2, le_rfl⟩, ⟨[0], 0, 1, 0, le_rfl⟩]
      (reads (bookSource BookFiles.oneBook true ⟨1, "pdf"⟩ three_pos one_pos) {}
        [⟨[0, 0], 0, 2, 2, le_rfl⟩, ⟨[0], 0, 1, 0, le_rfl⟩]) := by
  refine (reads_iff BookFiles.oneBook ⟨1, "pdf"⟩ ⟨"/library/one.epub"⟩
    ⟨[80, 75, 3, 4], by decide⟩ rfl rfl true three_pos one_pos).mpr (.inr ?_) _
  decide

/-! ## Where it stops -/

/-- One book whose file is empty. -/
def emptyFile : Library where
  getBook bookId := .ok (if bookId = 1 then some ⟨"/library/empty.pdf"⟩ else none)
  read _ := .ok ⟨[], by decide⟩
  epubMember _ _ := .ok none

/-- A read of an empty file throws where the handler knows ranges, and returns zero where it does
not. -/
theorem read_emptyFile :
    (read (bookSource emptyFile true ⟨1, "pdf"⟩ three_pos one_pos) {}
        ⟨[0], 0, 1, 0, le_rfl⟩).value =
          .error "failed to stat tuxbooks://book/1?format=pdf: 416" ∧
      (read (bookSource emptyFile false ⟨1, "pdf"⟩ three_pos one_pos) {}
        ⟨[0], 0, 1, 0, le_rfl⟩).value = .ok 0 := by
  decide +kernel

end RangeSource

end TuxBooks
