import TuxBooks.Lib.Decimal
import TuxBooks.Lib.JsText
import TuxBooks.Reader.BookBytes

set_option relaxedAutoImplicit false
set_option autoImplicit false

/-!
# The bytes of a book over the protocol

How `electron/main/protocolHandler.ts` answers a request for the bytes of a book, with the `Range`
header as `electron/shared/pathSchema.ts` reads it. Texts of headers are lists of characters, and
numbers are natural numbers: a number in a header counts only within the integers that JavaScript
tells apart.

## Main definitions

* `TuxBooks.BookProtocol.parseRangeHeader` — the range that a header asks for.
* `TuxBooks.BookProtocol.serveBookBytes` — the response to a request for a book.
* `TuxBooks.BookProtocol.sidecarSources` — the bytes of the sidecar.

## Main results

* `TuxBooks.BookProtocol.serveBookBytes_range` — a closed range within the file.
* `TuxBooks.BookProtocol.serveBookBytes_past`, `TuxBooks.BookProtocol.serveBookBytes_tooLong` — a
  range that starts past the end, and one whose end is too large a number.
* `TuxBooks.BookProtocol.serveBookBytes_none` — a request without a range.
-/

namespace TuxBooks

namespace BookProtocol

open BookFiles (Library Content Book AppError GetBookBytesResult)

/-! ## Ranges -/

/-- `Number.MAX_SAFE_INTEGER`. -/
def MAX_SAFE_INTEGER : ℕ := 2 ^ 53 - 1

inductive RangeParse where
  | none
  | invalid
  | ok (start stop : Option ℕ)
  deriving DecidableEq

/-- The two captures of `^bytes=(\d*)-(\d*)$`. -/
def matchRange (text : List Char) : Option (List Char × List Char) :=
  match text.dropPrefix? "bytes=".toList with
  | none => none
  | some rest =>
    match rest.dropWhile Char.isDigit with
    | '-' :: rawEnd =>
      if rawEnd.all Char.isDigit then some (rest.takeWhile Char.isDigit, rawEnd) else none
    | _ => none

/-- A single range with open ends allowed; what is malformed or outside the safe integers is
invalid. -/
def parseRangeHeader (header : Option (List Char)) : RangeParse :=
  match header with
  | none | some [] => .none
  | some header =>
    match matchRange (JsText.stripped (fun c => JsText.isSpace c.toNat) header) with
    | none | some ([], []) => .invalid
    | some (rawStart, rawEnd) =>
      let start := Decimal.digits? rawStart
      let stop := Decimal.digits? rawEnd
      if start.any (MAX_SAFE_INTEGER < ·) || stop.any (MAX_SAFE_INTEGER < ·) then .invalid
      else if start.any fun first => stop.any (· < first) then .invalid
      else .ok start stop

example : parseRangeHeader (some " bytes=8-15".toList) = .ok (some 8) (some 15) := by
  decide +kernel

/-- The header that asks for the bytes from the first to the last. -/
def rangeText (start stop : ℕ) : List Char :=
  "bytes=".toList ++ (Nat.toDigits 10 start ++ '-' :: Nat.toDigits 10 stop)

/-! ## Responses -/

/-- How a source of bytes rejects. -/
inductive SourceFailure where
  | notFound
  | status (code : ℕ)
  | unexpected
  deriving DecidableEq

/-- The source of the bytes of a book. -/
structure BookSources where
  getBookBytes : ℕ → Option ℕ → Option ℕ → Except SourceFailure GetBookBytesResult

/-- The JSON-RPC error of a failed call, as the sources translate it: no worker serves the bytes of
a book. -/
def translateSourceError : AppError → SourceFailure
  | .worker _ => .unexpected
  | .database _ | .io _ | .notFound | .invalidInput _ => .notFound

/-- The call of the sidecar, whose numbers have 64 bits. -/
def sidecarSources (library : Library) : BookSources where
  getBookBytes bookId offset length :=
    match BookFiles.getBookBytes library bookId (offset.map UInt64.ofNat)
        (length.map UInt64.ofNat) with
    | .returned (.ok payload) => .ok payload
    | .returned (.error e) => .error (translateSourceError e)
    | .panicked => .error .unexpected

structure Response where
  status : ℕ
  body : List UInt8
  headers : List (String × List Char)
  deriving DecidableEq

/-- The header that lets every origin read. -/
def CORS : List (String × List Char) := [("access-control-allow-origin", ['*'])]

def textResponse (status : ℕ) (body : String) : Response where
  status := status
  body := body.toUTF8.data.toList
  headers := ("content-type", "text/plain".toList) :: CORS

def bytesResponse (bytes : List UInt8) (contentType : String) (status : ℕ)
    (extra : List (String × List Char)) : Response where
  status := status
  body := bytes
  headers := [("content-type", contentType.toList),
    ("content-length", Nat.toDigits 10 bytes.length), ("accept-ranges", "bytes".toList)] ++
      extra ++ CORS

/-- A fixed body for each status. -/
def sourceError : SourceFailure → Response
  | .notFound => textResponse 404 "not found"
  | .status 413 => textResponse 413 "resource limit exceeded"
  | .status 503 => textResponse 503 "service unavailable"
  | .status 504 => textResponse 504 "gateway timeout"
  | .status code => textResponse code "internal error"
  | .unexpected => textResponse 500 "internal error"

def bookSourceMime (format : Option String) : String :=
  match format with
  | some "epub" => "application/epub+zip"
  | some "pdf" => "application/pdf"
  | _ => "application/octet-stream"

/-- `Buffer.from` of an encoding. -/
def decoded (data : String) : List UInt8 := (Base64.decode data).getD []

/-- The first and the last position of a range that is served, and the size. -/
def contentRange (offset : ℕ) (last : ℤ) (total : ℕ) : List Char :=
  "bytes ".toList ++ Nat.toDigits 10 offset ++ '-' :: Decimal.text last ++
    '/' :: Nat.toDigits 10 total

/-- A range with a start is read from the source; a request without one, and a suffix range, is
answered with the whole file. -/
def serveBookBytes (sources : BookSources) (bookId : ℕ) (format : Option String)
    (rangeHeader : Option (List Char)) : Response :=
  match parseRangeHeader rangeHeader with
  | .invalid => textResponse 416 "invalid range"
  | .ok (some start) stop =>
    let last := stop.getD MAX_SAFE_INTEGER
    match sources.getBookBytes bookId (some start) (some (last - start + 1)) with
    | .error e => sourceError e
    | .ok payload =>
      if payload.total ≤ start then
        { status := 416
          body := "range not satisfiable".toUTF8.data.toList
          headers := [("content-type", "text/plain;charset=UTF-8".toList),
            ("content-range", "bytes */".toList ++ Nat.toDigits 10 payload.total)] ++ CORS }
      else
        let bytes := decoded payload.data
        bytesResponse bytes (bookSourceMime format) 206
          [("content-range", contentRange payload.offset (payload.offset + bytes.length - 1)
            payload.total)]
  | .none | .ok none _ =>
    match sources.getBookBytes bookId none none with
    | .error e => sourceError e
    | .ok payload => bytesResponse (decoded payload.data) (bookSourceMime format) 200 []

/-! ## Reading the header of a closed range -/

lemma takeWhile_toDigits (n : ℕ) (rest : List Char) :
    (Nat.toDigits 10 n ++ '-' :: rest).takeWhile Char.isDigit = Nat.toDigits 10 n := by
  rw [List.takeWhile_append_of_pos
    (List.all_eq_true.mp (Decimal.all_isDigit_toDigits n))]
  simp [show Char.isDigit '-' = false by decide]

lemma dropWhile_toDigits (n : ℕ) (rest : List Char) :
    (Nat.toDigits 10 n ++ '-' :: rest).dropWhile Char.isDigit = '-' :: rest := by
  rw [List.dropWhile_append_of_pos
    (List.all_eq_true.mp (Decimal.all_isDigit_toDigits n))]
  simp [show Char.isDigit '-' = false by decide]

lemma matchRange_rangeText (start stop : ℕ) :
    matchRange (rangeText start stop) = some (Nat.toDigits 10 start, Nat.toDigits 10 stop) := by
  have hdrop : (rangeText start stop).dropPrefix? "bytes=".toList =
      some (Nat.toDigits 10 start ++ '-' :: Nat.toDigits 10 stop) :=
    List.dropPrefix?_eq_some_iff.mpr ⟨"bytes=".toList, rfl, by simp⟩
  simp only [matchRange, hdrop, dropWhile_toDigits, takeWhile_toDigits,
    Decimal.all_isDigit_toDigits, if_true]

/-- No white space is around the header. -/
lemma stripped_rangeText (start stop : ℕ) :
    JsText.stripped (fun c => JsText.isSpace c.toNat) (rangeText start stop) =
      rangeText start stop := by
  have hdigit : ∀ c : Char, c.isDigit = true → JsText.isSpace c.toNat = false := by
    intro c hc
    have hrange : 48 ≤ c.toNat ∧ c.toNat ≤ 57 := by
      simpa [Char.isDigit, UInt32.le_iff_toNat_le] using hc
    simp only [JsText.isSpace, List.mem_cons, List.not_mem_nil, or_false, Bool.or_eq_false_iff,
      decide_eq_false_iff_not, Bool.and_eq_false_iff]
    omega
  have hlast : ∃ c ∈ Nat.toDigits 10 stop, (rangeText start stop).getLast? = some c := by
    have hne : Nat.toDigits 10 stop ≠ [] := Nat.toDigits_ne_nil
    have hshape : rangeText start stop =
        "bytes=".toList ++ (Nat.toDigits 10 start ++ '-' :: Nat.toDigits 10 stop) := rfl
    refine ⟨_, List.getLast_mem hne, ?_⟩
    rw [hshape]
    simp [List.getLast?_append, List.getLast?_cons, List.getLast?_eq_some_getLast hne]
  obtain ⟨c, hc, hgetLast⟩ := hlast
  have hfirst : (rangeText start stop).dropWhile (fun c => JsText.isSpace c.toNat) =
      rangeText start stop := by
    rfl
  rw [JsText.stripped, hfirst, List.rdropWhile_eq_self_iff]
  intro hne
  rw [List.getLast?_eq_some_getLast hne, Option.some.injEq] at hgetLast
  rw [hgetLast, hdigit c (List.all_eq_true.mp (Decimal.all_isDigit_toDigits stop) c hc)]
  decide

/-- The header of a closed range is read back within the safe integers. -/
lemma parseRangeHeader_rangeText {start stop : ℕ} (hle : start ≤ stop) :
    parseRangeHeader (some (rangeText start stop)) =
      if stop ≤ MAX_SAFE_INTEGER then .ok (some start) (some stop) else .invalid := by
  have hparse : parseRangeHeader (some (rangeText start stop)) =
      if MAX_SAFE_INTEGER < start ∨ MAX_SAFE_INTEGER < stop then .invalid
      else if stop < start then .invalid else .ok (some start) (some stop) := by
    obtain ⟨c, digits, hcs, -, -⟩ := Decimal.exists_cons_toDigits start
    have hmatch := matchRange_rangeText start stop
    rw [← stripped_rangeText] at hmatch
    obtain ⟨b, rest, hcons⟩ : ∃ b rest, rangeText start stop = b :: rest := ⟨_, _, rfl⟩
    rw [hcons, hcs] at hmatch
    simp only [parseRangeHeader, hcons, hmatch]
    rw [← hcs]
    simp
  rw [hparse]
  split_ifs <;> first | rfl | omega

/-! ## What is served -/

section Serving

variable {library : Library} {bookId : ℕ} {book : Book} {file : Content}
  (hbook : library.getBook bookId = .ok (some book)) (hfile : library.read book.path = .ok file)
include hbook hfile

/-- What the sidecar gives for a range: the slice of the file. -/
lemma sidecarSources_range {start length : ℕ} (hstart : start < 2 ^ 64)
    (hlength : length < 2 ^ 64) :
    (sidecarSources library).getBookBytes bookId (some start) (some length) =
      .ok { data := Base64.encode ((file.bytes.drop start).take length)
            offset := start
            total := file.bytes.length } := by
  have hread := BookFiles.getBookBytes_eq hbook hfile (some (UInt64.ofNat start))
    (some (UInt64.ofNat length))
  simp only [UInt64.toNat_ofNat_of_lt' hstart, UInt64.toNat_ofNat_of_lt' hlength,
    Option.getD_some] at hread
  simp only [sidecarSources, Option.map_some, hread]

/-- **A closed range within the file** is answered with its bytes and with the size of the file. -/
theorem serveBookBytes_range (format : Option String) {start stop : ℕ} (hle : start ≤ stop)
    (hstop : stop ≤ MAX_SAFE_INTEGER) (hstart : start < file.bytes.length) :
    serveBookBytes (sidecarSources library) bookId format (some (rangeText start stop)) =
      bytesResponse ((file.bytes.drop start).take (stop - start + 1)) (bookSourceMime format) 206
        [("content-range", contentRange start
          (start + ((file.bytes.drop start).take (stop - start + 1)).length - 1)
          file.bytes.length)] := by
  have hmax : MAX_SAFE_INTEGER < 2 ^ 53 := by decide
  have hread := @sidecarSources_range library bookId book file hbook hfile start (stop - start + 1)
    (by omega) (by omega)
  simp only [serveBookBytes, parseRangeHeader_rangeText hle, if_pos hstop, Option.getD_some, hread,
    if_neg (Nat.not_le.mpr hstart), decoded, Base64.decode_encode]

/-- A range that starts past the end cannot be satisfied. -/
theorem serveBookBytes_past (format : Option String) {start stop : ℕ} (hle : start ≤ stop)
    (hstop : stop ≤ MAX_SAFE_INTEGER) (hstart : file.bytes.length ≤ start) :
    (serveBookBytes (sidecarSources library) bookId format
      (some (rangeText start stop))).status = 416 := by
  have hmax : MAX_SAFE_INTEGER < 2 ^ 53 := by decide
  have hread := @sidecarSources_range library bookId book file hbook hfile start (stop - start + 1)
    (by omega) (by omega)
  simp only [serveBookBytes, parseRangeHeader_rangeText hle, if_pos hstop, Option.getD_some, hread,
    if_pos hstart]

/-- A request without a range is answered with the whole file. -/
theorem serveBookBytes_none (format : Option String) :
    serveBookBytes (sidecarSources library) bookId format none =
      bytesResponse file.bytes (bookSourceMime format) 200 [] := by
  have hread := BookFiles.getBookBytes_eq hbook hfile none none
  simp [serveBookBytes, parseRangeHeader, sidecarSources, hread, decoded]

end Serving

/-- A range whose end is too large a number is invalid. -/
theorem serveBookBytes_tooLong (sources : BookSources) (bookId : ℕ) (format : Option String)
    {start stop : ℕ} (hle : start ≤ stop) (hstop : MAX_SAFE_INTEGER < stop) :
    (serveBookBytes sources bookId format (some (rangeText start stop))).status = 416 := by
  simp only [serveBookBytes, parseRangeHeader_rangeText hle, if_neg (Nat.not_le.mpr hstop),
    textResponse]

end BookProtocol

end TuxBooks
