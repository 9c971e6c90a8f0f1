import TuxBooks.Epub.MemberPath
import TuxBooks.Lib.Decimal
import TuxBooks.Lib.Percent

set_option relaxedAutoImplicit false
set_option autoImplicit false

/-!
# From a spine item to the member it is fetched from

An OPF href is decoded and resolved to a member of the archive, published in the manifest as an
encoded path, requested as a URL, decoded once by the protocol handler, and read.

## Main definitions

* `TuxBooks.Epub.resolveZipPath`, `TuxBooks.Epub.encodedHref` — the two ends of the manifest.
* `TuxBooks.Epub.resolveSpineEntries`, `TuxBooks.Epub.buildSpine` — the spine of a session.
* `TuxBooks.urlPathname` — the path of a parsed URL.
* `TuxBooks.serveBook` — the protocol handler's routing.
* `TuxBooks.Epub.readMemberReader` — the sidecar's read.

## Main results

* `TuxBooks.decodeURIComponent_encodedHref` — one decoding undoes the encoding.
* `TuxBooks.Epub.fetched_iff` — which spine items are fetched from the member they name.
-/

namespace TuxBooks

/-! ## UTF-8 -/

/-- The bytes of a text. -/
def utf8 (text : String) : List UInt8 := text.toList.flatMap String.utf8EncodeChar

/-- The bytes that continue a character: each in its range, the first one in its own. What stands
for them is the character, or a replacement for what was read of it. -/
def utf8Tails (needed low high value used : ℕ) (bytes : List UInt8) : Char × ℕ :=
  match needed, bytes with
  | 0, _ => (Char.ofNat value, used)
  | _ + 1, [] => ('\uFFFD', used)
  | needed + 1, byte :: bytes =>
    if low ≤ byte.toNat ∧ byte.toNat ≤ high then
      utf8Tails needed 0x80 0xbf (64 * value + (byte.toNat - 0x80)) (used + 1) bytes
    else ('\uFFFD', used)

/-- The character that some bytes begin with, and how many bytes it takes. -/
def utf8First (lead : UInt8) (bytes : List UInt8) : Char × ℕ :=
  let b := lead.toNat
  if b < 0x80 then (Char.ofNat b, 1)
  else if 0xc2 ≤ b ∧ b ≤ 0xdf then utf8Tails 1 0x80 0xbf (b - 0xc0) 1 bytes
  else if b = 0xe0 then utf8Tails 2 0xa0 0xbf 0 1 bytes
  else if b = 0xed then utf8Tails 2 0x80 0x9f 0xd 1 bytes
  else if 0xe1 ≤ b ∧ b ≤ 0xef then utf8Tails 2 0x80 0xbf (b - 0xe0) 1 bytes
  else if b = 0xf0 then utf8Tails 3 0x90 0xbf 0 1 bytes
  else if 0xf1 ≤ b ∧ b ≤ 0xf3 then utf8Tails 3 0x80 0xbf (b - 0xf0) 1 bytes
  else if b = 0xf4 then utf8Tails 3 0x80 0x8f 4 1 bytes
  else ('\uFFFD', 1)

/-- The characters of some bytes, of which `skip` belong to the one before. -/
def utf8Lossy (skip : ℕ) : List UInt8 → List Char
  | [] => []
  | byte :: bytes =>
    match skip with
    | skip + 1 => utf8Lossy skip bytes
    | 0 =>
      let first := utf8First byte bytes
      first.1 :: utf8Lossy (first.2 - 1) bytes

/-- `String::from_utf8_lossy`. -/
def fromUtf8Lossy (bytes : List UInt8) : String := String.ofList (utf8Lossy 0 bytes)

example : fromUtf8Lossy [0x61, 0xc3, 0xa9, 0xe2, 0x82, 0x62, 0xff] = "aé\uFFFDb\uFFFD" := by
  decide +kernel

namespace Epub

/-! ## The manifest -/

/-- `u8::from_str_radix` of two bytes, base sixteen: a plus sign may stand before one digit. -/
def fromStrRadix (high low : UInt8) : Option ℕ :=
  match Percent.value? (Char.ofNat low.toNat) with
  | none => none
  | some l =>
    if high = 0x2b then some l
    else (Percent.value? (Char.ofNat high.toNat)).map fun h => 16 * h + l

/-- The bytes of a percent-encoded text. What is no escape stands for itself. -/
def percentDecodeBytes : List UInt8 → List UInt8
  | byte :: high :: low :: rest =>
    match if byte = 0x25 then fromStrRadix high low else none with
    | some value => UInt8.ofNat value :: percentDecodeBytes rest
    | none => byte :: percentDecodeBytes (high :: low :: rest)
  | bytes => bytes

def percentDecode (input : String) : String := fromUtf8Lossy (percentDecodeBytes (utf8 input))

/-- A path up to and with its last separator. -/
def directoryOf (path : String) : List Char := path.toList.rdropWhile (· ≠ '/')

/-- Resolve an href (relative to the OPF, possibly percent-encoded) to a ZIP entry name. -/
def resolveZipPath (opfPath href : String) : String :=
  let decoded := percentDecode href
  if decoded.toList.head? == some '/' then normalizePath decoded
  else normalizePath (String.ofList (directoryOf opfPath ++ decoded.toList))

/-- The bytes that a path keeps as they are. -/
def isHrefByte (byte : UInt8) : Bool :=
  (decide (0x41 ≤ byte.toNat) && decide (byte.toNat ≤ 0x5a)) ||
    (decide (0x61 ≤ byte.toNat) && decide (byte.toNat ≤ 0x7a)) ||
    (decide (0x30 ≤ byte.toNat) && decide (byte.toNat ≤ 0x39)) ||
    byte.toNat == 0x2d || byte.toNat == 0x2e || byte.toNat == 0x5f || byte.toNat == 0x7e ||
    byte.toNat == 0x2f

/-- The RWPM href space: percent-encoded zip-root paths. -/
def encodedHref (decodedZipPath : String) : String :=
  String.ofList (Percent.encode isHrefByte (utf8 decodedZipPath))

/-- What the manifest says of a resource. -/
structure ManifestItem where
  href : String
  mediaType : String

/-- The manifest by id and the reading order. -/
structure OpfPackage where
  manifest : List (String × ManifestItem)
  spine : List String

/-- One spine entry in the session's href space. -/
structure SpineEntry where
  zipPath : String
  encoded : String
  mediaType : String
  deriving DecidableEq

/-- True when `href` starts with an explicit URI scheme. -/
def hasExplicitScheme (href : String) : Bool :=
  href.toList.any (· == ':') &&
    match href.toList.takeWhile (· ≠ ':') with
    | [] => false
    | first :: scheme =>
      first.isAlpha && scheme.all fun c => c.isAlphanum || c == '+' || c == '-' || c == '.'

/-- Remote and scheme'd targets fail the session. -/
def validateManifest (package : OpfPackage) : Except EpubError Unit :=
  package.manifest.forM fun (id, item) =>
    if hasExplicitScheme item.href then .error (.externalRef s!"manifest item `{id}`") else .ok ()

def resolveSpineEntry (package : OpfPackage) (opfPath idref : String) :
    Except EpubError SpineEntry :=
  match package.manifest.lookup idref with
  | none => .error (.brokenSpine idref)
  | some item =>
    if hasExplicitScheme item.href then .error (.externalRef s!"spine item `{idref}`")
    else
      let zipPath := resolveZipPath opfPath item.href
      .ok { zipPath, encoded := encodedHref zipPath, mediaType := item.mediaType }

def resolveSpineEntries (package : OpfPackage) (opfPath : String) :
    Except EpubError (List SpineEntry) :=
  package.spine.mapM (resolveSpineEntry package opfPath)

/-- The stages of `build_session` that its spine passes, after the package document is parsed. -/
def buildSpine (zip : ZipArchive) (limits : ResourceLimits) (package : OpfPackage)
    (opfPath : String) : Except EpubError (List SpineEntry) := do
  checkArchiveTotals zip limits
  validateManifest package
  resolveSpineEntries package opfPath

/-! ## The read -/

/-- Read one entry by path. The path must already be decoded. -/
def readMemberReader (zip : ZipArchive) (member : String) (limits : ResourceLimits) :
    Except EpubError (Option (List UInt8)) := do
  checkArchiveTotals zip limits
  if member = "" then return none
  validateMemberPath member
  let member := normalizePath member
  if member = "" then return none
  readEntry zip member limits

end Epub

/-! ## The protocol handler -/

/-- The characters that a URL's path does not keep. -/
def inPathPercentEncodeSet (c : Char) : Bool :=
  decide (c.toNat < 0x20) || decide (0x7e < c.toNat) ||
    [' ', '"', '#', '<', '>', '?', '^', '\x60', '\x7b', '\x7d'].contains c

/-- A segment of a URL's path, percent-encoded. -/
def urlEncodeSegment (seg : List Char) : List Char :=
  seg.flatMap fun c =>
    if inPathPercentEncodeSet c then
      Percent.encode (fun _ => false) (String.utf8EncodeChar c)
    else [c]

/-- A single-dot segment of a URL's path. -/
def isSingleDot (seg : List Char) : Bool :=
  seg == ['.'] || seg.map Char.toLower == ['%', '2', 'e']

/-- A double-dot segment of a URL's path. -/
def isDoubleDot (seg : List Char) : Bool :=
  seg == ['.', '.'] || seg.map Char.toLower == ['.', '%', '2', 'e'] ||
    seg.map Char.toLower == ['%', '2', 'e', '.'] ||
    seg.map Char.toLower == ['%', '2', 'e', '%', '2', 'e']

/-- The path state of the URL parser, segment by segment. -/
def urlPathState (path : List (List Char)) : List (List Char) → List (List Char)
  | [] => path
  | seg :: segs =>
    if isDoubleDot seg then
      if segs = [] then path.dropLast ++ [[]] else urlPathState path.dropLast segs
    else if isSingleDot seg then
      if segs = [] then path ++ [[]] else urlPathState path segs
    else urlPathState (path ++ [urlEncodeSegment seg]) segs

/-- The `pathname` of a URL with a standard scheme, from what follows its host: up to a query or a
fragment, split at both kinds of slashes. -/
def urlPathname (input : List Char) : List Char :=
  let path := (input.takeWhile fun c => c ≠ '?' ∧ c ≠ '#').map fun c =>
    if c = '\\' then '/' else c
  match path with
  | [] => ['/']
  | c :: rest =>
    Segments.render '/' (urlPathState [] ((if c = '/' then rest else c :: rest).splitOn '/'))

/-- `decodeURIComponent`, or nothing where it throws. The escapes of a character stand next to each
other: what stands between two of them would break the sequence. -/
def decodeURIComponent (raw : List Char) : Option String :=
  (Percent.decode? raw).bind fun bytes => String.fromUTF8? bytes.toByteArray

/-- Largest JSON-safe value of the sidecar's row ids. -/
def maxSafeInteger : ℕ := 2 ^ 53 - 1

/-- Parse a book-id URL segment: digits only, positive, JSON-safe. -/
def parseBookId (raw : List Char) : Option ℕ :=
  (Decimal.digits? raw).filter fun id => decide (id ≤ maxSafeInteger) && decide (0 < id)

/-- What a `tuxbooks://book` request is answered from. -/
inductive Served where
  | badRequest (text : String)
  | bookBytes (bookId : ℕ)
  | resource (bookId : ℕ) (member : String)
  deriving DecidableEq

/-- The routing of a request below the host `book`. -/
def serveBook (pathname : List Char) : Served :=
  let rest := pathname.drop 1
  match parseBookId (rest.takeWhile (· ≠ '/')) with
  | none => .badRequest "invalid book id"
  | some bookId =>
    match rest.dropWhile (· ≠ '/') with
    | [] => .bookBytes bookId
    | _ :: raw =>
      match (decodeURIComponent raw).bind parseMemberPath with
      | none => .badRequest "invalid member path"
      | some member => .resource bookId member

/-- What follows the host in the URL of a published href. -/
def memberUrlPath (bookId : ℕ) (href : String) : List Char :=
  '/' :: Nat.toDigits 10 bookId ++ '/' :: href.toList

/-! ## One decoding undoes the encoding -/

lemma keeps_isHrefByte : Percent.Keeps Epub.isHrefByte where
  ascii byte h := by
    simp only [Epub.isHrefByte, Bool.or_eq_true, Bool.and_eq_true, decide_eq_true_eq,
      beq_iff_eq] at h
    omega
  literal byte h := by
    simp only [Epub.isHrefByte, Bool.or_eq_true, Bool.and_eq_true, decide_eq_true_eq,
      beq_iff_eq] at h
    omega

/-- **One decoding undoes the encoding** of any path. -/
theorem decodeURIComponent_encodedHref (path : String) :
    decodeURIComponent (Epub.encodedHref path).toList = some path := by
  have hbytes : (utf8 path).toByteArray = path.toByteArray := String.utf8Encode_toList
  rw [decodeURIComponent, Epub.encodedHref, String.toList_ofList,
    Percent.decode?_encode keeps_isHrefByte, Option.bind_some, hbytes, String.fromUTF8?,
    dif_pos path.isValidUTF8]
  rfl

/-! ## A published href as the path of a URL -/

/-- Some characters, encoded. -/
def hrefChars (cs : List Char) : List Char :=
  Percent.encode Epub.isHrefByte (cs.flatMap String.utf8EncodeChar)

lemma toList_encodedHref (path : String) :
    (Epub.encodedHref path).toList = hrefChars path.toList := by
  rw [Epub.encodedHref, String.toList_ofList]
  rfl

lemma hrefChars_append (cs ds : List Char) :
    hrefChars (cs ++ ds) = hrefChars cs ++ hrefChars ds := by
  rw [hrefChars, List.flatMap_append, Percent.encode_append]
  rfl

/-- Only ASCII characters have ASCII bytes. -/
lemma toNat_of_mem_utf8EncodeChar {c : Char} {byte : UInt8} (h : byte ∈ String.utf8EncodeChar c)
    (hascii : byte.toNat < 0x80) : c.toNat = byte.toNat := by
  have hval : c.val.toNat = c.toNat := rfl
  rw [String.utf8EncodeChar] at h
  split_ifs at h <;> simp only [List.mem_cons, List.not_mem_nil, or_false] at h
  · rw [h, UInt8.toNat_ofNat']
    omega
  · obtain rfl | rfl := h <;> rw [UInt8.toNat_ofNat'] at hascii <;> omega
  · obtain rfl | rfl | rfl := h <;> rw [UInt8.toNat_ofNat'] at hascii <;> omega
  · obtain rfl | rfl | rfl | rfl := h <;> rw [UInt8.toNat_ofNat'] at hascii <;> omega

/-- Characters are determined by their bytes. -/
lemma flatMap_utf8EncodeChar_injective {cs ds : List Char}
    (h : cs.flatMap String.utf8EncodeChar = ds.flatMap String.utf8EncodeChar) : cs = ds := by
  have harray : cs.utf8Encode.utf8Decode? = ds.utf8Encode.utf8Decode? :=
    congrArg (fun bytes : List UInt8 => bytes.toByteArray.utf8Decode?) h
  rw [List.utf8Decode?_utf8Encode, List.utf8Decode?_utf8Encode] at harray
  simpa using harray

/-- A character of a published href is written as it is in a URL, and ends nothing there. -/
structure IsPlain (c : Char) : Prop where
  kept : inPathPercentEncodeSet c = false
  ne_query : c ≠ '?'
  ne_fragment : c ≠ '#'
  ne_backslash : c ≠ '\\'

lemma isPlain_iff (c : Char) :
    (!inPathPercentEncodeSet c && c != '?' && c != '#' && c != '\\') = true ↔ IsPlain c := by
  simp only [Bool.and_eq_true, Bool.not_eq_true', bne_iff_ne]
  exact ⟨fun h => ⟨h.1.1.1, h.1.1.2, h.1.2, h.2⟩, fun h => ⟨⟨⟨h.1, h.2⟩, h.3⟩, h.4⟩⟩

lemma isPlain_digit {n : ℕ} (h : n < 16) : IsPlain (Percent.digit n) := by
  rw [← isPlain_iff]
  interval_cases n <;> decide

lemma isPlain_hrefByte {byte : UInt8} (h : Epub.isHrefByte byte = true) :
    IsPlain (Char.ofNat byte.toNat) := by
  rw [← isPlain_iff]
  revert h
  have hall : ∀ n < 256, Epub.isHrefByte (UInt8.ofNat n) = true →
      (!inPathPercentEncodeSet (Char.ofNat n) && Char.ofNat n != '?' && Char.ofNat n != '#' &&
        Char.ofNat n != '\\') = true := by decide +kernel
  simpa using hall byte.toNat (UInt8.toNat_lt byte)

lemma isPlain_of_mem_hrefChars {cs : List Char} {c : Char} (h : c ∈ hrefChars cs) :
    IsPlain c := by
  obtain ⟨byte, hkept, rfl⟩ | rfl | ⟨n, hn, rfl⟩ := Percent.mem_encode h
  · exact isPlain_hrefByte hkept
  · exact (isPlain_iff '%').mp (by decide)
  · exact isPlain_digit hn

lemma hrefChars_slash : hrefChars ['/'] = ['/'] := by decide

/-- A separator comes from a separator. -/
lemma slash_not_mem_hrefChars {cs : List Char} (h : '/' ∉ cs) : '/' ∉ hrefChars cs := by
  intro hmem
  obtain ⟨byte, hbyte, hchar⟩ := List.mem_flatMap.mp hmem
  obtain ⟨c, hc, hcbyte⟩ := List.mem_flatMap.mp hbyte
  have hslash : byte.toNat = 0x2f := by
    have hall : ∀ n < 256, '/' ∈ Percent.encodeByte Epub.isHrefByte (UInt8.ofNat n) → n = 0x2f := by
      decide +kernel
    exact hall byte.toNat (UInt8.toNat_lt byte) (by rwa [UInt8.ofNat_toNat])
  have hval := toNat_of_mem_utf8EncodeChar hcbyte (by omega)
  have heq : c = '/' := Char.toNat_inj.mp (hval.trans hslash)
  exact h (heq ▸ hc)

/-- An encoded byte is its own character, or an escape other than that of a dot. -/
lemma encodeByte_cases (byte : UInt8) :
    (∃ c, Percent.encodeByte Epub.isHrefByte byte = [c] ∧ c.toLower ≠ '%' ∧
        (c.toLower = '.' → byte = 0x2e)) ∨
      ∃ high low, Percent.encodeByte Epub.isHrefByte byte = ['%', high, low] ∧
        ¬(high.toLower = '2' ∧ low.toLower = 'e') := by
  have hkept : ∀ n < 256, Epub.isHrefByte (UInt8.ofNat n) = true →
      (Char.ofNat n).toLower ≠ '%' ∧ ((Char.ofNat n).toLower = '.' → n = 0x2e) := by
    decide +kernel
  have hescaped : ∀ n < 256, Epub.isHrefByte (UInt8.ofNat n) = false →
      ¬((Percent.digit (n / 16)).toLower = '2' ∧ (Percent.digit (n % 16)).toLower = 'e') := by
    decide +kernel
  have hlt := UInt8.toNat_lt byte
  cases hkeep : Epub.isHrefByte byte with
  | true =>
    obtain ⟨hpercent, hdot⟩ := hkept byte.toNat hlt (by rwa [UInt8.ofNat_toNat])
    refine .inl ⟨Char.ofNat byte.toNat, by simp [Percent.encodeByte, hkeep], hpercent, ?_⟩
    exact fun hchar => UInt8.toNat_inj.mp (hdot hchar)
  | false =>
    refine .inr ⟨_, _, by simp [Percent.encodeByte, hkeep]; exact ⟨rfl, rfl⟩, ?_⟩
    exact hescaped byte.toNat hlt (by rwa [UInt8.ofNat_toNat])

/-- A text that begins with a dot encodes one. -/
lemma encode_eq_dot {bytes : List UInt8} {rest : List Char}
    (h : (Percent.encode Epub.isHrefByte bytes).map Char.toLower = '.' :: rest) :
    ∃ bytes', bytes = 0x2e :: bytes' ∧
      (Percent.encode Epub.isHrefByte bytes').map Char.toLower = rest := by
  cases bytes with
  | nil => cases h
  | cons byte bytes =>
    rw [Percent.encode, List.flatMap_cons, ← Percent.encode, List.map_append] at h
    obtain ⟨c, hc, -, hdot⟩ | ⟨high, low, hc, -⟩ := encodeByte_cases byte
    · rw [hc, List.map_singleton, List.singleton_append, List.cons.injEq] at h
      exact ⟨bytes, by rw [hdot h.1], h.2⟩
    · rw [hc] at h
      exact absurd (List.head_eq_of_cons_eq h) (by decide)

/-- No text begins with the escape of a dot. -/
lemma encode_ne_escape {bytes : List UInt8} {rest : List Char} :
    (Percent.encode Epub.isHrefByte bytes).map Char.toLower ≠ '%' :: '2' :: 'e' :: rest := by
  intro h
  cases bytes with
  | nil => cases h
  | cons byte bytes =>
    rw [Percent.encode, List.flatMap_cons, ← Percent.encode, List.map_append] at h
    obtain ⟨c, hc, hpercent, -⟩ | ⟨high, low, hc, hother⟩ := encodeByte_cases byte
    · rw [hc, List.map_singleton, List.singleton_append, List.cons.injEq] at h
      exact hpercent h.1
    · rw [hc] at h
      simp only [List.map_cons, List.map_nil, List.cons_append, List.nil_append,
        List.cons.injEq] at h
      exact hother ⟨h.2.1, h.2.2.1⟩

lemma encode_eq_nil {bytes : List UInt8}
    (h : (Percent.encode Epub.isHrefByte bytes).map Char.toLower = []) : bytes = [] := by
  cases bytes with
  | nil => rfl
  | cons byte bytes =>
    rw [Percent.encode, List.flatMap_cons, List.map_append] at h
    obtain ⟨c, hc, -⟩ | ⟨high, low, hc, -⟩ := encodeByte_cases byte <;> simp [hc] at h

/-- A segment that reads as a dot segment in a URL is one. -/
lemma not_dot_hrefChars {seg : List Char} (h : Epub.IsName seg) :
    isDoubleDot (hrefChars seg) = false ∧ isSingleDot (hrefChars seg) = false := by
  have hone {rest : List Char} (hseg : (hrefChars seg).map Char.toLower = '.' :: rest) :
      ∃ bytes', seg.flatMap String.utf8EncodeChar = 0x2e :: bytes' ∧
        (Percent.encode Epub.isHrefByte bytes').map Char.toLower = rest := encode_eq_dot hseg
  constructor
  · rw [← Bool.not_eq_true, isDoubleDot]
    simp only [Bool.or_eq_true, beq_iff_eq]
    rintro (((hseg | hseg) | hseg) | hseg)
    · obtain ⟨bytes, hbytes, hrest⟩ := @hone ['.'] (by rw [hseg]; rfl)
      obtain ⟨bytes', rfl, hnil⟩ := encode_eq_dot hrest
      rw [encode_eq_nil hnil] at hbytes
      exact h.ne_parent (@flatMap_utf8EncodeChar_injective _ ['.', '.'] hbytes)
    · obtain ⟨bytes, -, hrest⟩ := hone hseg
      exact encode_ne_escape hrest
    · exact encode_ne_escape hseg
    · exact encode_ne_escape hseg
  · rw [← Bool.not_eq_true, isSingleDot]
    simp only [Bool.or_eq_true, beq_iff_eq]
    rintro (hseg | hseg)
    · obtain ⟨bytes, hbytes, hrest⟩ := @hone [] (by rw [hseg]; rfl)
      rw [encode_eq_nil hrest] at hbytes
      exact h.ne_dot (@flatMap_utf8EncodeChar_injective _ ['.'] hbytes)
    · exact encode_ne_escape hseg

/-- The path state leaves the segments of a published href as they are. -/
lemma urlEncodeSegment_plain {seg : List Char} (h : ∀ c ∈ seg, IsPlain c) :
    urlEncodeSegment seg = seg := by
  induction seg with
  | nil => rfl
  | cons c seg ih =>
    have hc := (h c List.mem_cons_self).kept
    rw [urlEncodeSegment, List.flatMap_cons, ← urlEncodeSegment,
      ih fun d hd => h d (List.mem_cons_of_mem c hd)]
    simp [hc]

/-- A segment that the path state takes over. -/
structure IsPlainSegment (seg : List Char) : Prop where
  plain : ∀ c ∈ seg, IsPlain c
  notDouble : isDoubleDot seg = false
  notSingle : isSingleDot seg = false

lemma urlPathState_plain {segs : List (List Char)} (h : ∀ seg ∈ segs, IsPlainSegment seg)
    (path : List (List Char)) : urlPathState path segs = path ++ segs := by
  induction segs generalizing path with
  | nil => simp [urlPathState]
  | cons seg segs ih =>
    have hseg := h seg List.mem_cons_self
    rw [urlPathState, hseg.notDouble, hseg.notSingle, urlEncodeSegment_plain hseg.plain]
    simp [ih fun other hother => h other (List.mem_cons_of_mem seg hother)]

/-- **A URL's path made of plain segments** is its own `pathname`. -/
theorem urlPathname_render {segs : List (List Char)} (h : ∀ seg ∈ segs, IsPlainSegment seg)
    (hfree : Segments.Free '/' segs) (hne : segs ≠ []) :
    urlPathname (Segments.render '/' segs) = Segments.render '/' segs := by
  have hplain : ∀ c ∈ Segments.render '/' segs, IsPlain c := by
    intro c hc
    obtain ⟨seg, hseg, hc⟩ := List.mem_flatMap.mp hc
    obtain rfl | hc := List.mem_cons.mp hc
    · exact (isPlain_iff '/').mp (by decide)
    · exact (h seg hseg).plain c hc
  have htake : (Segments.render '/' segs).takeWhile (fun c => c ≠ '?' ∧ c ≠ '#') =
      Segments.render '/' segs := by
    rw [List.takeWhile_eq_self_iff]
    exact fun c hc => by simpa using ⟨(hplain c hc).ne_query, (hplain c hc).ne_fragment⟩
  have hslashes : (Segments.render '/' segs).map (fun c => if c = '\\' then '/' else c) =
      Segments.render '/' segs := by
    refine (List.map_congr_left fun c hc => if_neg (hplain c hc).ne_backslash).trans ?_
    exact List.map_id' _
  rw [urlPathname, htake, hslashes]
  cases segs with
  | nil => exact absurd rfl hne
  | cons seg segs =>
    have hsplit : (seg ++ Segments.render '/' segs).splitOn '/' = seg :: segs :=
      Segments.splitOn_append_render hfree.head hfree.tail
    simp only [Segments.render_cons, if_true]
    rw [hsplit, urlPathState_plain h, List.nil_append, Segments.render_cons]

/-! ## The request -/

lemma exists_digit_of_isDigit {c : Char} (h : c.isDigit = true) :
    ∃ n < 10, c = Percent.digit n := by
  rw [Char.isDigit, Bool.and_eq_true, decide_eq_true_eq, decide_eq_true_eq] at h
  have hlow : 48 ≤ c.toNat := h.1
  have hhigh : c.toNat ≤ 57 := h.2
  refine ⟨c.toNat - 0x30, by omega, ?_⟩
  have hval : (0x30 + (c.toNat - 0x30)) = c.toNat := by omega
  rw [Percent.digit, if_pos (by omega), hval, Char.ofNat_toNat]

/-- A book id is a plain segment. -/
lemma isPlainSegment_toDigits (n : ℕ) : IsPlainSegment (Nat.toDigits 10 n) := by
  obtain ⟨c, cs, hdigits, hc⟩ := Decimal.exists_cons_toDigits n
  have hall := List.all_eq_true.mp (Decimal.all_isDigit_toDigits n)
  have hfirst : c.toLower ≠ '.' ∧ c.toLower ≠ '%' ∧ c ≠ '.' := by
    obtain ⟨m, hm, rfl⟩ := exists_digit_of_isDigit (hall c (hdigits ▸ List.mem_cons_self))
    interval_cases m <;> decide
  constructor
  · intro d hd
    obtain ⟨m, hm, rfl⟩ := exists_digit_of_isDigit (hall d hd)
    exact isPlain_digit (by omega)
  · simp [hdigits, isDoubleDot, hfirst.1, hfirst.2.1, hfirst.2.2]
  · simp [hdigits, isSingleDot, hfirst.2.1, hfirst.2.2]

/-- The encoded segments of a normalized path. -/
lemma slash_hrefChars_intercalate {segs : List (List Char)} (hne : segs ≠ []) :
    '/' :: hrefChars (['/'].intercalate segs) = Segments.render '/' (segs.map hrefChars) := by
  induction segs with
  | nil => exact absurd rfl hne
  | cons seg segs ih =>
    cases segs with
    | nil => simp
    | cons next segs =>
      have hsplit : ['/'].intercalate (seg :: next :: segs) =
          seg ++ (['/'] ++ ['/'].intercalate (next :: segs)) := by
        simp [List.intercalate]
      rw [hsplit, hrefChars_append, hrefChars_append, hrefChars_slash, List.singleton_append,
        ih (by simp)]
      rfl

/-- A normalized path is published as plain segments. -/
lemma exists_plain_segments (path : String) :
    ∃ segs, '/' :: (Epub.encodedHref (Epub.normalizePath path)).toList = Segments.render '/' segs ∧
      (∀ seg ∈ segs, IsPlainSegment seg) ∧ Segments.Free '/' segs := by
  rw [toList_encodedHref, Epub.normalizePath, String.toList_ofList]
  by_cases hkept : Epub.keptSegments path = []
  · refine ⟨[[]], by rw [hkept]; rfl, ?_, by simp [Segments.Free]⟩
    intro seg hseg
    obtain rfl := List.mem_singleton.mp hseg
    exact ⟨by simp, rfl, rfl⟩
  · refine ⟨_, slash_hrefChars_intercalate hkept, fun seg hseg => ?_, fun seg hseg => ?_⟩
    · obtain ⟨name, hname, rfl⟩ := List.mem_map.mp hseg
      have hdots := not_dot_hrefChars (Epub.isName_of_mem_kept hname)
      exact ⟨fun c hc => isPlain_of_mem_hrefChars hc, hdots.1, hdots.2⟩
    · obtain ⟨name, hname, rfl⟩ := List.mem_map.mp hseg
      exact slash_not_mem_hrefChars (Epub.isName_of_mem_kept hname).free

/-- **The URL of a normalized path** has the id and the encoded path as its `pathname`. -/
theorem urlPathname_memberUrlPath (bookId : ℕ) (path : String) :
    urlPathname (memberUrlPath bookId (Epub.encodedHref (Epub.normalizePath path))) =
      memberUrlPath bookId (Epub.encodedHref (Epub.normalizePath path)) := by
  obtain ⟨segs, hsegs, hplain, hfree⟩ := exists_plain_segments path
  have hdigits : '/' ∉ Nat.toDigits 10 bookId := fun hmem => by
    have hdigit := List.all_eq_true.mp (Decimal.all_isDigit_toDigits bookId) _ hmem
    exact absurd hdigit (by decide)
  have hpath : memberUrlPath bookId (Epub.encodedHref (Epub.normalizePath path)) =
      Segments.render '/' (Nat.toDigits 10 bookId :: segs) := by
    rw [memberUrlPath, List.cons_append, hsegs, Segments.render_cons]
  rw [hpath]
  refine urlPathname_render ?_ ?_ (by simp)
  · intro seg hseg
    obtain rfl | hseg := List.mem_cons.mp hseg
    · exact isPlainSegment_toDigits bookId
    · exact hplain seg hseg
  · intro seg hseg
    obtain rfl | hseg := List.mem_cons.mp hseg
    · exact hdigits
    · exact hfree seg hseg

/-- **The handler's routing** of the URL of a published path. -/
theorem serveBook_memberUrlPath {bookId : ℕ} (hpos : 0 < bookId) (hsafe : bookId ≤ maxSafeInteger)
    (path : String) :
    serveBook (memberUrlPath bookId (Epub.encodedHref path)) =
      match parseMemberPath path with
      | none => .badRequest "invalid member path"
      | some member => .resource bookId member := by
  have hdigits : ∀ c ∈ Nat.toDigits 10 bookId, (decide (c ≠ '/')) = true := by
    intro c hc
    have hdigit := List.all_eq_true.mp (Decimal.all_isDigit_toDigits bookId) c hc
    refine decide_eq_true fun heq => ?_
    rw [heq] at hdigit
    exact absurd hdigit (by decide)
  have hdrop : (memberUrlPath bookId (Epub.encodedHref path)).drop 1 =
      Nat.toDigits 10 bookId ++ '/' :: (Epub.encodedHref path).toList := rfl
  have hid : (Nat.toDigits 10 bookId ++ '/' :: (Epub.encodedHref path).toList).takeWhile
      (fun c => decide (c ≠ '/')) = Nat.toDigits 10 bookId := by
    rw [List.takeWhile_append_of_pos hdigits, List.takeWhile_cons_of_neg (by simp),
      List.append_nil]
  have hraw : (Nat.toDigits 10 bookId ++ '/' :: (Epub.encodedHref path).toList).dropWhile
      (fun c => decide (c ≠ '/')) = '/' :: (Epub.encodedHref path).toList := by
    rw [List.dropWhile_append_of_pos hdigits, List.dropWhile_cons_of_neg (by simp)]
  have hbook : parseBookId (Nat.toDigits 10 bookId) = some bookId := by
    simp [parseBookId, hpos, hsafe]
  rw [serveBook, hdrop]
  simp only [hid, hraw, hbook, decodeURIComponent_encodedHref, Option.bind_some]

namespace Epub

/-! ## Fetching the spine -/

/-- **A spine item is fetched from the member it names**: the URL of its published href reaches the
sidecar as a path that it accepts and that names the item's member, so that the read is that of
this member. -/
def FetchedFrom (zip : ZipArchive) (limits : ResourceLimits) (bookId : ℕ) (entry : SpineEntry) :
    Prop :=
  ∃ member,
    serveBook (urlPathname (memberUrlPath bookId entry.encoded)) = .resource bookId member ∧
      validateMemberPath member = .ok () ∧ normalizePath member = entry.zipPath ∧
      readMemberReader zip member limits = readEntry zip entry.zipPath limits

/-- A member name that can be asked for: not empty, at most 1024 UTF-16 units, without a backslash
or a control character, and without a drive at its start or as a segment. -/
structure Requestable (zipPath : String) : Prop where
  ne_empty : zipPath ≠ ""
  length : utf16Length zipPath ≤ maxMemberPathLength
  separator : '\\' ∉ zipPath.toList
  control : ∀ c ∈ zipPath.toList, isControl c = false
  drive : hasDrivePrefix zipPath.toList = false
  segments : ∀ seg ∈ zipPath.toList.splitOn '/', isDriveSegment seg = false

lemma normalizePath_normalizePath (path : String) :
    normalizePath (normalizePath path) = normalizePath path := by
  rw [normalizePath, keptSegments_normalizePath, normalizePath]

/-- What a fallible map gives comes from an element. -/
lemma exists_of_mem_mapM {ε α β : Type} {f : α → Except ε β} {l : List α} {out : List β} {b : β}
    (h : l.mapM f = .ok out) (hb : b ∈ out) : ∃ a ∈ l, f a = .ok b := by
  induction l generalizing out with
  | nil =>
    cases h
    cases hb
  | cons a l ih =>
    rw [List.mapM_cons] at h
    cases hfirst : f a with
    | error e =>
      rw [hfirst] at h
      cases h
    | ok first =>
      rw [hfirst] at h
      cases hrest : l.mapM f with
      | error e =>
        rw [hrest] at h
        cases h
      | ok rest =>
        rw [hrest] at h
        cases h
        obtain rfl | hb := List.mem_cons.mp hb
        · exact ⟨a, List.mem_cons_self, hfirst⟩
        · obtain ⟨a', ha', hf⟩ := ih hrest hb
          exact ⟨a', List.mem_cons_of_mem a ha', hf⟩

/-- What a spine resolves to. -/
lemma exists_of_mem_spine {zip : ZipArchive} {limits : ResourceLimits} {package : OpfPackage}
    {opfPath : String} {spine : List SpineEntry} {entry : SpineEntry}
    (h : buildSpine zip limits package opfPath = .ok spine) (hentry : entry ∈ spine) :
    checkArchiveTotals zip limits = .ok () ∧
      (∃ path, entry.zipPath = normalizePath path) ∧
      entry.encoded = encodedHref entry.zipPath := by
  rw [buildSpine] at h
  cases htotals : checkArchiveTotals zip limits with
  | error e =>
    rw [htotals] at h
    cases h
  | ok _ =>
    rw [htotals] at h
    cases hmanifest : validateManifest package with
    | error e =>
      rw [hmanifest] at h
      cases h
    | ok _ =>
      rw [hmanifest] at h
      obtain ⟨idref, -, hitem⟩ := exists_of_mem_mapM h hentry
      rw [resolveSpineEntry] at hitem
      split at hitem
      · cases hitem
      · next item _ =>
        split_ifs at hitem
        obtain rfl := Except.ok.inj hitem
        refine ⟨rfl, ?_, rfl⟩
        simp only [resolveZipPath]
        split_ifs
        · exact ⟨_, rfl⟩
        · exact ⟨_, rfl⟩

lemma kept_of_ne_empty {path : String} (hne : normalizePath path ≠ "") :
    keptSegments path ≠ [] := by
  intro hkept
  rw [normalizePath, hkept] at hne
  exact hne rfl

lemma head_normalizePath {path : String} (hne : normalizePath path ≠ "") :
    (normalizePath path).toList.head? ≠ some '/' := by
  intro hhead
  obtain ⟨rest, hrest⟩ := List.head?_eq_some_iff.mp hhead
  have hsplit := splitOn_normalizePath path
  rw [if_neg (kept_of_ne_empty hne), hrest, ← List.nil_append ('/' :: rest),
    List.splitOn_append_cons_self, List.splitOn_nil] at hsplit
  have hmem : [] ∈ keptSegments path := hsplit ▸ List.mem_cons_self
  exact (isName_of_mem_kept hmem).ne_nil rfl

/-- Both gates accept a normalized path exactly when it can be asked for. -/
lemma requestable_iff {path : String} (hne : normalizePath path ≠ "") :
    Requestable (normalizePath path) ↔
      validateMemberPath (normalizePath path) = .ok () ∧
        parseMemberPath (normalizePath path) = some (normalizePath path) := by
  have hcontrol (c : Char) : isControl c = false ↔
      ¬(c.toNat < 0x20 ∨ c.toNat = 0x7f) ∧ ¬(0x80 ≤ c.toNat ∧ c.toNat ≤ 0x9f) := by
    simp only [isControl, Bool.or_eq_false_iff, Bool.and_eq_false_iff, decide_eq_false_iff_not]
    omega
  rw [validateMemberPath_ok_iff, parseMemberPath_some_iff hne]
  constructor
  · intro h
    have hboth : ¬RefusedByBoth (normalizePath path) := by
      rintro (hsep | hhead | ⟨c, hc, hlow⟩ | hparent)
      · exact h.separator hsep
      · exact head_normalizePath hne hhead
      · exact ((hcontrol c).mp (h.control c hc)).1 hlow
      · exact noParent_normalizePath path hparent
    refine ⟨⟨hboth, ?_⟩, hboth, ?_⟩
    · rintro (⟨c, hc, hhigh⟩ | hdrive)
      · exact ((hcontrol c).mp (h.control c hc)).2 hhigh
      · exact absurd h.drive (by simp [hdrive])
    · rintro (hlong | ⟨seg, hseg, hdrive⟩)
      · exact absurd h.length (by omega)
      · exact absurd (h.segments seg hseg) (by simp [hdrive])
  · rintro ⟨⟨hboth, hsidecar⟩, -, hprotocol⟩
    rw [RefusedByBoth, not_or, not_or, not_or] at hboth
    rw [RefusedBySidecar, not_or] at hsidecar
    rw [RefusedByProtocol, not_or] at hprotocol
    constructor
    · exact hne
    · omega
    · exact hboth.1
    · refine fun c hc => (hcontrol c).mpr ⟨fun hlow => hboth.2.2.1 ⟨c, hc, hlow⟩, fun hhigh => ?_⟩
      exact hsidecar.1 ⟨c, hc, hhigh⟩
    · exact Bool.not_eq_true _ ▸ hsidecar.2
    · exact fun seg hseg => Bool.not_eq_true _ ▸ fun hdrive => hprotocol.2 ⟨seg, hseg, hdrive⟩

/-- The read of an accepted path that is normalized. -/
lemma readMemberReader_accepted {zip : ZipArchive} {limits : ResourceLimits} {member : String}
    (htotals : checkArchiveTotals zip limits = .ok ()) (hne : member ≠ "")
    (hok : validateMemberPath member = .ok ()) (hnormal : normalizePath member = member) :
    readMemberReader zip member limits = readEntry zip member limits := by
  rw [readMemberReader, htotals, hok, hnormal]
  simp [hne, bind, Except.bind]

lemma parseMemberPath_eq_some {path member : String} (h : parseMemberPath path = some member) :
    member = path := by
  simp only [parseMemberPath, Option.ite_none_left_eq_some, Option.some.injEq] at h
  exact h.2.2.2.2.2.2.symm

/-- **Published items are fetched from the members they name**, as far as their names can be asked
for, and one decoding undoes the encoding of every path. -/
theorem fetched_iff :
    (∀ (zip : ZipArchive) (limits : ResourceLimits) (package : OpfPackage) (opfPath : String)
        (spine : List SpineEntry) (entry : SpineEntry) (bookId : ℕ),
      buildSpine zip limits package opfPath = .ok spine → entry ∈ spine →
      HasMember zip entry.zipPath → 0 < bookId → bookId ≤ maxSafeInteger →
        (FetchedFrom zip limits bookId entry ↔ Requestable entry.zipPath)) ∧
      ∀ path, decodeURIComponent (encodedHref path).toList = some path := by
  refine ⟨?_, decodeURIComponent_encodedHref⟩
  intro zip limits package opfPath spine entry bookId hbuild hentry _ hpos hsafe
  obtain ⟨htotals, ⟨path, hpath⟩, hencoded⟩ := exists_of_mem_spine hbuild hentry
  have hserved := serveBook_memberUrlPath hpos hsafe (normalizePath path)
  rw [← urlPathname_memberUrlPath bookId path] at hserved
  rw [FetchedFrom, hencoded, hpath, hserved]
  by_cases hempty : normalizePath path = ""
  · have hrefused : parseMemberPath (normalizePath path) = none := by
      rw [hempty]
      decide
    refine iff_of_false ?_ fun h => h.ne_empty hempty
    rintro ⟨member, hmember, -⟩
    rw [hrefused] at hmember
    cases hmember
  · rw [requestable_iff hempty]
    constructor
    · rintro ⟨member, hmember, hok, -⟩
      cases hparsed : parseMemberPath (normalizePath path) with
      | none =>
        rw [hparsed] at hmember
        cases hmember
      | some found =>
        obtain rfl := parseMemberPath_eq_some hparsed
        rw [hparsed] at hmember
        cases hmember
        exact ⟨hok, rfl⟩
    · rintro ⟨hok, hparsed⟩
      have hnormal := normalizePath_normalizePath path
      refine ⟨normalizePath path, by rw [hparsed], hok, hnormal, ?_⟩
      exact readMemberReader_accepted htotals hempty hok hnormal

/-- An archive with one member of a few bytes. -/
def archiveOf (name : String) : ZipArchive :=
  [{ name := some name, isDir := false, compressedSize := 3, size := 3, data := some [1, 2, 3] }]

/-- A package whose spine is one chapter. -/
def packageOf (href : String) : OpfPackage where
  manifest := [("c1", { href, mediaType := "application/xhtml+xml" })]
  spine := ["c1"]

/-- The spine of such a package. -/
def spineOf (zipPath encoded : String) : List SpineEntry :=
  [{ zipPath, encoded, mediaType := "application/xhtml+xml" }]

theorem fetched_chapter :
    FetchedFrom (archiveOf "OEBPS/ch 1é.xhtml") ResourceLimits.defaults 7
        ⟨"OEBPS/ch 1é.xhtml", "OEBPS/ch%201%C3%A9.xhtml", "application/xhtml+xml"⟩ ↔
      Requestable "OEBPS/ch 1é.xhtml" :=
  fetched_iff.1 (archiveOf "OEBPS/ch 1é.xhtml") ResourceLimits.defaults
    (packageOf "ch%201%C3%A9.xhtml")
    "OEBPS/content.opf" (spineOf "OEBPS/ch 1é.xhtml" "OEBPS/ch%201%C3%A9.xhtml")
    ⟨"OEBPS/ch 1é.xhtml", "OEBPS/ch%201%C3%A9.xhtml", "application/xhtml+xml"⟩ 7
    (by decide +kernel) (by decide) ⟨_, List.mem_cons_self, rfl, rfl⟩ (by decide) (by decide)

/-- A chapter whose member is named with a backslash is published and refused. -/
theorem not_fetched_backslash :
    buildSpine (archiveOf "one\\two.xhtml") ResourceLimits.defaults (packageOf "one%5Ctwo.xhtml")
        "content.opf" = .ok (spineOf "one\\two.xhtml" "one%5Ctwo.xhtml") ∧
      HasMember (archiveOf "one\\two.xhtml") "one\\two.xhtml" ∧
      ¬FetchedFrom (archiveOf "one\\two.xhtml") ResourceLimits.defaults 7
        ⟨"one\\two.xhtml", "one%5Ctwo.xhtml", "application/xhtml+xml"⟩ := by
  refine ⟨by decide +kernel, ⟨_, List.mem_cons_self, rfl, rfl⟩, ?_⟩
  have hname : normalizePath "one\\two.xhtml" = "one\\two.xhtml" := by decide +kernel
  have hencoded : encodedHref "one\\two.xhtml" = "one%5Ctwo.xhtml" := by decide +kernel
  have hrefused : parseMemberPath "one\\two.xhtml" = none := by decide +kernel
  have hserved := @serveBook_memberUrlPath 7 (by decide) (by decide) "one\\two.xhtml"
  have hurl := urlPathname_memberUrlPath 7 "one\\two.xhtml"
  rw [hname] at hurl
  rw [← hurl, hencoded, hrefused] at hserved
  rintro ⟨member, hmember, -⟩
  rw [hserved] at hmember
  cases hmember

end Epub

end TuxBooks
