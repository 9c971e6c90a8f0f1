import TuxBooks.Lib.Url

set_option relaxedAutoImplicit false
set_option autoImplicit false

/-!
# Fencing the links of a publication

`frontend/src/lib/epub/contentPolicy.ts` strips attributes with a script scheme and classifies the
links of a publication, both on the trimmed text. The browser resolves the same text by the rules of
the URL parser against the base of the publication.

A lower case matters only where it is compared with ASCII text; the characters outside ASCII with
such a lower case occur in none of the texts compared with.

## Main definitions

* `TuxBooks.LinkFence.hasScriptScheme`, `TuxBooks.LinkFence.classifyPublicationHref` — the fence.
* `TuxBooks.LinkFence.Agrees` — what the fence says of a text agrees with how it is resolved.
* `TuxBooks.LinkFence.Visible` — the text hides no scheme and no two slashes from the fence.

## Main results

* `TuxBooks.LinkFence.agrees_iff` — when the fence agrees with the URL parser.
-/

namespace TuxBooks

namespace LinkFence

open List Url

/-! ## The fence -/

def activeUrlAttributes : List String := ["href", "src", "action", "formaction", "poster"]

def scriptSchemes : List String := ["javascript:", "vbscript:"]

/-- `trim`. -/
def trim (value : String) : List Char := JsText.stripped (JsText.isSpace ·.toNat) value.toList

def hasScriptScheme (value : String) : Bool :=
  scriptSchemes.any fun scheme => scheme.toList.isPrefixOf ((trim value).map Char.toLower)

/-- An attribute of an element, whose name no other attribute of the element has. -/
structure Attribute where
  name : String
  localName : String
  value : String

/-- The attributes that stay, without handlers and without script-scheme URLs. -/
def scrubActiveAttributes (attributes : List Attribute) : List Attribute :=
  attributes.filter fun attr =>
    !("on".toList.isPrefixOf (attr.name.toList.map Char.toLower)) &&
      !(attr.localName ∈ activeUrlAttributes && hasScriptScheme attr.value)

inductive PublicationHrefClass where
  | inBook
  | external
  | blocked
  deriving DecidableEq

def externalHrefSchemes : List String := ["http:", "https:", "mailto:", "tel:"]

/-- What a link inside publication content may do. -/
def classifyPublicationHref (href : String) : PublicationHrefClass :=
  let trimmed := trim href
  if ['/', '/'] <+: trimmed then .blocked
  else
    match schemeName trimmed with
    | none => .inBook
    | some name =>
      if String.ofList ((name ++ [':']).map Char.toLower) ∈ externalHrefSchemes then .external
      else .blocked

/-- The scheme and the host of `tuxbooks://book/<id>/`. -/
def publicationBase : Parsed where
  scheme := "tuxbooks".toList
  host := some "book".toList

/-! ## Agreement -/

/-- The schemes that run code. -/
def IsScript (scheme : List Char) : Prop :=
  scheme = "javascript".toList ∨ scheme = "vbscript".toList

/-- A text that resolves to a script is stripped from every active attribute, and a text that is
taken for an in-book link stays on the publication's scheme and host. -/
structure Agrees (platform : Platform) (value : String) : Prop where
  script : ∀ url, resolve platform publicationBase value.toList = some url → IsScript url.scheme →
    hasScriptScheme value = true ∧
      ∀ attributes, ∀ attr ∈ scrubActiveAttributes attributes,
        attr.localName ∈ activeUrlAttributes → attr.value ≠ value
  inBook : classifyPublicationHref value = .inBook →
    ∀ url, resolve platform publicationBase value.toList = some url →
      url.scheme = publicationBase.scheme ∧ url.host = publicationBase.host

/-- The scheme with its colon, or the two slashes, that the parser finds stand in the text as they
are, after nothing but white space that trimming removes. -/
def Visible (value : String) : Prop :=
  ∀ m, marker (preprocess value.toList) = some m →
    (∀ c ∈ value.toList.takeWhile isControlOrSpace, JsText.isSpace c.toNat = true) ∧
      m <+: value.toList.dropWhile isControlOrSpace

/-- The text is no URL, or one on the publication's scheme and host. -/
def Harmless (platform : Platform) (value : String) : Prop :=
  ∀ url, resolve platform publicationBase value.toList = some url →
    url.scheme = publicationBase.scheme ∧ url.host = publicationBase.host

/-! ## What the fence sees -/

/-- The fence lets a link pass as in-book exactly when the trimmed text begins with no marker. -/
lemma classify_eq_inBook_iff (value : String) :
    classifyPublicationHref value = .inBook ↔ marker (trim value) = none := by
  unfold classifyPublicationHref marker
  dsimp only
  by_cases hslashes : ['/', '/'] <+: trim value
  · rw [if_pos hslashes]
    cases schemeName (trim value) <;> simp [hslashes]
  · rw [if_neg hslashes]
    cases hname : schemeName (trim value) with
    | none => simp [hslashes]
    | some name =>
      dsimp only
      split_ifs <;> simp

/-- The fence strips a text exactly when the marker of the trimmed text is a script scheme. -/
lemma hasScriptScheme_iff (value : String) :
    hasScriptScheme value = true ↔
      ∃ name, marker (trim value) = some (name ++ [':']) ∧ IsScript (name.map Char.toLower) := by
  have hjavascript :=
    @prefix_map_toLower_iff "javascript".toList (trim value) (by decide)
      (all_eq_true.mp rfl)
  have hvbscript :=
    @prefix_map_toLower_iff "vbscript".toList (trim value) (by decide) (all_eq_true.mp rfl)
  have hsplit : hasScriptScheme value = true ↔
      "javascript".toList ++ [':'] <+: (trim value).map Char.toLower ∨
        "vbscript".toList ++ [':'] <+: (trim value).map Char.toLower := by
    simp only [hasScriptScheme, scriptSchemes, any_cons, any_nil, Bool.or_false, Bool.or_eq_true,
      isPrefixOf_iff_prefix]
    rfl
  rw [hsplit, hjavascript, hvbscript]
  constructor
  · rintro (⟨name, hname, heq⟩ | ⟨name, hname, heq⟩)
    · exact ⟨name, hname, .inl heq⟩
    · exact ⟨name, hname, .inr heq⟩
  · rintro ⟨name, hname, heq | heq⟩
    · exact .inl ⟨name, hname, heq⟩
    · exact .inr ⟨name, hname, heq⟩

/-- A stripped text is in no active attribute that stays. -/
lemma value_ne_of_mem_scrub {value : String} (h : hasScriptScheme value = true)
    {attributes : List Attribute} {attr : Attribute}
    (hattr : attr ∈ scrubActiveAttributes attributes)
    (hactive : attr.localName ∈ activeUrlAttributes) : attr.value ≠ value := by
  rintro rfl
  simp [scrubActiveAttributes, hactive, h] at hattr

/-! ## What both see -/

/-- The first character of a marker, which neither side removes. -/
lemma exists_head_of_isMarker {m : List Char} (h : IsMarker m) :
    ∃ c rest, m = c :: rest ∧ (isSchemeChar c = true ∨ c = ':' ∨ c = '/') := by
  have hne : m ≠ [] := by cases h <;> simp
  obtain ⟨c, rest, rfl⟩ := exists_cons_of_ne_nil hne
  exact ⟨c, rest, rfl, h.chars c mem_cons_self⟩

/-- What follows the controls and spaces at the start begins as the parser's marker does. -/
lemma exists_head {value : String} {m : List Char}
    (h : marker (preprocess value.toList) = some m) :
    ∃ c rest, value.toList.dropWhile isControlOrSpace = c :: rest ∧
      JsText.isSpace c.toNat = false := by
  obtain ⟨hmarker, hprefix⟩ := marker_eq_some_iff.mp h
  obtain ⟨d, after, rfl, hd⟩ := exists_head_of_isMarker hmarker
  cases hbody : value.toList.dropWhile isControlOrSpace with
  | nil =>
    rw [preprocess, JsText.stripped, hbody] at hprefix
    exact absurd (prefix_nil.mp hprefix) (cons_ne_nil d after)
  | cons c rest =>
    have hcontrol : isControlOrSpace c = false := by
      have hhead := head?_dropWhile_not isControlOrSpace value.toList
      simpa [hbody] using hhead
    have hkept : isTabOrNewline c = false := by
      by_contra htab
      simp only [isTabOrNewline, Bool.or_eq_true, decide_eq_true_eq, Bool.not_eq_false] at htab
      rcases htab with (rfl | rfl) | rfl <;> exact absurd hcontrol (by decide)
    have hfirst : [c] <+: preprocess value.toList := by
      have hstripped : [c] <+: JsText.stripped isControlOrSpace value.toList := by
        rw [JsText.prefix_stripped_iff (by simpa using hcontrol), hbody]
        exact ⟨rest, rfl⟩
      simpa [preprocess, hkept] using hstripped.filter (! isTabOrNewline ·)
    have hsame : c = d := by
      obtain ⟨tail, htail⟩ := hfirst
      obtain ⟨tail', htail'⟩ := hprefix
      rw [← htail'] at htail
      exact (cons.inj htail).1
    exact ⟨c, rest, rfl, hsame ▸ isSpace_of_visible hd⟩

/-- After white space that trimming removes, both sides see the same text. -/
lemma dropWhile_isSpace {value : String} {m : List Char}
    (h : marker (preprocess value.toList) = some m)
    (hspace : ∀ c ∈ value.toList.takeWhile isControlOrSpace, JsText.isSpace c.toNat = true) :
    value.toList.dropWhile (JsText.isSpace ·.toNat) =
      value.toList.dropWhile isControlOrSpace := by
  obtain ⟨c, rest, hbody, hc⟩ := exists_head h
  conv_lhs => rw [← takeWhile_append_dropWhile (p := isControlOrSpace) (l := value.toList)]
  rw [dropWhile_append_of_pos hspace, hbody, dropWhile_cons_of_neg (by simp [hc])]

/-- Where trimming leaves a marker at the front, nothing but white space stood before it. -/
lemma visible_of_prefix_trim {value : String} {m m' : List Char}
    (h : marker (preprocess value.toList) = some m) (hm' : marker (trim value) = some m') :
    Visible value := by
  obtain ⟨hmarker', hprefix'⟩ := marker_eq_some_iff.mp hm'
  have hseen : m' <+: value.toList.dropWhile (JsText.isSpace ·.toNat) :=
    (JsText.prefix_stripped_iff fun c hc => isSpace_of_visible (hmarker'.chars c hc)).mp hprefix'
  have hspace : ∀ c ∈ value.toList.takeWhile isControlOrSpace, JsText.isSpace c.toNat = true := by
    rw [← dropWhile_eq_nil_iff]
    cases hkept : (value.toList.takeWhile isControlOrSpace).dropWhile (JsText.isSpace ·.toNat) with
    | nil => rfl
    | cons x xs =>
      -- Trimming stops at this control, where a marker cannot begin.
      exfalso
      rw [← takeWhile_append_dropWhile (p := isControlOrSpace) (l := value.toList),
        dropWhile_append, hkept] at hseen
      obtain ⟨d, after, rfl, hd⟩ := exists_head_of_isMarker hmarker'
      have hsame : d = x := by
        obtain ⟨tail, htail⟩ := hseen
        exact (cons.inj htail).1
      have hmem : x ∈ value.toList.takeWhile isControlOrSpace := by
        apply (dropWhile_sublist (JsText.isSpace ·.toNat)).subset
        rw [hkept]
        exact mem_cons_self
      have hcontrol : isControlOrSpace x = true := mem_takeWhile_imp hmem
      rw [← hsame, isControlOrSpace_of_visible hd] at hcontrol
      cases hcontrol
  rw [dropWhile_isSpace h hspace] at hseen
  intro m'' hm''
  obtain ⟨hmarker'', hprefix''⟩ := marker_eq_some_iff.mp hm''
  rw [marker_unique hmarker'' hmarker' hprefix'' (prefix_preprocess hmarker' hseen)]
  exact ⟨hspace, hseen⟩

/-- The marker of a text that hides nothing is seen by the fence. -/
lemma marker_trim {value : String} {m : List Char} (h : marker (preprocess value.toList) = some m)
    (hvisible : Visible value) : marker (trim value) = some m := by
  obtain ⟨hspace, hprefix⟩ := hvisible m h
  obtain ⟨hmarker, _⟩ := marker_eq_some_iff.mp h
  rw [← dropWhile_isSpace h hspace] at hprefix
  exact marker_eq_some_iff.mpr ⟨hmarker,
    (JsText.prefix_stripped_iff fun c hc => isSpace_of_visible (hmarker.chars c hc)).mpr hprefix⟩

/-- The host before the first slash, where it is made of letters, digits, dots and hyphens. -/
def plainHost (text : List Char) : Option (List Char) :=
  let host := text.takeWhile fun c => c ≠ '/' && c ≠ '?' && c ≠ '#'
  if host.all fun c => c.isAlphanum || c = '.' || c = '-' then some host else none

/-- A platform that knows hosts of that kind only. -/
def plainPlatform : Platform where
  special _ rest := (plainHost (rest.dropWhile (· = '/'))).map some
  authority := plainHost

end LinkFence

end TuxBooks
