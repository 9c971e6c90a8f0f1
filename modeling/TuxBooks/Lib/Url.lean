import Mathlib
import TuxBooks.Lib.JsText

set_option relaxedAutoImplicit false
set_option autoImplicit false

/-!
# The scheme and the host of a resolved URL

The start of the WHATWG URL parser: control characters and spaces at the ends of the input are
removed, and tabs and newlines anywhere; then a scheme is looked for. What the parser does with an
authority, where it may fail, is a parameter.

## Main definitions

* `Url.preprocess`, `Url.resolve` — resolving a reference against a base with a path.
* `Url.IsMarker`, `Url.marker` — a scheme with its colon or two slashes at the start of a text,
  which is all that takes a reference away from its base.

## Main results

* `Url.marker_eq_some_iff` — a marker is the one that the text begins with.
* `Url.resolve_of_marker_none` — a text without one stays with the base.
-/

namespace Url

open List

/-! ## Preprocessing -/

/-- A C0 control or a space. -/
def isControlOrSpace (c : Char) : Bool := c.toNat ≤ 0x20

def isTabOrNewline (c : Char) : Bool := c = '\t' || c = '\n' || c = '\r'

/-- The input without controls and spaces at the ends and without tabs and newlines. -/
def preprocess (input : List Char) : List Char :=
  (JsText.stripped isControlOrSpace input).filter (! isTabOrNewline ·)

/-! ## Markers -/

/-- A character of a scheme after the first. -/
def isSchemeChar (c : Char) : Bool := c.isAlphanum || c = '+' || c = '-' || c = '.'

/-- A scheme at the start of a text, as it is written. -/
def schemeName : List Char → Option (List Char)
  | c :: rest =>
    if c.isAlpha then
      match rest.dropWhile isSchemeChar with
      | ':' :: _ => some (c :: rest.takeWhile isSchemeChar)
      | _ => none
    else none
  | [] => none

/-- What begins an absolute reference: a scheme with its colon, or two slashes. -/
def marker (text : List Char) : Option (List Char) :=
  match schemeName text with
  | some name => some (name ++ [':'])
  | none => if ['/', '/'] <+: text then some ['/', '/'] else none

/-- A scheme with its colon, or two slashes. -/
inductive IsMarker : List Char → Prop where
  | scheme (c : Char) (name : List Char) (hc : c.isAlpha = true)
      (hname : ∀ d ∈ name, isSchemeChar d = true) : IsMarker (c :: name ++ [':'])
  | slashes : IsMarker ['/', '/']

lemma isSchemeChar_of_isAlpha {c : Char} (h : c.isAlpha = true) : isSchemeChar c = true := by
  simp [isSchemeChar, Char.isAlphanum, h]

/-- The characters of a marker are those of schemes, the colon and the slash. -/
lemma IsMarker.chars {m : List Char} (h : IsMarker m) :
    ∀ c ∈ m, isSchemeChar c = true ∨ c = ':' ∨ c = '/' := by
  cases h with
  | scheme c name hc hname =>
    intro d hd
    rcases mem_append.mp hd with hd | hd
    · rcases mem_cons.mp hd with rfl | hd
      · exact .inl (isSchemeChar_of_isAlpha hc)
      · exact .inl (hname d hd)
    · exact .inr (.inl (mem_singleton.mp hd))
  | slashes =>
    intro d hd
    have : d = '/' := by simpa using hd
    exact .inr (.inr this)

/-- The characters of a marker lie between the space and the end of ASCII. -/
lemma toNat_of_visible {c : Char} (h : isSchemeChar c = true ∨ c = ':' ∨ c = '/') :
    0x2b ≤ c.toNat ∧ c.toNat ≤ 0x7a := by
  rcases h with h | rfl | rfl
  · simp only [isSchemeChar, Bool.or_eq_true, decide_eq_true_eq] at h
    rcases h with ((h | rfl) | rfl) | rfl
    · simp only [Char.isAlphanum, Char.isAlpha, Char.isUpper, Char.isLower, Char.isDigit,
        Bool.or_eq_true, decide_eq_true_eq, Bool.and_eq_true, UInt32.le_iff_toNat_le,
        ge_iff_le] at h
      change ((65 ≤ c.toNat ∧ c.toNat ≤ 90) ∨ (97 ≤ c.toNat ∧ c.toNat ≤ 122)) ∨
        (48 ≤ c.toNat ∧ c.toNat ≤ 57) at h
      omega
    all_goals decide
  all_goals decide

lemma isControlOrSpace_of_visible {c : Char} (h : isSchemeChar c = true ∨ c = ':' ∨ c = '/') :
    isControlOrSpace c = false := by
  have hrange := toNat_of_visible h
  simp only [isControlOrSpace, decide_eq_false_iff_not]
  omega

lemma isTabOrNewline_of_visible {c : Char} (h : isSchemeChar c = true ∨ c = ':' ∨ c = '/') :
    isTabOrNewline c = false := by
  have hrange := toNat_of_visible h
  simp only [isTabOrNewline, Bool.or_eq_false_iff, decide_eq_false_iff_not]
  refine ⟨⟨?_, ?_⟩, ?_⟩ <;> rintro rfl <;> revert hrange <;> decide

/-- Trimming what the platform calls white space leaves a marker alone. -/
lemma isSpace_of_visible {c : Char} (h : isSchemeChar c = true ∨ c = ':' ∨ c = '/') :
    JsText.isSpace c.toNat = false := by
  have hrange := toNat_of_visible h
  simp only [JsText.isSpace, Bool.or_eq_false_iff, Bool.and_eq_false_iff, decide_eq_false_iff_not]
  refine ⟨?_, .inl (by omega)⟩
  simp only [List.mem_cons, List.not_mem_nil, or_false]
  omega

/-- A scheme ends where its characters end. -/
lemma schemeName_append {c : Char} {name rest : List Char} (hc : c.isAlpha = true)
    (hname : ∀ d ∈ name, isSchemeChar d = true) :
    schemeName (c :: name ++ ':' :: rest) = some (c :: name) := by
  have hcolon : isSchemeChar ':' = false := by decide
  have hdrop : (name ++ ':' :: rest).dropWhile isSchemeChar = ':' :: rest := by
    rw [dropWhile_append_of_pos hname, dropWhile_cons_of_neg (by simp [hcolon])]
  have htake : (name ++ ':' :: rest).takeWhile isSchemeChar = name := by
    rw [takeWhile_append_of_pos hname, takeWhile_cons_of_neg (by simp [hcolon]), append_nil]
  simp only [cons_append, schemeName, hc, if_true, hdrop, htake]

/-- What is read as a scheme is one, followed by its colon. -/
lemma schemeName_eq_some {text name : List Char} (h : schemeName text = some name) :
    IsMarker (name ++ [':']) ∧ name ++ [':'] <+: text := by
  cases text with
  | nil => cases h
  | cons c rest =>
    rw [schemeName] at h
    split_ifs at h with hc
    split at h
    · next after hdrop =>
      cases h
      refine ⟨.scheme c _ hc fun d hd => ?_, after, ?_⟩
      · exact mem_takeWhile_imp hd
      · have hsplit := takeWhile_append_dropWhile (p := isSchemeChar) (l := rest)
        rw [hdrop] at hsplit
        simpa using hsplit
    · cases h

/-- **A marker is the one that the text begins with.** -/
theorem marker_eq_some_iff {text m : List Char} :
    marker text = some m ↔ IsMarker m ∧ m <+: text := by
  constructor
  · intro h
    unfold marker at h
    split at h
    · next name hname =>
      cases h
      exact schemeName_eq_some hname
    · split_ifs at h with hslashes
      cases h
      exact ⟨.slashes, hslashes⟩
  · rintro ⟨hmarker, rest, rfl⟩
    cases hmarker with
    | scheme c name hc hname =>
      have hscheme := @schemeName_append c name rest hc hname
      rw [marker, append_assoc, singleton_append, hscheme]
    | slashes =>
      have hnone : schemeName (['/', '/'] ++ rest) = none := by
        rw [cons_append, schemeName]
        rfl
      rw [marker, hnone]
      exact if_pos (prefix_append _ _)

/-- One text begins with at most one marker. -/
lemma marker_unique {text m m' : List Char} (h : IsMarker m) (h' : IsMarker m') (hm : m <+: text)
    (hm' : m' <+: text) : m = m' :=
  Option.some.inj ((marker_eq_some_iff.mpr ⟨h, hm⟩).symm.trans (marker_eq_some_iff.mpr ⟨h', hm'⟩))

/-- A marker after the controls at the start is seen by the parser. -/
lemma prefix_preprocess {m input : List Char} (h : IsMarker m)
    (hm : m <+: input.dropWhile isControlOrSpace) : m <+: preprocess input := by
  have hkept : m.filter (! isTabOrNewline ·) = m := by
    rw [filter_eq_self]
    intro c hc
    simp [isTabOrNewline_of_visible (h.chars c hc)]
  rw [preprocess, ← hkept]
  exact ((JsText.prefix_stripped_iff fun c hc =>
    isControlOrSpace_of_visible (h.chars c hc)).mpr hm).filter _

/-! ## Lower case -/

lemma isAlpha_of_toLower {c : Char} (h : c.toLower.isAlpha = true) : c.isAlpha = true := by
  unfold Char.toLower at h
  split_ifs at h with hupper
  · simp only [Char.isAlpha, Char.isUpper, Bool.or_eq_true, decide_eq_true_eq]
    exact .inl hupper
  · exact h

lemma eq_colon_of_toLower {c : Char} (h : c.toLower = ':') : c = ':' := by
  unfold Char.toLower at h
  split_ifs at h with hupper
  · have hval : (c.val + ('a'.val - 'A'.val)).toNat = 58 := congrArg Char.toNat h
    rw [UInt32.toNat_add] at hval
    simp only [ge_iff_le, UInt32.le_iff_toNat_le] at hupper
    change 65 ≤ c.val.toNat ∧ c.val.toNat ≤ 90 at hupper
    change (c.val.toNat + 32) % 2 ^ 32 = 58 at hval
    omega
  · exact h

/-- A scheme of letters is found in lower case exactly when it is the marker of the text. -/
lemma prefix_map_toLower_iff {scheme text : List Char} (hne : scheme ≠ [])
    (halpha : ∀ c ∈ scheme, c.isAlpha = true) :
    scheme ++ [':'] <+: text.map Char.toLower ↔
      ∃ name, marker text = some (name ++ [':']) ∧ name.map Char.toLower = scheme := by
  constructor
  · intro hprefix
    obtain ⟨pre, hpre, heq⟩ := prefix_map_iff.mp hprefix
    obtain ⟨name, colon, rfl, hname, hcolon⟩ := map_eq_append_iff.mp heq.symm
    obtain ⟨c, rfl, hc⟩ := map_eq_singleton_iff.mp hcolon
    obtain rfl := eq_colon_of_toLower hc
    refine ⟨name, marker_eq_some_iff.mpr ⟨?_, hpre⟩, hname⟩
    subst hname
    cases name with
    | nil => exact absurd rfl hne
    | cons a name =>
      refine .scheme a name (isAlpha_of_toLower (halpha _ mem_cons_self)) fun d hd => ?_
      exact isSchemeChar_of_isAlpha
        (isAlpha_of_toLower (halpha _ (mem_cons_of_mem _ (mem_map_of_mem hd))))
  · rintro ⟨name, hmarker, rfl⟩
    have hprefix := (marker_eq_some_iff.mp hmarker).2.map Char.toLower
    rwa [map_append] at hprefix

/-! ## Resolving -/

/-- A URL, as far as its scheme and its host go. -/
structure Parsed where
  scheme : List Char
  host : Option (List Char)
  deriving DecidableEq

/-- The part of the parser that begins with an authority. It fails on some of them. -/
structure Platform where
  /-- After the colon of a special scheme. -/
  special : List Char → List Char → Option (Option (List Char))
  /-- After the two slashes of any other URL. -/
  authority : List Char → Option (List Char)

def specialSchemes : List (List Char) :=
  ["ftp", "file", "http", "https", "ws", "wss"].map String.toList

/-- The URL that the text after a scheme's colon gives. -/
def parseAfterScheme (platform : Platform) (scheme rest : List Char) : Option Parsed :=
  if scheme ∈ specialSchemes then (platform.special scheme rest).map fun host => ⟨scheme, host⟩
  else
    match rest with
    | '/' :: '/' :: authority => (platform.authority authority).map fun host => ⟨scheme, some host⟩
    | _ => some ⟨scheme, none⟩

/-- Resolving against a base that has a path and a scheme that is not special. -/
def resolve (platform : Platform) (base : Parsed) (input : List Char) : Option Parsed :=
  let text := preprocess input
  match schemeName text with
  | some name =>
    parseAfterScheme platform (name.map Char.toLower) (text.drop (name.length + 1))
  | none =>
    match text with
    | '/' :: '/' :: authority =>
      (platform.authority authority).map fun host => ⟨base.scheme, some host⟩
    | _ => some base

lemma scheme_of_parseAfterScheme {platform : Platform} {scheme rest : List Char} {url : Parsed}
    (h : parseAfterScheme platform scheme rest = some url) : url.scheme = scheme := by
  unfold parseAfterScheme at h
  split_ifs at h
  · obtain ⟨host, _, rfl⟩ := Option.map_eq_some_iff.mp h
    rfl
  · split at h
    · obtain ⟨host, _, rfl⟩ := Option.map_eq_some_iff.mp h
      rfl
    · cases h
      rfl

/-- A text without a marker stays with the base. -/
theorem resolve_of_marker_none {platform : Platform} {base : Parsed} {input : List Char}
    (h : marker (preprocess input) = none) : resolve platform base input = some base := by
  unfold marker at h
  split at h
  · cases h
  · next hscheme =>
    split_ifs at h with hslashes
    unfold resolve
    dsimp only
    rw [hscheme]
    dsimp only
    split
    · next authority htext =>
      rw [htext] at hslashes
      exact absurd ⟨authority, rfl⟩ hslashes
    · rfl

/-- The scheme of a URL is that of its marker, or the one of the base. -/
theorem scheme_of_resolve {platform : Platform} {base : Parsed} {input : List Char} {url : Parsed}
    (h : resolve platform base input = some url) :
    url.scheme = base.scheme ∨
      ∃ name, marker (preprocess input) = some (name ++ [':']) ∧
        url.scheme = name.map Char.toLower := by
  unfold resolve at h
  dsimp only at h
  split at h
  · next name hname =>
    refine .inr ⟨name, ?_, scheme_of_parseAfterScheme h⟩
    rw [marker, hname]
  · left
    split at h
    · obtain ⟨host, _, rfl⟩ := Option.map_eq_some_iff.mp h
      rfl
    · cases h
      rfl

end Url
