import TuxBooks.Epub.Contents
import TuxBooks.Lib.Url

set_option relaxedAutoImplicit false
set_option autoImplicit false

/-!
# What the table of contents names

A spine entry is published under the encoding of its zip path. A link of the table of contents is
resolved, joined with its fragment again, and split again before its path is encoded.

## Main definitions

* `TuxBooks.Epub.targetPath`, `TuxBooks.Epub.isRemoteWebLink` — where a link leads.
* `TuxBooks.Epub.NamesTarget` — a published link names the document that the link leads to, as
  the spine does, and a remote web link is kept.
* `TuxBooks.Epub.IsLocalLink` — the links for which that is so.

## Main results

* `TuxBooks.Epub.toc_names_iff` — all links of a book are published so exactly when each of them
  is local.
-/

namespace TuxBooks

namespace Epub

/-! ## Where a link leads -/

/-- The part of a package that its spine is resolved from. -/
def readingOrder (package : Opf.OpfPackage) : OpfPackage where
  manifest := package.manifest.entries.map fun entry =>
    (entry.1, { href := entry.2.href, mediaType := entry.2.mediaType })
  spine := package.spine

def isRemoteWebLink (href : String) : Bool :=
  ["http://", "https://"].any fun scheme =>
    scheme.toList.isPrefixOf ((trim href).toList.map Char.toLower)

/-- The zip path that a link leads to. It is resolved against its document as a manifest item is
against the package document; an empty path is the document itself. -/
def targetPath (docPath href : String) : String :=
  if (splitFragment href).1 = "" then docPath else resolveZipPath docPath (splitFragment href).1

/-- A path with its fragment. -/
def attachFragment (path : String) (fragment : Option String) : String :=
  match fragment with
  | some fragment => path ++ "#" ++ fragment
  | none => path

/-- What is published of a link names its target. -/
structure NamesTarget (spine : List SpineEntry) (link : SourceLink) (published : PublishedHref) :
    Prop where
  /-- A remote web link is kept. -/
  remote : ∀ href ∈ link.href?, isRemoteWebLink href = true →
    attachFragment published.href published.fragment = href
  /-- A link to a spine document is published as the document is, with the fragment. -/
  spine : ∀ href ∈ link.href?, isRemoteWebLink href = false → ∀ entry ∈ spine,
    entry.zipPath = targetPath link.docPath href →
      published = ⟨entry.encoded, (splitFragment href).2⟩

/-- A link that is no remote web link, and if it leads to a spine document, it does so by a path,
to a document without the separator of fragments in its zip path. -/
def IsLocalLink (spine : List SpineEntry) (link : SourceLink) : Prop :=
  ∀ href ∈ link.href?, isRemoteWebLink href = false ∧
    ((∃ entry ∈ spine, entry.zipPath = targetPath link.docPath href) →
      '#' ∉ (targetPath link.docPath href).toList ∧
        ((splitFragment href).1 = "" → link.docPath = ""))

/-! ## Splitting what was joined -/

/-- The path of a link is what stands before the first separator. -/
lemma splitFragment_path (href : String) :
    (splitFragment href).1 = String.ofList (href.toList.takeWhile (· ≠ '#')) := by
  rw [splitFragment]
  have happend := List.takeWhile_append_dropWhile (p := (· ≠ '#')) (l := href.toList)
  cases hdrop : href.toList.dropWhile (· ≠ '#') with
  | nil =>
    rw [hdrop, List.append_nil] at happend
    exact String.toList_injective (by rw [String.toList_ofList, happend])
  | cons c rest => rfl

lemma toList_attachFragment (path : String) (fragment : Option String) :
    (attachFragment path fragment).toList =
      path.toList ++ fragment.elim [] fun fragment => '#' :: fragment.toList := by
  cases fragment with
  | none => exact (List.append_nil _).symm
  | some fragment => simp [attachFragment]

/-- Joining and splitting keeps no more than the path had before its own separator. -/
lemma takeWhile_attachFragment (path : String) (fragment : Option String) :
    (attachFragment path fragment).toList.takeWhile (· ≠ '#') =
      path.toList.takeWhile (· ≠ '#') := by
  rw [toList_attachFragment]
  by_cases hmem : '#' ∈ path.toList
  · rw [List.takeWhile_append, if_neg]
    intro hlen
    have heq := (List.takeWhile_prefix (· ≠ '#')).eq_of_length hlen
    have := List.takeWhile_eq_self_iff.1 heq '#' hmem
    simp at this
  · have hall : ∀ c ∈ path.toList, decide (c ≠ '#') = true :=
      fun c hc => decide_eq_true fun heq => hmem (heq ▸ hc)
    rw [List.takeWhile_append_of_pos hall, List.takeWhile_eq_self_iff.2 hall]
    cases fragment with
    | none => simp
    | some fragment => simp

/-- A path without the separator is split from its fragment as it was joined. -/
lemma splitFragment_attachFragment {path : String} (hfree : '#' ∉ path.toList)
    (fragment : Option String) :
    splitFragment (attachFragment path fragment) = (path, fragment) := by
  have hall : ∀ c ∈ path.toList, decide (c ≠ '#') = true :=
    fun c hc => decide_eq_true fun heq => hfree (heq ▸ hc)
  have hpath := splitFragment_path (attachFragment path fragment)
  rw [takeWhile_attachFragment, List.takeWhile_eq_self_iff.2 hall, String.ofList_toList] at hpath
  refine Prod.ext hpath ?_
  rw [splitFragment, toList_attachFragment, List.dropWhile_append_of_pos hall]
  cases fragment with
  | none => rfl
  | some fragment => simp

/-- A link is resolved as a manifest item is, and keeps its fragment. -/
lemma resolveNavHref_eq (docPath href : String) :
    resolveNavHref (directoryOf docPath) href =
      attachFragment (resolveZipPath docPath (splitFragment href).1) (splitFragment href).2 := by
  rw [resolveNavHref]
  cases splitFragment href with
  | mk path fragment => cases fragment with
    | none => rfl
    | some fragment => rfl

lemma encodedHref_injective : Function.Injective encodedHref := by
  intro path path' h
  have hpath := decodeURIComponent_encodedHref path
  rw [h, decodeURIComponent_encodedHref] at hpath
  exact (Option.some.inj hpath).symm

/-- What is published of a link that a document has. -/
lemma publishLink_some (docPath href : String) :
    publishLink ⟨docPath, some href⟩ =
      publishHref (attachFragment (resolveZipPath docPath (splitFragment href).1)
        (splitFragment href).2) :=
  congrArg publishHref (resolveNavHref_eq docPath href)

lemma publishHref_href (path : String) (fragment : Option String) :
    (publishHref (attachFragment path fragment)).href =
      encodedHref (String.ofList (path.toList.takeWhile (· ≠ '#'))) := by
  rw [← takeWhile_attachFragment path fragment, ← splitFragment_path]
  rfl

lemma publishHref_of_free {path : String} (hfree : '#' ∉ path.toList) (fragment : Option String) :
    publishHref (attachFragment path fragment) = ⟨encodedHref path, fragment⟩ := by
  rw [publishHref, splitFragment_attachFragment hfree]

/-! ## A link without a path -/

lemma length_render_normalizeSegment (dir : List (List Char)) (seg : List Char) :
    (Segments.render '/' (normalizeSegment dir seg)).length ≤
      (Segments.render '/' dir).length + (seg.length + 1) := by
  rw [normalizeSegment]
  split_ifs with hskip hparent
  · omega
  · obtain rfl | ⟨init, last, rfl⟩ := List.eq_nil_or_concat' dir
    · simp
    · rw [List.dropLast_concat, Segments.render_append, List.length_append]
      omega
  · rw [Segments.render_append, List.length_append, Segments.render_cons, Segments.render_nil]
    simp

/-- Normalizing makes a path no longer, and one with an empty segment shorter. -/
lemma length_render_foldl (segs dir : List (List Char)) :
    (Segments.render '/' (segs.foldl normalizeSegment dir)).length +
        (if [] ∈ segs then 1 else 0) ≤
      (Segments.render '/' dir).length + (Segments.render '/' segs).length := by
  induction segs generalizing dir with
  | nil => simp
  | cons seg segs ih =>
    have hrest := ih (normalizeSegment dir seg)
    have hstep := length_render_normalizeSegment dir seg
    rw [List.foldl_cons, Segments.render_cons, List.length_cons, List.length_append]
    by_cases hempty : seg = []
    · have hkeep : normalizeSegment dir [] = dir := if_pos (.inl rfl)
      rw [hempty, hkeep] at hrest ⊢
      rw [if_pos List.mem_cons_self]
      split_ifs at hrest <;> simp <;> omega
    · have hmem : [] ∈ seg :: segs ↔ [] ∈ segs := by simp [Ne.symm hempty]
      simp only [hmem]
      omega

/-- The directory of a document is named by less than the document is. -/
lemma length_normalizePath_directoryOf {path : String} (hne : path ≠ "") :
    (normalizePath (String.ofList (directoryOf path))).toList.length < path.toList.length := by
  have hpath : 0 < path.toList.length :=
    List.length_pos_iff.2 fun h => hne (String.toList_injective h)
  have hdir : (directoryOf path).length ≤ path.toList.length :=
    (List.rdropWhile_prefix _ _).length_le
  rw [normalizePath, String.toList_ofList]
  by_cases hkept : keptSegments (String.ofList (directoryOf path)) = []
  · rw [hkept]
    exact hpath
  -- the directory ends with a separator
  have hempty : [] ∈ (directoryOf path).splitOn '/' := by
    by_cases hnil : directoryOf path = []
    · simp [hnil]
    · have hlast : ¬decide ((directoryOf path).getLast hnil ≠ '/') = true :=
        List.rdropWhile_last_not _ path.toList hnil
      have hslash : (directoryOf path).getLast hnil = '/' := by
        simpa only [decide_eq_true_eq, not_not] using hlast
      rw [← List.dropLast_append_getLast hnil, hslash, List.splitOn_append_cons_self]
      simp
  have hlen := length_render_foldl ((directoryOf path).splitOn '/') []
  rw [if_pos hempty, ← Segments.cons_intercalate (List.splitOn_ne_nil _ _),
    List.intercalate_splitOn] at hlen
  rw [keptSegments, String.toList_ofList] at hkept ⊢
  rw [← Segments.cons_intercalate hkept] at hlen
  simp only [List.length_cons, Segments.render_nil, List.length_nil] at hlen
  omega

/-! ## A remote web link -/

lemma colon_not_mem_hrefChars (cs : List Char) : ':' ∉ hrefChars cs := by
  intro hmem
  obtain ⟨byte, hkept, hchar⟩ | hchar | ⟨n, hn, hchar⟩ := Percent.mem_encode hmem
  · have hall : ∀ n < 256, isHrefByte (UInt8.ofNat n) = true → ':' ≠ Char.ofNat n := by
      decide +kernel
    exact hall byte.toNat (UInt8.toNat_lt byte) (by rwa [UInt8.ofNat_toNat]) hchar
  · exact absurd hchar (by decide)
  · revert hchar
    have hall : ∀ n < 16, ':' ≠ Percent.digit n := by decide
    exact hall n hn

/-- Some characters that begin with those of another text, none of them the separator. -/
lemma mem_takeWhile_of_append {before after : List Char} {c : Char}
    (hfree : ∀ d ∈ before, d ≠ '#') (hc : c ∈ before) :
    c ∈ (before ++ after).takeWhile (· ≠ '#') := by
  rw [List.takeWhile_append_of_pos fun d hd => decide_eq_true (hfree d hd)]
  exact List.mem_append_left _ hc

/-- The scheme of a remote web link stands before any fragment. -/
lemma colon_mem_of_remote {href : String} (h : isRemoteWebLink href = true) :
    ':' ∈ href.toList.takeWhile (· ≠ '#') := by
  obtain ⟨scheme, hscheme, hpre⟩ := List.any_eq_true.1 h
  obtain ⟨start, ⟨rest, hstart⟩, hmap⟩ :=
    List.prefix_map_iff.1 (List.isPrefixOf_iff_prefix.1 hpre)
  -- what is trimmed away stands around it
  have hfront := List.takeWhile_append_dropWhile (p := isWhite) (l := href.toList)
  have hback := List.takeWhile_append_dropWhile (p := isWhite)
    (l := (href.toList.dropWhile isWhite).reverse)
  rw [trim, String.toList_ofList] at hstart
  have hwhole : href.toList = (href.toList.takeWhile isWhite ++ start) ++
      (rest ++ ((href.toList.dropWhile isWhite).reverse.takeWhile isWhite).reverse) := by
    rw [List.append_assoc, ← List.append_assoc start, hstart, ← List.reverse_append, hback,
      List.reverse_reverse, hfront]
  have hchars : '#' ∉ scheme.toList ∧ ':' ∈ scheme.toList := by
    simp only [List.mem_cons, List.not_mem_nil, or_false] at hscheme
    obtain rfl | rfl := hscheme
    · decide
    · decide
  rw [hwhole]
  refine mem_takeWhile_of_append (fun c hc heq => ?_) ?_
  · subst heq
    obtain hc | hc := List.mem_append.1 hc
    · exact absurd (List.mem_takeWhile_imp hc) (by decide)
    · exact hchars.1 (hmap ▸ List.mem_map_of_mem (f := Char.toLower) hc)
  · obtain ⟨c, hc, hlower⟩ := List.mem_map.1 (hmap ▸ hchars.2)
    exact List.mem_append_right _ (Url.eq_colon_of_toLower hlower ▸ hc)

/-- No remote web link is kept. -/
lemma attachFragment_ne_remote {docPath href : String} (h : isRemoteWebLink href = true) :
    attachFragment (publishLink ⟨docPath, some href⟩).href
      (publishLink ⟨docPath, some href⟩).fragment ≠ href := by
  intro heq
  have hcolon := colon_mem_of_remote h
  rw [← heq, takeWhile_attachFragment, publishLink_some, publishHref_href,
    toList_encodedHref] at hcolon
  exact colon_not_mem_hrefChars _ (List.takeWhile_prefix _ |>.subset hcolon)

/-! ## Which links are published as they lead -/

/-- A link is published under its target when nothing in the target is cut. -/
lemma publishLink_of_local {docPath href : String}
    (hfree : '#' ∉ (targetPath docPath href).toList)
    (hself : (splitFragment href).1 = "" → docPath = "") :
    publishLink ⟨docPath, some href⟩ =
      ⟨encodedHref (targetPath docPath href), (splitFragment href).2⟩ := by
  have htarget : resolveZipPath docPath (splitFragment href).1 = targetPath docPath href := by
    rw [targetPath]
    split_ifs with hpath
    · rw [hpath, hself hpath]
      decide +kernel
    · rfl
  rw [publishLink_some, htarget, publishHref_of_free hfree]

/-- A link that is published under its target has nothing in it that is cut. -/
lemma local_of_publishLink {docPath href : String}
    (h : (publishLink ⟨docPath, some href⟩).href = encodedHref (targetPath docPath href)) :
    '#' ∉ (targetPath docPath href).toList ∧ ((splitFragment href).1 = "" → docPath = "") := by
  rw [publishLink_some, publishHref_href] at h
  have htarget := encodedHref_injective h
  have hfree : '#' ∉ (targetPath docPath href).toList := by
    intro hmem
    rw [← htarget, String.toList_ofList] at hmem
    exact absurd (List.mem_takeWhile_imp hmem) (by decide)
  refine ⟨hfree, fun hpath => ?_⟩
  -- an empty path is resolved to the directory of its document
  by_contra hne
  have hdecoded : percentDecode "" = "" := by decide +kernel
  have hdir : resolveZipPath docPath "" = normalizePath (String.ofList (directoryOf docPath)) := by
    simp [resolveZipPath, hdecoded]
  have hlen := length_normalizePath_directoryOf hne
  rw [hpath, hdir, targetPath, if_pos hpath] at htarget
  have hshort := (List.takeWhile_prefix (· ≠ '#')
    (l := (normalizePath (String.ofList (directoryOf docPath))).toList)).length_le
  rw [← String.toList_ofList (l := List.takeWhile _ _), htarget] at hshort
  omega

/-- **One link** names its target exactly when it is local. -/
theorem namesTarget_iff {spine : List SpineEntry}
    (hspine : ∀ entry ∈ spine, entry.encoded = encodedHref entry.zipPath) (link : SourceLink) :
    NamesTarget spine link (publishLink link) ↔ IsLocalLink spine link := by
  obtain ⟨docPath, _ | href⟩ := link
  · exact ⟨fun _ => nofun, fun _ => ⟨nofun, nofun⟩⟩
  constructor
  · intro h other hother
    obtain rfl := Option.some.inj hother
    have hremote : isRemoteWebLink href = false := by
      by_contra hremote
      rw [Bool.not_eq_false] at hremote
      exact attachFragment_ne_remote hremote (h.remote href rfl hremote)
    refine ⟨hremote, fun ⟨entry, hentry, htarget⟩ => local_of_publishLink ?_⟩
    rw [h.spine href rfl hremote entry hentry htarget, ← htarget]
    exact hspine entry hentry
  · intro h
    obtain ⟨hremote, hlocal⟩ := h href rfl
    constructor
    · intro other hother hweb
      obtain rfl := Option.some.inj hother
      exact absurd hweb (by simp [hremote])
    · intro other hother _ entry hentry htarget
      obtain rfl := Option.some.inj hother
      obtain ⟨hfree, hself⟩ := hlocal ⟨entry, hentry, htarget⟩
      rw [publishLink_of_local hfree hself, hspine entry hentry, htarget]

/-- What the spine of a package is resolved to. -/
lemma encoded_of_mem_spine {package : OpfPackage} {opfPath : String} {spine : List SpineEntry}
    (h : resolveSpineEntries package opfPath = .ok spine) :
    ∀ entry ∈ spine, entry.encoded = encodedHref entry.zipPath := by
  intro entry hentry
  obtain ⟨idref, -, hitem⟩ := exists_of_mem_mapM h hentry
  rw [resolveSpineEntry] at hitem
  split at hitem
  · cases hitem
  · split_ifs at hitem
    obtain rfl := Except.ok.inj hitem
    rfl

/-- **The links of a book are published as its spine is, and as they stand where they are remote,
exactly when each of them is local**: for every package and every navigation document or NCX. -/
theorem toc_names_iff {readXml : String → List XmlEvent} {zip : ZipArchive}
    {limits : ResourceLimits} {xmlLimits : XmlLimits} {opfPath : String}
    {package : Opf.OpfPackage} {spine : List SpineEntry} {source : List (TocItem SourceLink)}
    (hspine : resolveSpineEntries (readingOrder package) opfPath = .ok spine)
    (hsource : sourceToc readXml zip limits xmlLimits opfPath package = .ok source) :
    ∃ published, publishedToc readXml zip limits xmlLimits opfPath package = .ok published ∧
      (List.Forall₂ (NamesTarget spine) (hrefsOf source) (hrefsOf published) ↔
        ∀ link ∈ hrefsOf source, IsLocalLink spine link) := by
  refine ⟨mapItems publishLink source, ?_, ?_⟩
  · rw [publishedToc_eq, hsource]
    rfl
  · rw [hrefsOf_mapItems, List.forall₂_map_right_iff, List.forall₂_same]
    simp only [namesTarget_iff (encoded_of_mem_spine hspine)]

/-! ## Books with one chapter -/

/-- An archive with a navigation document. -/
def navArchive : ZipArchive :=
  [{ name := some "OEBPS/nav.xhtml", isDir := false, compressedSize := 1, size := 1
     data := some [0x20] }]

/-- A package with that document and one chapter. -/
def navPackage (chapter : String) : Opf.OpfPackage where
  metadata := {}
  manifest := ((∅ : Table String Opf.ManifestItem).insert "c1"
    ⟨chapter, "application/xhtml+xml", []⟩).insert "nav"
      ⟨"nav.xhtml", "application/xhtml+xml", ["nav"]⟩
  spine := ["c1"]
  spineToc := none
  legacyCoverId := none

/-- A navigation document with one entry. -/
def navEvents (href : String) : List XmlEvent :=
  [.start "nav" [("epub:type", some "toc")], .start "ol" [], .start "li" [],
    .start "a" [("href", some href)], .text (some "One"), .close "a", .close "li", .close "ol",
    .close "nav"]

/-- The tree of that document. -/
def navTree (href : String) : List (TocItem SourceLink) :=
  [⟨"One", ⟨"OEBPS/nav.xhtml", some href⟩, []⟩]

/-- The chapter of that package. -/
def navSpine (zipPath encoded : String) : List SpineEntry :=
  [{ zipPath, encoded, mediaType := "application/xhtml+xml" }]

/-- A link by another spelling of the chapter's path. -/
theorem toc_names_spelling :
    ∃ published, publishedToc (fun _ => navEvents "../OEBPS/%63h%201%C3%A9.xhtml#s")
        navArchive ResourceLimits.defaults XmlLimits.defaults "OEBPS/content.opf"
        (navPackage "ch%201é.xhtml") = .ok published ∧
      (List.Forall₂ (NamesTarget (navSpine "OEBPS/ch 1é.xhtml" "OEBPS/ch%201%C3%A9.xhtml"))
          (hrefsOf (navTree "../OEBPS/%63h%201%C3%A9.xhtml#s")) (hrefsOf published) ↔
        ∀ link ∈ hrefsOf (navTree "../OEBPS/%63h%201%C3%A9.xhtml#s"),
          IsLocalLink (navSpine "OEBPS/ch 1é.xhtml" "OEBPS/ch%201%C3%A9.xhtml") link) :=
  toc_names_iff (by decide +kernel) (by rfl)

/-- A chapter named with the separator of fragments is published without the rest of its name, and
a remote web link is resolved in the archive. -/
theorem toc_cuts_separator :
    resolveSpineEntries (readingOrder (navPackage "ch%231.xhtml")) "OEBPS/content.opf" =
        .ok (navSpine "OEBPS/ch#1.xhtml" "OEBPS/ch%231.xhtml") ∧
      (publishedToc (fun _ => navEvents "ch%231.xhtml") navArchive ResourceLimits.defaults
        XmlLimits.defaults "OEBPS/content.opf" (navPackage "ch%231.xhtml")).map hrefsOf =
          .ok [⟨"OEBPS/ch", some "1.xhtml"⟩] ∧
      ¬NamesTarget (navSpine "OEBPS/ch#1.xhtml" "OEBPS/ch%231.xhtml")
        ⟨"OEBPS/nav.xhtml", some "ch%231.xhtml"⟩ ⟨"OEBPS/ch", some "1.xhtml"⟩ ∧
      (publishedToc (fun _ => navEvents "http://a/b") navArchive ResourceLimits.defaults
        XmlLimits.defaults "OEBPS/content.opf" (navPackage "ch%231.xhtml")).map hrefsOf =
          .ok [⟨"OEBPS/http%3A/a/b", none⟩] ∧
      ¬NamesTarget (navSpine "OEBPS/ch#1.xhtml" "OEBPS/ch%231.xhtml")
        ⟨"OEBPS/nav.xhtml", some "http://a/b"⟩ ⟨"OEBPS/http%3A/a/b", none⟩ := by
  refine ⟨by decide +kernel, by decide +kernel, fun h => ?_, by decide +kernel, fun h => ?_⟩
  · have hcut := h.spine "ch%231.xhtml" rfl (by decide +kernel) _ List.mem_cons_self
      (by decide +kernel)
    exact absurd hcut (by decide +kernel)
  · exact absurd (h.remote "http://a/b" rfl (by decide +kernel)) (by decide +kernel)

end Epub

end TuxBooks
