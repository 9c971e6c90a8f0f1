import TuxBooks.Epub.Metadata

set_option relaxedAutoImplicit false
set_option autoImplicit false

/-!
# Writing the package document

The metadata section is written anew in `sidecar/src/epub/writer.rs`: the elements of the managed
fields come first, then what the section held before, without the elements that are managed. The
writer works on what the reader reports, each with the text that it stands for, and decides about
one element at a time. Escaping a text and printing a number are the library's.

## Main definitions

* `TuxBooks.Epub.XmlToken`, `TuxBooks.Epub.SourceNodes` — a document, as the reader reports it and
  as a tree.
* `TuxBooks.Epub.rewriteOpf` — the writer.
* `TuxBooks.Epub.OpfDocument` — a package document around its metadata section.
* `TuxBooks.Epub.SourceNodes.strip`, `TuxBooks.Epub.SourceNodes.unmanaged` — what the writer keeps
  of the section, and the children that are not managed.

## Main results

* `TuxBooks.Epub.keepChildren_tokens` — the filter over the events is a function of the tree.
* `TuxBooks.Epub.framed_iff_flat`, `TuxBooks.Epub.idempotent_iff` — when nothing else is touched,
  and when a second writing changes nothing.
-/

namespace TuxBooks

namespace Epub

/-! ## Documents -/

/-- What the reader reports, with the text of the document that it stands for. -/
structure XmlToken where
  event : XmlEvent
  raw : String
  deriving DecidableEq

/-- Nodes beside each other, with their text: the first one, and the rest. -/
inductive SourceNodes where
  | nil
  | element (name : String) (attrs : Attributes) (openRaw closeRaw : String)
      (children rest : SourceNodes)
  | selfClosing (name : String) (attrs : Attributes) (raw : String) (rest : SourceNodes)
  | text (content : Option String) (raw : String) (rest : SourceNodes)
  /-- Comments, sections of character data, instructions. -/
  | other (raw : String) (rest : SourceNodes)

namespace SourceNodes

def tokens : SourceNodes → List XmlToken
  | nil => []
  | element name attrs openRaw closeRaw children rest =>
    ⟨.start name attrs, openRaw⟩ :: (children.tokens ++ ⟨.close name, closeRaw⟩ :: rest.tokens)
  | selfClosing name attrs raw rest => ⟨.empty name attrs, raw⟩ :: rest.tokens
  | text content raw rest => ⟨.text content, raw⟩ :: rest.tokens
  | other raw rest => ⟨.other, raw⟩ :: rest.tokens

end SourceNodes

/-! ## The writer -/

/-- The metadata section and what is around it. -/
structure MetadataSpan where
  /-- Up to the end of the opening tag. -/
  front : List XmlToken
  inner : List XmlToken
  /-- From the closing tag on. -/
  rest : List XmlToken

/-- The first metadata section, and the unique identifier that the package names. -/
def findMetadata (uniqueId : Option String) (front : List XmlToken)
    (inner : Option (List XmlToken)) :
    List XmlToken → Except OpfError (Option (MetadataSpan × Option String))
  | [] => .ok none
  | token :: rest =>
    let next (uniqueId : Option String) :=
      match inner with
      | none => findMetadata uniqueId (front ++ [token]) none rest
      | some inner => findMetadata uniqueId front (some (inner ++ [token])) rest
    match token.event with
    | .start name attrs =>
      if localName name = "package" then next (attributeValue attrs "unique-identifier")
      else if localName name = "metadata" ∧ inner.isNone = true then
        findMetadata uniqueId (front ++ [token]) (some []) rest
      else next uniqueId
    | .close name =>
      match inner with
      | some inner =>
        if localName name = "metadata" then
          .ok (some (⟨front, inner, token :: rest⟩, uniqueId))
        else next uniqueId
      | none => next uniqueId
    | .error message => .error (.opfXml message)
    | _ => next uniqueId

/-- The elements that are written anew. An ISBN that is the unique identifier of the package is
not. -/
def isManaged (uniqueId : Option String) (name : String) (attrs : Attributes) : Bool :=
  if localName name ∈
      ["title", "creator", "subject", "publisher", "language", "date", "description"] then true
  else if localName name = "identifier" then
    (attributeValue attrs "scheme").any (eqIgnoreAsciiCase · "isbn") &&
      attributeValue attrs "id" ≠ uniqueId
  else if localName name = "meta" then
    (attributeValue attrs "name").any fun name =>
      name = "calibre:series" || name = "calibre:series_index"
  else false

/-- What is kept of the section; inside an element that is managed, nothing is. -/
def keepChildren (uniqueId : Option String) :
    ℕ → List XmlToken → Except OpfError (List XmlToken)
  | _, [] => .ok []
  | skipDepth, token :: rest =>
    match token.event with
    | .start name attrs =>
      if 0 < skipDepth then keepChildren uniqueId (skipDepth + 1) rest
      else if isManaged uniqueId name attrs = true then keepChildren uniqueId 1 rest
      else (token :: ·) <$> keepChildren uniqueId skipDepth rest
    | .empty name attrs =>
      if skipDepth = 0 ∧ isManaged uniqueId name attrs = false then
        (token :: ·) <$> keepChildren uniqueId skipDepth rest
      else keepChildren uniqueId skipDepth rest
    | .close _ =>
      if 0 < skipDepth then keepChildren uniqueId (skipDepth - 1) rest
      else (token :: ·) <$> keepChildren uniqueId skipDepth rest
    | .error message => .error (.opfXml message)
    | _ =>
      if skipDepth = 0 then (token :: ·) <$> keepChildren uniqueId skipDepth rest
      else keepChildren uniqueId skipDepth rest

/-- Inside a managed element nothing is kept. -/
lemma keepChildren_inside {uniqueId : Option String} (nodes : SourceNodes) (skipDepth : ℕ)
    (more : List XmlToken) :
    keepChildren uniqueId (skipDepth + 1) (nodes.tokens ++ more) =
      keepChildren uniqueId (skipDepth + 1) more := by
  induction nodes generalizing skipDepth more with
  | nil => rfl
  | element name attrs openRaw closeRaw children rest ihChildren ihRest =>
    rw [SourceNodes.tokens, List.cons_append, List.append_assoc, List.cons_append, keepChildren]
    simp only [Nat.zero_lt_succ, if_true]
    rw [ihChildren, keepChildren]
    simp only [Nat.zero_lt_succ, if_true, Nat.add_sub_cancel]
    exact ihRest skipDepth more
  | selfClosing name attrs raw rest ih =>
    rw [SourceNodes.tokens, List.cons_append, keepChildren]
    simp only [Nat.succ_ne_zero, false_and, if_false]
    exact ih skipDepth more
  | text content raw rest ih =>
    rw [SourceNodes.tokens, List.cons_append, keepChildren]
    simp only [Nat.succ_ne_zero, if_false]
    exact ih skipDepth more
  | other raw rest ih =>
    rw [SourceNodes.tokens, List.cons_append, keepChildren]
    simp only [Nat.succ_ne_zero, if_false]
    exact ih skipDepth more

/-! ## Nodes without the managed elements -/

namespace SourceNodes

variable (uniqueId : Option String)

/-- The nodes without the elements that are managed, wherever they are. -/
def strip : SourceNodes → SourceNodes
  | nil => nil
  | element name attrs openRaw closeRaw children rest =>
    if isManaged uniqueId name attrs = true then rest.strip
    else element name attrs openRaw closeRaw children.strip rest.strip
  | selfClosing name attrs raw rest =>
    if isManaged uniqueId name attrs = true then rest.strip
    else selfClosing name attrs raw rest.strip
  | text content raw rest => text content raw rest.strip
  | other raw rest => other raw rest.strip

variable {uniqueId} in
lemma length_strip_le (nodes : SourceNodes) :
    (nodes.strip uniqueId).tokens.length ≤ nodes.tokens.length := by
  induction nodes with
  | nil => exact Nat.le_refl _
  | element name attrs openRaw closeRaw children rest ihChildren ihRest =>
    rw [strip]
    split_ifs
    · simp only [tokens, List.length_cons, List.length_append]
      omega
    · simp only [tokens, List.length_cons, List.length_append]
      omega
  | selfClosing name attrs raw rest ih =>
    rw [strip]
    split_ifs
    · simp only [tokens, List.length_cons]
      omega
    · simpa [tokens] using ih
  | text content raw rest ih => simpa [strip, tokens] using ih
  | other raw rest ih => simpa [strip, tokens] using ih

/-- The nodes that are not managed elements, as they are. -/
def unmanaged : SourceNodes → SourceNodes
  | nil => nil
  | element name attrs openRaw closeRaw children rest =>
    if isManaged uniqueId name attrs = true then rest.unmanaged
    else element name attrs openRaw closeRaw children rest.unmanaged
  | selfClosing name attrs raw rest =>
    if isManaged uniqueId name attrs = true then rest.unmanaged
    else selfClosing name attrs raw rest.unmanaged
  | text content raw rest => text content raw rest.unmanaged
  | other raw rest => other raw rest.unmanaged

variable {uniqueId} in
lemma length_strip_le_unmanaged (nodes : SourceNodes) :
    (nodes.strip uniqueId).tokens.length ≤ (nodes.unmanaged uniqueId).tokens.length := by
  induction nodes with
  | nil => exact Nat.le_refl _
  | element name attrs openRaw closeRaw children rest ihChildren ihRest =>
    have hchildren := @length_strip_le uniqueId children
    rw [strip, unmanaged]
    split_ifs
    · exact ihRest
    · simp only [tokens, List.length_cons, List.length_append]
      omega
  | selfClosing name attrs raw rest ih =>
    rw [strip, unmanaged]
    split_ifs
    · exact ih
    · simpa [tokens] using ih
  | text content raw rest ih => simpa [strip, unmanaged, tokens] using ih
  | other raw rest ih => simpa [strip, unmanaged, tokens] using ih

/-- No element is managed. -/
def Clean : SourceNodes → Prop
  | nil => True
  | element name attrs _ _ children rest =>
    isManaged uniqueId name attrs = false ∧ children.Clean ∧ rest.Clean
  | selfClosing name attrs _ rest => isManaged uniqueId name attrs = false ∧ rest.Clean
  | text _ _ rest | other _ rest => rest.Clean

variable {uniqueId} in
lemma strip_of_clean {nodes : SourceNodes} (h : nodes.Clean uniqueId) :
    nodes.strip uniqueId = nodes := by
  induction nodes with
  | nil => rfl
  | element name attrs openRaw closeRaw children rest ihChildren ihRest =>
    rw [strip, if_neg (by simp [h.1]), ihChildren h.2.1, ihRest h.2.2]
  | selfClosing name attrs raw rest ih => rw [strip, if_neg (by simp [h.1]), ih h.2]
  | text content raw rest ih => rw [strip, ih h]
  | other raw rest ih => rw [strip, ih h]

/-- No managed element is inside one that is not. -/
def Flat : SourceNodes → Prop
  | nil => True
  | element name attrs _ _ children rest =>
    (isManaged uniqueId name attrs = true ∨ children.Clean uniqueId) ∧ rest.Flat
  | selfClosing _ _ _ rest | text _ _ rest | other _ rest => rest.Flat

variable {uniqueId} in
/-- Where no managed element is inside one that is not, the rest is as it is. -/
lemma strip_of_flat {nodes : SourceNodes} (h : nodes.Flat uniqueId) :
    nodes.strip uniqueId = nodes.unmanaged uniqueId := by
  induction nodes with
  | nil => rfl
  | element name attrs openRaw closeRaw children rest ihChildren ihRest =>
    rw [strip, unmanaged, ihRest h.2]
    split_ifs with hmanaged
    · rfl
    · rw [strip_of_clean (h.1.resolve_left hmanaged)]
  | selfClosing name attrs raw rest ih => rw [strip, unmanaged, ih h]
  | text content raw rest ih => rw [strip, unmanaged, ih h]
  | other raw rest ih => rw [strip, unmanaged, ih h]

end SourceNodes

/-! ## The elements that are written -/

def nonEmpty (value : Option String) : Option String := (value.map trim).filter (· ≠ "")

section Generate

variable (escape : String → String) (showFloat : ℚ → String)

/-- An element with a text. -/
def leaf (name : String) (attrs : Attributes) (openRaw value : String) : List XmlToken :=
  [⟨.start name attrs, openRaw⟩] ++
    (if value = "" then [] else [⟨.text (some value), escape value⟩]) ++
    [⟨.close name, "</" ++ name ++ ">"⟩]

/-- An element without attributes, unless there is nothing to write. -/
def optionalLeaf (name : String) (value : Option String) : List XmlToken :=
  match nonEmpty value with
  | some value => leaf escape name [] ("<" ++ name ++ ">") value
  | none => []

/-- The elements of the names that are not blank. -/
def leaves (name : String) (values : List String) : List XmlToken :=
  (values.filter fun value => trim value ≠ "").flatMap fun value =>
    leaf escape name [] ("<" ++ name ++ ">") value

def titleChildren (metadata : EpubMetadata) : List XmlToken :=
  leaf escape "dc:title" [("id", some "tuxbooks-title")] "<dc:title id=\"tuxbooks-title\">"
    metadata.title

/-- The refinements that tell a title from a subtitle. -/
def titleTypes : List XmlToken :=
  leaf escape "meta" [("refines", some "#tuxbooks-title"), ("property", some "title-type")]
      "<meta refines=\"#tuxbooks-title\" property=\"title-type\">" "main" ++
    leaf escape "meta" [("refines", some "#tuxbooks-subtitle"), ("property", some "title-type")]
      "<meta refines=\"#tuxbooks-subtitle\" property=\"title-type\">" "subtitle"

def subtitleChildren (metadata : EpubMetadata) : List XmlToken :=
  match nonEmpty metadata.subtitle with
  | some subtitle =>
    leaf escape "dc:title" [("id", some "tuxbooks-subtitle")]
      "<dc:title id=\"tuxbooks-subtitle\">" subtitle ++ titleTypes escape
  | none => []

def isbnChildren (metadata : EpubMetadata) : List XmlToken :=
  match nonEmpty metadata.isbn with
  | some value =>
    leaf escape "dc:identifier"
      [("opf:scheme", some "ISBN"), ("xmlns:opf", some "http://www.idpf.org/2007/opf")]
      "<dc:identifier opf:scheme=\"ISBN\" xmlns:opf=\"http://www.idpf.org/2007/opf\">" value
  | none => []

/-- A `<meta>` of Calibre. -/
def calibreMetaToken (name content written : String) : XmlToken :=
  ⟨.empty "meta" [("name", some name), ("content", some content)],
    "<meta name=\"" ++ name ++ "\" content=\"" ++ written ++ "\"/>"⟩

def seriesChildren (metadata : EpubMetadata) : List XmlToken :=
  match nonEmpty metadata.series with
  | some series =>
    calibreMetaToken "calibre:series" series (escape series) ::
      match metadata.seriesIndex with
      | some index =>
        [calibreMetaToken "calibre:series_index" (showFloat index) (showFloat index)]
      | none => []
  | none => []

def writtenAuthors (metadata : EpubMetadata) : List String :=
  if metadata.authors = [] then metadata.author.toList else metadata.authors

/-- The elements of the managed fields. -/
def generateChildren (metadata : EpubMetadata) : List XmlToken :=
  titleChildren escape metadata ++ subtitleChildren escape metadata ++
    leaves escape "dc:creator" (writtenAuthors metadata) ++
    leaves escape "dc:subject" metadata.subjects ++
    optionalLeaf escape "dc:description" metadata.description ++
    optionalLeaf escape "dc:publisher" metadata.publisher ++
    optionalLeaf escape "dc:language" metadata.language ++
    optionalLeaf escape "dc:date" metadata.publicationDate ++
    isbnChildren escape metadata ++ seriesChildren escape showFloat metadata

def rewriteOpf (opf : List XmlToken) (metadata : EpubMetadata) :
    Except OpfError (List XmlToken) := do
  match ← findMetadata none [] none opf with
  | none => .error (.opfXml "package document has no <metadata> section")
  | some (span, uniqueId) =>
    let kept ← keepChildren uniqueId 0 span.inner
    return span.front ++ (generateChildren escape showFloat metadata ++ kept) ++ span.rest

end Generate

/-! ## The filter over the events -/

section Filter

variable {uniqueId : Option String}

/-- The filter keeps one part of some tokens, whatever follows. -/
def Passes (uniqueId : Option String) (tokens kept : List XmlToken) : Prop :=
  ∀ more, keepChildren uniqueId 0 (tokens ++ more) =
    (kept ++ ·) <$> keepChildren uniqueId 0 more

lemma Passes.nil : Passes uniqueId [] [] := by
  intro more
  rw [List.nil_append]
  cases keepChildren uniqueId 0 more <;> rfl

lemma Passes.append {tokens kept tokens' kept' : List XmlToken}
    (h : Passes uniqueId tokens kept) (h' : Passes uniqueId tokens' kept') :
    Passes uniqueId (tokens ++ tokens') (kept ++ kept') := by
  intro more
  rw [List.append_assoc, h, h']
  cases keepChildren uniqueId 0 more <;> simp [Functor.map, Except.map]

/-- The filter over all of the tokens. -/
lemma Passes.all {tokens kept : List XmlToken} (h : Passes uniqueId tokens kept) :
    keepChildren uniqueId 0 tokens = .ok kept := by
  have hall := h []
  rw [List.append_nil] at hall
  rw [hall]
  simp [keepChildren, Functor.map, Except.map]

/-- A managed element goes with what is in it. -/
lemma passes_managed {name : String} {attrs : Attributes}
    (h : isManaged uniqueId name attrs = true) (openRaw closeRaw : String)
    (children : SourceNodes) :
    Passes uniqueId (⟨.start name attrs, openRaw⟩ ::
      (children.tokens ++ [⟨.close name, closeRaw⟩])) [] := by
  intro more
  rw [List.cons_append, List.append_assoc, keepChildren]
  simp only [lt_irrefl, if_false, h, if_true]
  rw [keepChildren_inside, List.singleton_append, keepChildren]
  cases keepChildren uniqueId 0 more <;> rfl

/-- A token that is kept. -/
lemma passes_token {token : XmlToken} (h : ∀ more, keepChildren uniqueId 0 (token :: more) =
    (token :: ·) <$> keepChildren uniqueId 0 more) : Passes uniqueId [token] [token] :=
  fun more => h more

lemma passes_start {name : String} {attrs : Attributes} (raw : String)
    (h : isManaged uniqueId name attrs = false) :
    Passes uniqueId [⟨.start name attrs, raw⟩] [⟨.start name attrs, raw⟩] :=
  passes_token fun more => by simp [keepChildren, h]

lemma passes_close (name raw : String) :
    Passes uniqueId [⟨.close name, raw⟩] [⟨.close name, raw⟩] :=
  passes_token fun more => by simp [keepChildren]

/-- An element without content. -/
lemma passes_empty (name : String) (attrs : Attributes) (raw : String) :
    Passes uniqueId [⟨.empty name attrs, raw⟩]
      (if isManaged uniqueId name attrs = true then [] else [⟨.empty name attrs, raw⟩]) := by
  intro more
  rw [List.singleton_append, keepChildren]
  by_cases h : isManaged uniqueId name attrs = true
  · simp only [h, if_true, and_false, Bool.true_eq_false, if_false, List.nil_append]
    cases keepChildren uniqueId 0 more <;> rfl
  · simp [h]

lemma passes_text (content : Option String) (raw : String) :
    Passes uniqueId [⟨.text content, raw⟩] [⟨.text content, raw⟩] :=
  passes_token fun more => by simp [keepChildren]

lemma passes_other (raw : String) : Passes uniqueId [⟨.other, raw⟩] [⟨.other, raw⟩] :=
  passes_token fun more => by simp [keepChildren]

/-- **The filter over the events** of some nodes is a function of the nodes. -/
theorem keepChildren_tokens (nodes : SourceNodes) :
    Passes uniqueId nodes.tokens (nodes.strip uniqueId).tokens := by
  induction nodes with
  | nil => exact Passes.nil
  | element name attrs openRaw closeRaw children rest ihChildren ihRest =>
    rw [SourceNodes.strip]
    by_cases h : isManaged uniqueId name attrs = true
    · have hall := (passes_managed h openRaw closeRaw children).append ihRest
      rw [if_pos h]
      simpa [SourceNodes.tokens] using hall
    · have hfalse : isManaged uniqueId name attrs = false := by simpa using h
      have hall := (((passes_start openRaw hfalse).append ihChildren).append
        (passes_close name closeRaw)).append ihRest
      rw [if_neg h]
      simpa [SourceNodes.tokens] using hall
  | selfClosing name attrs raw rest ih =>
    have hall := (passes_empty name attrs raw).append ih
    rw [SourceNodes.strip]
    split_ifs at hall ⊢ with h
    · exact hall
    · exact hall
  | text content raw rest ih => exact (passes_text content raw).append ih
  | other raw rest ih => exact (passes_other raw).append ih

/-! ## What is kept -/

namespace SourceNodes

/-- Nodes that nothing is taken from hold no managed element. -/
lemma clean_of_length {nodes : SourceNodes}
    (h : nodes.tokens.length ≤ (nodes.strip uniqueId).tokens.length) : nodes.Clean uniqueId := by
  induction nodes with
  | nil => trivial
  | element name attrs openRaw closeRaw children rest ihChildren ihRest =>
    have hchildren := @length_strip_le uniqueId children
    have hrest := @length_strip_le uniqueId rest
    rw [strip] at h
    split_ifs at h with hmanaged
    · simp only [tokens, List.length_cons, List.length_append] at h
      omega
    · simp only [tokens, List.length_cons, List.length_append] at h
      exact ⟨by simpa using hmanaged, ihChildren (by omega), ihRest (by omega)⟩
  | selfClosing name attrs raw rest ih =>
    have hrest := @length_strip_le uniqueId rest
    rw [strip] at h
    split_ifs at h with hmanaged
    · simp only [tokens, List.length_cons] at h
      omega
    · exact ⟨by simpa using hmanaged, ih (by simpa [tokens] using h)⟩
  | text content raw rest ih => exact ih (by simpa [strip, tokens] using h)
  | other raw rest ih => exact ih (by simpa [strip, tokens] using h)

lemma clean_strip (nodes : SourceNodes) : (nodes.strip uniqueId).Clean uniqueId := by
  induction nodes with
  | nil => trivial
  | element name attrs openRaw closeRaw children rest ihChildren ihRest =>
    cases hmanaged : isManaged uniqueId name attrs with
    | true =>
      rw [strip, if_pos hmanaged]
      exact ihRest
    | false =>
      rw [strip, if_neg (ne_true_of_eq_false hmanaged), Clean]
      exact ⟨hmanaged, ihChildren, ihRest⟩
  | selfClosing name attrs raw rest ih =>
    cases hmanaged : isManaged uniqueId name attrs with
    | true =>
      rw [strip, if_pos hmanaged]
      exact ih
    | false =>
      rw [strip, if_neg (ne_true_of_eq_false hmanaged), Clean]
      exact ⟨hmanaged, ih⟩
  | text content raw rest ih => exact ih
  | other raw rest ih => exact ih

/-- Stripped nodes are stripped once. -/
lemma strip_strip (nodes : SourceNodes) :
    (nodes.strip uniqueId).strip uniqueId = nodes.strip uniqueId :=
  strip_of_clean (clean_strip nodes)

/-- Where something is taken from inside another element, something is missing. -/
lemma flat_of_length {nodes : SourceNodes}
    (h : (nodes.unmanaged uniqueId).tokens.length ≤ (nodes.strip uniqueId).tokens.length) :
    nodes.Flat uniqueId := by
  induction nodes with
  | nil => trivial
  | element name attrs openRaw closeRaw children rest ihChildren ihRest =>
    have hchildren := @length_strip_le uniqueId children
    have hrest := @length_strip_le_unmanaged uniqueId rest
    rw [strip, unmanaged] at h
    split_ifs at h with hmanaged
    · exact ⟨Or.inl hmanaged, ihRest h⟩
    · simp only [tokens, List.length_cons, List.length_append] at h
      exact ⟨Or.inr (clean_of_length (by omega)), ihRest (by omega)⟩
  | selfClosing name attrs raw rest ih =>
    rw [strip, unmanaged] at h
    split_ifs at h
    · exact ih h
    · exact ih (by simpa [tokens] using h)
  | text content raw rest ih => exact ih (by simpa [strip, unmanaged, tokens] using h)
  | other raw rest ih => exact ih (by simpa [strip, unmanaged, tokens] using h)

end SourceNodes

/-! ## What is kept of the generated elements -/

variable {escape : String → String} {showFloat : ℚ → String} {metadata : EpubMetadata}

/-- What is in an element with a text. -/
lemma leaf_eq (name : String) (attrs : Attributes) (openRaw value : String) :
    leaf escape name attrs openRaw value = ⟨.start name attrs, openRaw⟩ ::
      ((if value = "" then SourceNodes.nil
        else .text (some value) (escape value) .nil).tokens ++
          [⟨.close name, "</" ++ name ++ ">"⟩]) := by
  rw [leaf]
  split_ifs <;> rfl

/-- The elements that are managed whatever their attributes are. -/
lemma isManaged_of_mem {name : String} (attrs : Attributes)
    (h : localName name ∈ ["title", "creator", "subject", "publisher", "language", "date",
      "description"]) : isManaged uniqueId name attrs = true := by
  rw [isManaged, if_pos h]

/-- A `<meta>` is managed by its name. -/
lemma isManaged_meta {name : String} (attrs : Attributes) (h : localName name = "meta") :
    isManaged uniqueId name attrs = (attributeValue attrs "name").any fun name =>
      name = "calibre:series" || name = "calibre:series_index" := by
  rw [isManaged, h, if_neg (by decide), if_neg (by decide), if_pos rfl]

lemma passes_leaf_managed {name : String} {attrs : Attributes}
    (h : isManaged uniqueId name attrs = true) (openRaw value : String) :
    Passes uniqueId (leaf escape name attrs openRaw value) [] := by
  rw [leaf_eq]
  exact passes_managed h _ _ _

lemma passes_leaf_unmanaged {name : String} {attrs : Attributes}
    (h : isManaged uniqueId name attrs = false) (openRaw value : String) :
    Passes uniqueId (leaf escape name attrs openRaw value)
      (leaf escape name attrs openRaw value) := by
  apply ((passes_start openRaw h).append ?_).append (passes_close name _)
  split_ifs
  · exact Passes.nil
  · exact passes_text _ _

/-- The elements of one field go. -/
lemma passes_leaves {name : String} (h : isManaged uniqueId name [] = true)
    (values : List String) : Passes uniqueId (leaves escape name values) [] := by
  rw [leaves]
  induction values.filter fun value => trim value ≠ "" with
  | nil => exact Passes.nil
  | cons value values ih => exact (passes_leaf_managed h _ value).append ih

lemma passes_optionalLeaf {name : String} (h : isManaged uniqueId name [] = true)
    (value : Option String) : Passes uniqueId (optionalLeaf escape name value) [] := by
  rw [optionalLeaf]
  cases nonEmpty value with
  | none => exact Passes.nil
  | some text => exact passes_leaf_managed h _ text

/-- The refinements of the titles stay. -/
lemma passes_titleTypes : Passes uniqueId (titleTypes escape) (titleTypes escape) := by
  have hmeta : localName "meta" = "meta" := by decide
  apply Passes.append
  · apply passes_leaf_unmanaged
    rw [isManaged_meta _ hmeta]
    decide
  · apply passes_leaf_unmanaged
    rw [isManaged_meta _ hmeta]
    decide

variable (escape uniqueId metadata) in
/-- What is kept of the generated elements when they are read again. -/
def keptGenerated : List XmlToken :=
  (match nonEmpty metadata.subtitle with
    | some _ => titleTypes escape
    | none => []) ++
  if uniqueId.isSome = true then [] else isbnChildren escape metadata

lemma passes_subtitleChildren : Passes uniqueId (subtitleChildren escape metadata)
    (match nonEmpty metadata.subtitle with
      | some _ => titleTypes escape
      | none => []) := by
  rw [subtitleChildren]
  cases nonEmpty metadata.subtitle with
  | none => exact Passes.nil
  | some subtitle =>
    exact (passes_leaf_managed (isManaged_of_mem _ (by decide)) _ subtitle).append
      passes_titleTypes

/-- An ISBN without an `id` is managed where the package names a unique identifier. -/
lemma passes_isbnChildren : Passes uniqueId (isbnChildren escape metadata)
    (if uniqueId.isSome = true then [] else isbnChildren escape metadata) := by
  have hmanaged : isManaged uniqueId "dc:identifier"
      [("opf:scheme", some "ISBN"), ("xmlns:opf", some "http://www.idpf.org/2007/opf")] =
      uniqueId.isSome := by
    have hscheme : (attributeValue
        [("opf:scheme", some "ISBN"), ("xmlns:opf", some "http://www.idpf.org/2007/opf")]
        "scheme").any (eqIgnoreAsciiCase · "isbn") = true := by decide
    have hid : attributeValue
        [("opf:scheme", some "ISBN"), ("xmlns:opf", some "http://www.idpf.org/2007/opf")]
        "id" = none := by decide
    rw [isManaged, if_neg (by decide), if_pos (by decide), hscheme, hid]
    cases uniqueId <;> rfl
  rw [isbnChildren]
  cases nonEmpty metadata.isbn with
  | none =>
    simp only [ite_self]
    exact Passes.nil
  | some isbn =>
    cases uniqueId with
    | none => exact passes_leaf_unmanaged hmanaged _ isbn
    | some id => exact passes_leaf_managed hmanaged _ isbn

lemma attributeValue_calibre (name content : String) :
    attributeValue [("name", some name), ("content", some content)] "name" = some name ∧
      attributeValue [("name", some name), ("content", some content)] "content" =
        some content := by
  have hnames : eqIgnoreAsciiCase (localName "name") "name" = true ∧
      eqIgnoreAsciiCase (localName "name") "content" = false ∧
      eqIgnoreAsciiCase (localName "content") "content" = true := by decide
  constructor
  · simp [attributeValue, hnames.1]
  · simp [attributeValue, hnames.2.1, hnames.2.2]

lemma passes_calibreMeta {name : String} (content written : String)
    (h : name = "calibre:series" ∨ name = "calibre:series_index") :
    Passes uniqueId [calibreMetaToken name content written] [] := by
  have hmanaged : isManaged uniqueId "meta" [("name", some name), ("content", some content)] =
      true := by
    rw [isManaged_meta _ (by decide), (attributeValue_calibre name content).1]
    simpa using h
  have hempty := @passes_empty uniqueId "meta" [("name", some name), ("content", some content)]
    ("<meta name=\"" ++ name ++ "\" content=\"" ++ written ++ "\"/>")
  rwa [if_pos hmanaged] at hempty

lemma passes_seriesChildren :
    Passes uniqueId (seriesChildren escape showFloat metadata) [] := by
  rw [seriesChildren]
  cases nonEmpty metadata.series with
  | none => exact Passes.nil
  | some series =>
    have hseries := @passes_calibreMeta uniqueId _ series (escape series) (Or.inl rfl)
    cases metadata.seriesIndex with
    | none => exact hseries
    | some index =>
      exact hseries.append (passes_calibreMeta (showFloat index) (showFloat index) (Or.inr rfl))

lemma passes_generateChildren :
    Passes uniqueId (generateChildren escape showFloat metadata)
      (keptGenerated uniqueId escape metadata) := by
  have htitle : Passes uniqueId (titleChildren escape metadata) [] :=
    passes_leaf_managed (isManaged_of_mem _ (by decide)) _ _
  have hcreators : Passes uniqueId (leaves escape "dc:creator" (writtenAuthors metadata)) [] :=
    passes_leaves (isManaged_of_mem _ (by decide)) _
  have hsubjects : Passes uniqueId (leaves escape "dc:subject" metadata.subjects) [] :=
    passes_leaves (isManaged_of_mem _ (by decide)) _
  have hdescription :
      Passes uniqueId (optionalLeaf escape "dc:description" metadata.description) [] :=
    passes_optionalLeaf (isManaged_of_mem _ (by decide)) _
  have hpublisher :
      Passes uniqueId (optionalLeaf escape "dc:publisher" metadata.publisher) [] :=
    passes_optionalLeaf (isManaged_of_mem _ (by decide)) _
  have hlanguage : Passes uniqueId (optionalLeaf escape "dc:language" metadata.language) [] :=
    passes_optionalLeaf (isManaged_of_mem _ (by decide)) _
  have hdate : Passes uniqueId (optionalLeaf escape "dc:date" metadata.publicationDate) [] :=
    passes_optionalLeaf (isManaged_of_mem _ (by decide)) _
  have hseries : Passes uniqueId (seriesChildren escape showFloat metadata) [] :=
    passes_seriesChildren
  have htitles := htitle.append (@passes_subtitleChildren uniqueId escape metadata)
  have hnames := (htitles.append hcreators).append hsubjects
  have htexts := ((hnames.append hdescription).append hpublisher).append hlanguage
  have hdated := htexts.append hdate
  have hall := (hdated.append (@passes_isbnChildren uniqueId escape metadata)).append hseries
  rw [generateChildren, keptGenerated]
  simpa only [List.nil_append, List.append_nil] using hall

/-- Nothing is kept of them where there is no subtitle to write, and no ISBN that a package without
a unique identifier would keep. -/
lemma keptGenerated_eq_nil_iff : keptGenerated uniqueId escape metadata = [] ↔
    nonEmpty metadata.subtitle = none ∧
      (nonEmpty metadata.isbn = none ∨ uniqueId.isSome = true) := by
  have hsubtitle : (match nonEmpty metadata.subtitle with
      | some _ => titleTypes escape
      | none => []) = [] ↔ nonEmpty metadata.subtitle = none := by
    cases nonEmpty metadata.subtitle with
    | none => simp
    | some subtitle => simp [titleTypes, leaf]
  have hisbn : (if uniqueId.isSome = true then [] else isbnChildren escape metadata) = [] ↔
      nonEmpty metadata.isbn = none ∨ uniqueId.isSome = true := by
    rw [isbnChildren]
    cases nonEmpty metadata.isbn with
    | none => simp
    | some isbn => cases uniqueId <;> simp [leaf]
  rw [keptGenerated, List.append_eq_nil_iff, hsubtitle, hisbn]

end Filter

/-! ## The document around the section -/

namespace XmlEvent

/-- What may stand before the metadata section. -/
def Front : XmlEvent → Prop
  | start name _ => localName name ≠ "metadata"
  | error _ => False
  | _ => True

/-- What may stand inside the metadata section: it is the only one, and the package is around
it. -/
def Inside : XmlEvent → Prop
  | start name _ => localName name ≠ "package" ∧ localName name ≠ "metadata"
  | close name => localName name ≠ "metadata"
  | error _ => False
  | _ => True

instance : DecidablePred Front
  | start name _ => inferInstanceAs (Decidable (localName name ≠ "metadata"))
  | empty _ _ | text _ | close _ | other => .isTrue trivial
  | error _ => .isFalse id

instance : DecidablePred Inside
  | start name _ =>
    inferInstanceAs (Decidable (localName name ≠ "package" ∧ localName name ≠ "metadata"))
  | close name => inferInstanceAs (Decidable (localName name ≠ "metadata"))
  | empty _ _ | text _ | other => .isTrue trivial
  | error _ => .isFalse id

end XmlEvent

/-- A package document around its metadata section. -/
structure OpfDocument where
  before : List XmlToken
  name : String
  attrs : Attributes
  openRaw : String
  children : SourceNodes
  closeRaw : String
  after : List XmlToken
  front : ∀ token ∈ before, token.event.Front
  name_eq : localName name = "metadata"
  inside : ∀ token ∈ children.tokens, token.event.Inside

lemma localName_metadata : localName "metadata" = "metadata" := by decide

/-- The unique identifier that the package names. -/
def packageUniqueId (uniqueId : Option String) : List XmlToken → Option String
  | [] => uniqueId
  | token :: rest =>
    match token.event with
    | .start name attrs =>
      packageUniqueId
        (if localName name = "package" then attributeValue attrs "unique-identifier" else uniqueId)
        rest
    | _ => packageUniqueId uniqueId rest

namespace OpfDocument

variable (doc : OpfDocument)

/-- The document with something else in its metadata section. -/
def around (inner : List XmlToken) : List XmlToken :=
  doc.before ++ ⟨.start doc.name doc.attrs, doc.openRaw⟩ ::
    (inner ++ ⟨.close doc.name, doc.closeRaw⟩ :: doc.after)

def tokens : List XmlToken := doc.around doc.children.tokens

def uniqueId : Option String := packageUniqueId none doc.before

variable {doc}

lemma around_injective {inner inner' : List XmlToken} (h : doc.around inner = doc.around inner') :
    inner = inner' := by
  have htail := List.append_cancel_left h
  exact List.append_cancel_right (List.cons.inj htail).2

end OpfDocument

lemma findMetadata_before {before : List XmlToken} (h : ∀ token ∈ before, token.event.Front)
    (uniqueId : Option String) (front more : List XmlToken) :
    findMetadata uniqueId front none (before ++ more) =
      findMetadata (packageUniqueId uniqueId before) (front ++ before) none more := by
  induction before generalizing uniqueId front with
  | nil => rw [List.nil_append, List.append_nil, packageUniqueId]
  | cons token before ih =>
    obtain ⟨hfront, hbefore⟩ := List.forall_mem_cons.mp h
    rw [List.cons_append, findMetadata, packageUniqueId]
    rw [show front ++ token :: before = front ++ [token] ++ before by simp]
    cases hevent : token.event with
    | start name attrs =>
      rw [hevent] at hfront
      have hname : localName name ≠ "metadata" := hfront
      simp only [hname, false_and, if_false]
      split_ifs
      · exact ih hbefore _ _
      · exact ih hbefore _ _
    | error message =>
      rw [hevent] at hfront
      exact hfront.elim
    | _ => exact ih hbefore _ _

lemma findMetadata_inside {inner : List XmlToken} (h : ∀ token ∈ inner, token.event.Inside)
    (uniqueId : Option String) (front gathered more : List XmlToken) :
    findMetadata uniqueId front (some gathered) (inner ++ more) =
      findMetadata uniqueId front (some (gathered ++ inner)) more := by
  induction inner generalizing gathered with
  | nil => rw [List.nil_append, List.append_nil]
  | cons token inner ih =>
    obtain ⟨hinside, hinner⟩ := List.forall_mem_cons.mp h
    rw [List.cons_append, findMetadata]
    rw [show gathered ++ token :: inner = gathered ++ [token] ++ inner by simp]
    cases hevent : token.event with
    | start name attrs =>
      rw [hevent] at hinside
      simp only [hinside.1, hinside.2, false_and, if_false]
      exact ih hinner _
    | close name =>
      rw [hevent] at hinside
      have hname : localName name ≠ "metadata" := hinside
      simp only [hname, if_false]
      exact ih hinner _
    | error message =>
      rw [hevent] at hinside
      exact hinside.elim
    | _ => exact ih hinner _

/-- The section is found with what is in it. -/
lemma findMetadata_around (doc : OpfDocument) {inner : List XmlToken}
    (h : ∀ token ∈ inner, token.event.Inside) :
    findMetadata none [] none (doc.around inner) =
      .ok (some (⟨doc.before ++ [⟨.start doc.name doc.attrs, doc.openRaw⟩], inner,
        ⟨.close doc.name, doc.closeRaw⟩ :: doc.after⟩, doc.uniqueId)) := by
  rw [OpfDocument.around, findMetadata_before doc.front, List.nil_append, findMetadata]
  simp only [doc.name_eq, Option.isNone_none, and_self, if_true]
  rw [if_neg (by decide), findMetadata_inside h, findMetadata]
  simp only [doc.name_eq, if_true, List.nil_append]
  rfl

/-! ## What stands inside the section -/

section Inside

variable {uniqueId : Option String} {escape : String → String} {showFloat : ℚ → String}
  {metadata : EpubMetadata}

/-- What is kept was there before. -/
lemma SourceNodes.mem_strip {nodes : SourceNodes} {token : XmlToken}
    (h : token ∈ (nodes.strip uniqueId).tokens) : token ∈ nodes.tokens := by
  induction nodes with
  | nil => exact h
  | element name attrs openRaw closeRaw children rest ihChildren ihRest =>
    rw [strip] at h
    split_ifs at h
    · simp only [tokens, List.mem_cons, List.mem_append]
      exact Or.inr (Or.inr (Or.inr (ihRest h)))
    · simp only [tokens, List.mem_cons, List.mem_append] at h ⊢
      rcases h with h | h | h | h
      · exact Or.inl h
      · exact Or.inr (Or.inl (ihChildren h))
      · exact Or.inr (Or.inr (Or.inl h))
      · exact Or.inr (Or.inr (Or.inr (ihRest h)))
  | selfClosing name attrs raw rest ih =>
    rw [strip] at h
    split_ifs at h
    · exact List.mem_cons_of_mem _ (ih h)
    · exact List.mem_cons.mpr ((List.mem_cons.mp h).imp id ih)
  | text content raw rest ih => exact List.mem_cons.mpr ((List.mem_cons.mp h).imp id ih)
  | other raw rest ih => exact List.mem_cons.mpr ((List.mem_cons.mp h).imp id ih)

/-- All of the tokens may stand inside the section. -/
def Fits (tokens : List XmlToken) : Prop := ∀ token ∈ tokens, token.event.Inside

lemma Fits.append {tokens tokens' : List XmlToken} (h : Fits tokens) (h' : Fits tokens') :
    Fits (tokens ++ tokens') :=
  List.forall_mem_append.mpr ⟨h, h'⟩

lemma fits_leaf {name : String} (attrs : Attributes) (openRaw value : String)
    (hpackage : localName name ≠ "package") (hmetadata : localName name ≠ "metadata") :
    Fits (leaf escape name attrs openRaw value) := by
  intro token htoken
  rw [leaf, List.mem_append, List.mem_append, List.mem_singleton, List.mem_singleton] at htoken
  rcases htoken with (rfl | htext) | rfl
  · exact ⟨hpackage, hmetadata⟩
  · split_ifs at htext
    · cases htext
    · obtain rfl := List.mem_singleton.mp htext
      trivial
  · exact hmetadata

lemma fits_leaves {name : String} (values : List String) (hpackage : localName name ≠ "package")
    (hmetadata : localName name ≠ "metadata") : Fits (leaves escape name values) := by
  intro token htoken
  obtain ⟨value, _, htoken⟩ := List.mem_flatMap.mp htoken
  exact fits_leaf _ _ _ hpackage hmetadata token htoken

lemma fits_optionalLeaf {name : String} (value : Option String)
    (hpackage : localName name ≠ "package") (hmetadata : localName name ≠ "metadata") :
    Fits (optionalLeaf escape name value) := by
  rw [optionalLeaf]
  cases nonEmpty value with
  | none => exact fun token htoken => nomatch htoken
  | some text => exact fits_leaf _ _ _ hpackage hmetadata

lemma fits_subtitleChildren : Fits (subtitleChildren escape metadata) := by
  rw [subtitleChildren]
  cases nonEmpty metadata.subtitle with
  | none => exact fun token htoken => nomatch htoken
  | some subtitle =>
    apply (fits_leaf _ _ _ (by decide) (by decide)).append
    exact (fits_leaf _ _ _ (by decide) (by decide)).append
      (fits_leaf _ _ _ (by decide) (by decide))

lemma fits_isbnChildren : Fits (isbnChildren escape metadata) := by
  rw [isbnChildren]
  cases nonEmpty metadata.isbn with
  | none => exact fun token htoken => nomatch htoken
  | some isbn => exact fits_leaf _ _ _ (by decide) (by decide)

lemma fits_seriesChildren : Fits (seriesChildren escape showFloat metadata) := by
  intro token htoken
  have hempty : ∃ name content written, token = calibreMetaToken name content written := by
    rw [seriesChildren] at htoken
    cases hseries : nonEmpty metadata.series with
    | none =>
      rw [hseries] at htoken
      cases htoken
    | some series =>
      rw [hseries] at htoken
      rcases List.mem_cons.mp htoken with rfl | htoken
      · exact ⟨_, _, _, rfl⟩
      · cases hindex : metadata.seriesIndex with
        | none =>
          rw [hindex] at htoken
          cases htoken
        | some index =>
          rw [hindex] at htoken
          exact ⟨_, _, _, List.mem_singleton.mp htoken⟩
  obtain ⟨name, content, written, rfl⟩ := hempty
  trivial

lemma fits_generateChildren : Fits (generateChildren escape showFloat metadata) := by
  have htitle : Fits (titleChildren escape metadata) :=
    fits_leaf _ _ _ (by decide) (by decide)
  have hcreators : Fits (leaves escape "dc:creator" (writtenAuthors metadata)) :=
    fits_leaves _ (by decide) (by decide)
  have hsubjects : Fits (leaves escape "dc:subject" metadata.subjects) :=
    fits_leaves _ (by decide) (by decide)
  have hdescription : Fits (optionalLeaf escape "dc:description" metadata.description) :=
    fits_optionalLeaf _ (by decide) (by decide)
  have hpublisher : Fits (optionalLeaf escape "dc:publisher" metadata.publisher) :=
    fits_optionalLeaf _ (by decide) (by decide)
  have hlanguage : Fits (optionalLeaf escape "dc:language" metadata.language) :=
    fits_optionalLeaf _ (by decide) (by decide)
  have hdate : Fits (optionalLeaf escape "dc:date" metadata.publicationDate) :=
    fits_optionalLeaf _ (by decide) (by decide)
  have htitles := htitle.append (@fits_subtitleChildren escape metadata)
  have hnames := (htitles.append hcreators).append hsubjects
  have htexts := ((hnames.append hdescription).append hpublisher).append hlanguage
  have hdated := htexts.append hdate
  rw [generateChildren]
  exact (hdated.append fits_isbnChildren).append fits_seriesChildren

end Inside

/-! ## What is written -/

section Write

variable {escape : String → String} {showFloat : ℚ → String} {doc : OpfDocument}
  {metadata : EpubMetadata}

/-- Writing a document with anything in its section. -/
lemma rewriteOpf_around {inner kept : List XmlToken} (hinside : Fits inner)
    (hkept : Passes doc.uniqueId inner kept) :
    rewriteOpf escape showFloat (doc.around inner) metadata =
      .ok (doc.around (generateChildren escape showFloat metadata ++ kept)) := by
  rw [rewriteOpf, findMetadata_around doc hinside]
  simp only [bind, Except.bind, hkept.all, pure, Except.pure]
  rw [OpfDocument.around, List.append_assoc, List.append_assoc, List.singleton_append]

/-- The writer on a document. -/
lemma rewriteOpf_tokens : rewriteOpf escape showFloat doc.tokens metadata =
    .ok (doc.around (generateChildren escape showFloat metadata ++
      (doc.children.strip doc.uniqueId).tokens)) :=
  rewriteOpf_around doc.inside (keepChildren_tokens doc.children)

/-- The writer on what it has written. -/
lemma rewriteOpf_again : rewriteOpf escape showFloat
      (doc.around (generateChildren escape showFloat metadata ++
        (doc.children.strip doc.uniqueId).tokens)) metadata =
    .ok (doc.around (generateChildren escape showFloat metadata ++
      (keptGenerated doc.uniqueId escape metadata ++
        (doc.children.strip doc.uniqueId).tokens))) := by
  have hkept : Passes doc.uniqueId (doc.children.strip doc.uniqueId).tokens
      (doc.children.strip doc.uniqueId).tokens := by
    have hstrip := @keepChildren_tokens doc.uniqueId (doc.children.strip doc.uniqueId)
    rwa [SourceNodes.strip_strip] at hstrip
  exact rewriteOpf_around
    (fits_generateChildren.append fun token htoken =>
      doc.inside token (SourceNodes.mem_strip htoken))
    (passes_generateChildren.append hkept)

variable (escape showFloat doc metadata)

/-- Every child that is not managed, and all that is around the section, is as it was. -/
def Framed : Prop :=
  rewriteOpf escape showFloat doc.tokens metadata =
    .ok (doc.around (generateChildren escape showFloat metadata ++
      (doc.children.unmanaged doc.uniqueId).tokens))

/-- A second writing changes nothing. -/
def Idempotent : Prop :=
  ∀ written, rewriteOpf escape showFloat doc.tokens metadata = .ok written →
    rewriteOpf escape showFloat written metadata = .ok written

variable {escape showFloat doc metadata}

/-- **The rest is as it was** exactly where no managed element is inside one that is not. -/
theorem framed_iff_flat :
    Framed escape showFloat doc metadata ↔ doc.children.Flat doc.uniqueId := by
  rw [Framed, rewriteOpf_tokens]
  constructor
  · intro h
    have hinner := List.append_cancel_left (OpfDocument.around_injective (Except.ok.inj h))
    apply SourceNodes.flat_of_length
    rw [hinner]
  · intro h
    rw [SourceNodes.strip_of_flat h]

/-- **A second writing changes nothing** exactly where nothing of what was written is kept. -/
theorem idempotent_iff : Idempotent escape showFloat doc metadata ↔
    nonEmpty metadata.subtitle = none ∧
      (nonEmpty metadata.isbn = none ∨ doc.uniqueId.isSome = true) := by
  rw [← @keptGenerated_eq_nil_iff doc.uniqueId escape metadata]
  constructor
  · intro h
    have hagain := h _ rewriteOpf_tokens
    rw [rewriteOpf_again] at hagain
    have hinner := List.append_cancel_left (OpfDocument.around_injective (Except.ok.inj hagain))
    exact List.append_left_eq_self.mp hinner
  · intro h written hwritten
    rw [rewriteOpf_tokens] at hwritten
    obtain rfl := Except.ok.inj hwritten
    rw [rewriteOpf_again, h, List.nil_append]

/-! ## The unique identifier -/

/-- What `package` names as its unique identifier. -/
def XmlEvent.Identifies (uniqueId : Option String) : XmlEvent → Prop
  | .start name attrs | .empty name attrs =>
    localName name = "identifier" ∧ attributeValue attrs "id" = uniqueId
  | _ => False

/-- The first token of each node. -/
def SourceNodes.heads : SourceNodes → List XmlToken
  | nil => []
  | element name attrs openRaw _ _ rest => ⟨.start name attrs, openRaw⟩ :: rest.heads
  | selfClosing name attrs raw rest => ⟨.empty name attrs, raw⟩ :: rest.heads
  | text content raw rest => ⟨.text content, raw⟩ :: rest.heads
  | other raw rest => ⟨.other, raw⟩ :: rest.heads

/-- An identifier is managed only where it is not the unique one. -/
lemma isManaged_identifier {uniqueId : Option String} {name : String} {attrs : Attributes}
    (hname : localName name = "identifier") (hid : attributeValue attrs "id" = uniqueId) :
    isManaged uniqueId name attrs = false := by
  rw [isManaged, hname, if_neg (by decide), if_pos rfl]
  simp [hid]

lemma SourceNodes.mem_strip_of_identifies {uniqueId : Option String} {nodes : SourceNodes}
    {token : XmlToken} (h : token ∈ nodes.heads) (hid : token.event.Identifies uniqueId) :
    token ∈ (nodes.strip uniqueId).tokens := by
  induction nodes with
  | nil => exact h
  | element name attrs openRaw closeRaw children rest ihChildren ihRest =>
    rw [strip]
    rcases List.mem_cons.mp h with rfl | h
    · rw [isManaged_identifier hid.1 hid.2, if_neg (by decide)]
      exact List.mem_cons_self
    · split_ifs
      · exact ihRest h
      · simp only [tokens, List.mem_cons, List.mem_append]
        exact Or.inr (Or.inr (Or.inr (ihRest h)))
  | selfClosing name attrs raw rest ih =>
    rw [strip]
    rcases List.mem_cons.mp h with rfl | h
    · rw [isManaged_identifier hid.1 hid.2, if_neg (by decide)]
      exact List.mem_cons_self
    · split_ifs
      · exact ih h
      · exact List.mem_cons_of_mem _ (ih h)
  | text content raw rest ih =>
    rcases List.mem_cons.mp h with rfl | h
    · exact hid.elim
    · exact List.mem_cons_of_mem _ (ih h)
  | other raw rest ih =>
    rcases List.mem_cons.mp h with rfl | h
    · exact hid.elim
    · exact List.mem_cons_of_mem _ (ih h)

variable (escape showFloat doc metadata) in
/-- The package names the same unique identifier, and the children it names are still there. -/
def KeepsUniqueId : Prop :=
  ∀ written, rewriteOpf escape showFloat doc.tokens metadata = .ok written →
    (∃ span, findMetadata none [] none written = .ok (some (span, doc.uniqueId))) ∧
      ∀ token ∈ doc.children.heads, token.event.Identifies doc.uniqueId → token ∈ written

theorem keepsUniqueId : KeepsUniqueId escape showFloat doc metadata := by
  intro written hwritten
  rw [rewriteOpf_tokens] at hwritten
  obtain rfl := Except.ok.inj hwritten
  constructor
  · have hfits : Fits (generateChildren escape showFloat metadata ++
        (doc.children.strip doc.uniqueId).tokens) :=
      fits_generateChildren.append fun token htoken =>
        doc.inside token (SourceNodes.mem_strip htoken)
    exact ⟨_, findMetadata_around doc hfits⟩
  · intro token htoken hid
    have hkept := SourceNodes.mem_strip_of_identifies htoken hid
    rw [OpfDocument.around]
    simp only [List.mem_append, List.mem_cons]
    exact Or.inr (Or.inr (Or.inl (Or.inr hkept)))

variable (escape showFloat doc metadata) in
/-- The writer touches the managed elements only, and once. -/
structure TouchesManaged : Prop where
  framed : Framed escape showFloat doc metadata
  keepsUniqueId : KeepsUniqueId escape showFloat doc metadata
  idempotent : Idempotent escape showFloat doc metadata

/-- **When only the managed elements are touched, and once**: no managed element is inside one that
is not, there is no subtitle to write, and no ISBN that a package without a unique identifier would
keep. -/
theorem touchesManaged_iff : TouchesManaged escape showFloat doc metadata ↔
    doc.children.Flat doc.uniqueId ∧ nonEmpty metadata.subtitle = none ∧
      (nonEmpty metadata.isbn = none ∨ doc.uniqueId.isSome = true) := by
  constructor
  · intro h
    exact ⟨framed_iff_flat.mp h.framed, idempotent_iff.mp h.idempotent⟩
  · intro h
    exact ⟨framed_iff_flat.mpr h.1, keepsUniqueId, idempotent_iff.mpr h.2⟩

end Write

/-- A package document with a title and nothing else. -/
def titledDocument : OpfDocument where
  before := [⟨.start "package" [("unique-identifier", some "uid")],
    "<package unique-identifier=\"uid\">"⟩]
  name := "metadata"
  attrs := []
  openRaw := "<metadata>"
  children := .element "dc:title" [] "<dc:title>" "</dc:title>" (.text (some "Old") "Old" .nil) .nil
  closeRaw := "</metadata>"
  after := [⟨.close "package", "</package>"⟩]
  front := by decide
  name_eq := by decide
  inside := by decide

/-- A subtitle that is saved twice leaves what tells it from the title twice. -/
theorem not_touchesManaged_subtitle :
    (parseOpf (fun _ => none) .defaults 100 (titledDocument.tokens.map (·.event))).isOk = true ∧
      ¬ TouchesManaged id (fun _ => "1") titledDocument
        { title := "New", subtitle := some "A Subtitle" } := by
  refine ⟨by decide, fun h => ?_⟩
  have hsubtitle := (idempotent_iff.mp h.idempotent).1
  exact absurd hsubtitle (by decide)

end Epub

end TuxBooks
