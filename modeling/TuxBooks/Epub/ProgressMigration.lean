import Mathlib.Algebra.Order.Ring.Unbundled.Rat
import Mathlib.Data.Rat.Floor
import TuxBooks.Epub.ChapterTree
import TuxBooks.Lib.Decimal
import TuxBooks.Lib.JsText

set_option relaxedAutoImplicit false
set_option autoImplicit false

/-!
# Migrating a stored reading position

`frontend/src/lib/epub/progressMigration.ts` converts a row that the former engine wrote (a CFI, a
chapter href, a coarse percentage) into a restore target, through tiers that fall through to each
other. The chapter documents are what the open publication can read of them.

Percentages are exact; a percentage that is absent or not finite is `none`, which the code treats
alike. A locator is kept as its fields where the code serializes it.

## Main definitions

* `TuxBooks.Migration.parseFoliateCfi` — the CFI subset that is understood.
* `TuxBooks.Migration.convertFoliateRow` — the tiers.
* `TuxBooks.Migration.KeepsPosition` — the locator names a spine item, and the position is given up
  only when neither the CFI nor the href names one.

## Main results

* `TuxBooks.Migration.convertFoliateRow_namesSpine` — every locator names an href of the spine.
* `TuxBooks.Migration.keepsPosition_iff` — when no position is thrown away.
-/

namespace TuxBooks

namespace Migration

open Chapter

/-! ## Parsing a CFI -/

/-- One CFI step: `/N`, text when odd, with an optional `:offset`. -/
structure CfiStep where
  value : ℕ
  isText : Bool
  charOffset : Option ℕ
  deriving DecidableEq

/-- The spine index from the itemref step and the path in the content document. -/
structure FoliateCfi where
  spineIndex : ℕ
  docSteps : List CfiStep
  deriving DecidableEq

/-- Line terminators, which a dot of a regular expression does not match. -/
def isLineTerminator (c : Char) : Bool := c.toNat ∈ [0x0a, 0x0d, 0x2028, 0x2029]

/-- `Number.MAX_SAFE_INTEGER`. -/
def maxSafeInteger : ℕ := 2 ^ 53 - 1

/-- The digits at the start of a text as a safe integer, with what follows them. -/
def safeDigits (input : List Char) : Option (ℕ × List Char) := do
  let value ← Decimal.digits? (input.takeWhile Char.isDigit)
  if value > maxSafeInteger then none
  else some (value, input.dropWhile Char.isDigit)

/-- The offset after a step, if it has one. -/
def stepOffset : List Char → Option (Option ℕ × List Char)
  | ':' :: input => (safeDigits input).map fun (offset, rest) => (some offset, rest)
  | input => some (none, input)

/-- A run of `/N[:M]` steps, skipping `[...]` assertions. Every round reads a character, so as many
rounds as there are characters are enough. -/
def stepsWithin : ℕ → List Char → Option (List CfiStep)
  | 0, _ => some []
  | rounds + 1, input =>
    match input with
    | '[' :: rest =>
      match rest.dropWhile (· ≠ ']') with
      | [] => none
      | _ :: rest => stepsWithin rounds rest
    | '/' :: rest => do
      let (value, rest) ← safeDigits rest
      if value < 1 then none
      else
        let (charOffset, rest) ← stepOffset rest
        let steps ← stepsWithin rounds rest
        return { value := value, isText := value % 2 = 1, charOffset := charOffset } :: steps
    | _ => some []

def parseSteps (input : List Char) : Option (List CfiStep) := stepsWithin input.length input

/-- What stands between `epubcfi(` and the closing parenthesis. -/
def cfiBody (cfi : List Char) : Option (List Char) :=
  if "epubcfi(".toList <+: cfi ∧ cfi.getLast? = some ')' then
    let body := (cfi.drop 8).dropLast
    if body.any isLineTerminator then none else some body
  else none

/-- A foliate-style canonical CFI, or the start of a range. -/
def parseFoliateCfi (cfi : String) : Option FoliateCfi := do
  let body ← cfiBody (JsText.stripped (JsText.isSpace ·.toNat) cfi.toList)
  if '!' ∉ body then none
  else
    let spineSteps ← parseSteps (body.takeWhile (· ≠ '!'))
    -- The last spine step is the itemref: `/2k` for the `k`-th item, counted from one.
    let itemStep ← spineSteps.getLast?
    if itemStep.isText || itemStep.charOffset.isSome then none
    else if itemStep.value < 2 ∨ itemStep.value % 2 ≠ 0 then none
    else
      let afterBang := (body.dropWhile (· ≠ '!')).tail
      let docSteps ← parseSteps (afterBang.takeWhile (· ≠ ','))
      return { spineIndex := itemStep.value / 2 - 1, docSteps := docSteps }

example : parseFoliateCfi "epubcfi(/6/4[chapter2]!/4[body]/2[para],/1:0,/1:5)" =
    some { spineIndex := 1, docSteps := [⟨4, false, none⟩, ⟨2, false, none⟩] } := by
  decide +kernel

/-! ## Text of a document -/

mutual

/-- `textContent` of a node. -/
def textContent : Node → List UInt16
  | .element _ _ _ children => textContentAll children
  | .text data => data
  | .cdata data => data
  | .comment => []

def textContentAll : List Node → List UInt16
  | [] => []
  | node :: nodes => textContent node ++ textContentAll nodes

end

/-- The text from the start of the document to the end of the node at a place. -/
def textThrough : List Node → List ℕ → List UInt16
  | _, [] => []
  | children, i :: rest =>
    textContentAll (children.take i) ++
      match children[i]? with
      | none => []
      | some node => if rest = [] then textContent node else textThrough node.childNodes rest

/-- `trim` of text. -/
def trimUnits (text : List UInt16) : List UInt16 := JsText.stripped (JsText.isSpace ·.toNat) text

/-- The first element of a document. -/
def documentElement (doc : Document) : Option Node := doc.children.find? Node.isElement

/-- Coarse progression of a node within its document, by the text before its end. -/
def itemProgression (doc : Document) (place : List ℕ) : ℚ :=
  let before := (textThrough doc.children place).length
  let total := (((documentElement doc).map textContent).getD []).length
  if total ≤ 0 then 0 else min (max ((before : ℚ) / total) 0) 1

/-! ## Following a path -/

/-- The indices of the children that are elements. -/
def elementChildren (children : List Node) : List ℕ :=
  (List.range children.length).filter fun i => (children[i]?.map Node.isElement).getD false

/-- One step of a path. An even step prefers the element children and falls back to all children,
an odd step the other way round. -/
def resolveStep (doc : Document) (place : List ℕ) (step : CfiStep) : Option (List ℕ) :=
  let children := doc.childNodes place
  if children.length = 0 then none
  else if step.isText then
    let index := (step.value - 1) / 2
    if index ≥ children.length then (elementChildren children)[index]?.map fun i => place ++ [i]
    else some (place ++ [index])
  else
    let index := step.value / 2 - 1
    match (elementChildren children)[index]? with
    | some i => some (place ++ [i])
    | none => if index ≥ children.length then none else some (place ++ [index])

/-- The place that the document's steps lead to. -/
def resolveNode (doc : Document) (steps : List CfiStep) : Option (List ℕ) :=
  steps.foldlM (resolveStep doc) []

/-- The element that the steps lead to, the terminal text step left aside. -/
def resolveElement (doc : Document) (steps : List CfiStep) : Option (List ℕ) := do
  let elementSteps := if steps.getLast?.any (·.isText) then steps.dropLast else steps
  if elementSteps.length = 0 then none
  else
    let place ← resolveNode doc elementSteps
    if (doc.nodeAt place).any Node.isElement then some place else none

/-! ## Locators -/

/-- A quote of the text with what surrounds it. -/
structure QuoteText where
  highlight : List UInt16
  before : List UInt16
  after : Option (List UInt16)
  deriving DecidableEq

/-- The locator shape that this module writes. -/
structure SerializedLocator where
  href : String
  fragments : Option (List String) := none
  cssSelector : Option String := none
  progression : Option ℚ := none
  text : Option QuoteText := none
  deriving DecidableEq

def quoteSpan : ℕ := 64
def quoteContext : ℕ := 40

/-- The text before the end of an element. -/
def textBefore (doc : Document) (place : List ℕ) (maxChars : ℕ) : List UInt16 :=
  let text := trimUnits (textThrough doc.children place)
  text.drop (text.length - maxChars)

/-- Locator for a resolved element: fragment id, then quote, then CSS path. -/
def locateElement (element : Option (List ℕ)) (href : String) (doc : Document) :
    Option SerializedLocator := do
  let place ← element
  let node ← doc.nodeAt place
  match node.getAttribute "id" with
  | some (id : String) =>
    if id ≠ "" then return { href := href, fragments := some [id] }
    else quoteOrPath place node
  | none => quoteOrPath place node
where
  quoteOrPath (place : List ℕ) (node : Node) : Option SerializedLocator :=
    let text := trimUnits (textContent node)
    if text.length > 0 then
      some { href := href
             text := some { highlight := text.take quoteSpan
                            before := textBefore doc place quoteContext
                            after := none } }
    else (cssPath doc place).map fun selector =>
      { href := href, cssSelector := some (selectorText selector) }

/-! ## The tiers -/

/-- The fields of a stored row that the conversion reads. -/
structure FoliateProgressRow where
  cfi : Option String
  chapterHref : Option String
  /-- A finite number. -/
  progressPercent : Option ℚ

/-- What the open publication offers. -/
structure ProgressSource where
  spineHrefs : List String
  readChapter : ℕ → Option Document

/-- The name of a tier that gives a locator. -/
inductive Tier where
  | exact
  | cfi
  | spine
  | spineProgression
  deriving DecidableEq

/-- A converted restore target. The beginning of the book is the absence of one. -/
inductive RestoreTarget where
  | locator (tier : Tier) (locator : SerializedLocator)
  | bookPercentage (totalProgression : ℚ)
  deriving DecidableEq

/-- A field that is not blank. -/
def nonBlank (field : Option String) : Option String :=
  field.filter fun text => JsText.stripped (fun c : Char => JsText.isSpace c.toNat) text.toList ≠ []

/-- An href without the leading `./` or `/`. -/
def needleOf (href : String) : List Char :=
  match href.toList with
  | '.' :: '/' :: rest => rest
  | '/' :: rest => rest
  | text => text

/-- Index of an href in the spine, matching also a form relative to the package document. -/
def matchSpineHref (href : String) (spineHrefs : List String) : Option ℕ :=
  let needle := needleOf href
  match spineHrefs.findIdx? (·.toList = needle) with
  | some exact => some exact
  | none => spineHrefs.findIdx? fun spine => ('/' :: needle) <:+ spine.toList

/-- Tier 1: text node and character offset, as a text quote. -/
def convertExact (cfi : FoliateCfi) (source : ProgressSource) : Option SerializedLocator := do
  let doc ← source.readChapter cfi.spineIndex
  let terminal ← cfi.docSteps.getLast?
  if !terminal.isText then none
  else
    let place ← resolveNode doc cfi.docSteps
    let node ← doc.nodeAt place
    if !node.isText then none
    else
      let text := textContent node
      let offset := min (terminal.charOffset.getD 0) text.length
      let highlight := trimUnits ((text.drop offset).take quoteSpan)
      if highlight = [] then none
      else
        let spineHref ← source.spineHrefs[cfi.spineIndex]?
        return {
          href := spineHref
          progression := some (itemProgression doc place)
          text := some {
            highlight := highlight
            before := trimUnits ((text.take offset).drop (offset - quoteContext))
            after := some (trimUnits ((text.drop (offset + quoteSpan)).take quoteContext)) } }

/-- Tier 2: the element path, as a fragment id or CSS selector. -/
def convertCfiStructure (cfi : FoliateCfi) (source : ProgressSource) :
    Option SerializedLocator := do
  let doc ← source.readChapter cfi.spineIndex
  let element := resolveElement doc cfi.docSteps
  let spineHref ← source.spineHrefs[cfi.spineIndex]?
  locateElement element spineHref doc

/-- Tier 3: spine item from the chapter href, else the CFI's slot, the element path inside it. -/
def convertSpineElement (cfi : Option FoliateCfi) (hrefSpineIndex : Option ℕ)
    (source : ProgressSource) : Option SerializedLocator := do
  let spineIndex ← hrefSpineIndex.or (cfi.map (·.spineIndex))
  if spineIndex ≥ source.spineHrefs.length then none
  else
    let doc ← source.readChapter spineIndex
    let cfi ← cfi
    let element := resolveElement doc cfi.docSteps
    let spineHref ← source.spineHrefs[spineIndex]?
    locateElement element spineHref doc

/-- Tier 4: the spine item itself, with a progression refined from the percentage. -/
def convertSpineProgression (spineIndex : Option ℕ) (progressPercent : Option ℚ)
    (spineHrefs : List String) : Option SerializedLocator := do
  let spineIndex ← spineIndex
  if spineIndex ≥ spineHrefs.length then none
  else
    let total := spineHrefs.length
    let href ← spineHrefs[spineIndex]?
    let progression :=
      match progressPercent with
      | some percent => min (max (percent / 100 * total - spineIndex) 0) 1
      | none => 0
    return { href := href, progression := some progression }

/-- The parsed CFI of a row. -/
def storedCfi (row : FoliateProgressRow) : Option FoliateCfi :=
  (nonBlank row.cfi).bind parseFoliateCfi

/-- The spine index of a row's chapter href. -/
def storedHrefIndex (row : FoliateProgressRow) (source : ProgressSource) : Option ℕ :=
  (nonBlank row.chapterHref).bind fun href => matchSpineHref href source.spineHrefs

/-- The two tiers that need a parsed CFI. -/
def convertCfi (cfiParsed : Option FoliateCfi) (source : ProgressSource) : Option RestoreTarget :=
  cfiParsed.bind fun cfi =>
    ((convertExact cfi source).map (.locator .exact)).or
      ((convertCfiStructure cfi source).map (.locator .cfi))

/-- The two tiers of the spine. -/
def convertSpine (cfiParsed : Option FoliateCfi) (hrefSpineIndex : Option ℕ)
    (progressPercent : Option ℚ) (source : ProgressSource) : Option RestoreTarget :=
  if cfiParsed.isSome || hrefSpineIndex.isSome then
    let progressionSpineIndex :=
      match cfiParsed with
      | some cfi => some cfi.spineIndex
      | none => hrefSpineIndex
    ((convertSpineElement cfiParsed hrefSpineIndex source).map (.locator .spine)).or
      ((convertSpineProgression progressionSpineIndex progressPercent source.spineHrefs).map
        (.locator .spineProgression))
  else none

/-- A row as a restore target, walking the fallback hierarchy. -/
def convertFoliateRow (row : FoliateProgressRow) (source : ProgressSource) :
    Option RestoreTarget :=
  let cfiParsed := storedCfi row
  let hrefSpineIndex := storedHrefIndex row source
  match convertCfi cfiParsed source with
  | some target => some target
  | none =>
    match convertSpine cfiParsed hrefSpineIndex row.progressPercent source with
    | some target => some target
    | none =>
      -- Book percentage: only for rows that never carried a locator.
      if (nonBlank row.cfi).isNone && (nonBlank row.chapterHref).isNone then
        let totalProgression :=
          match row.progressPercent with
          | some percent => min (max (percent / 100) 0) 1
          | none => 0
        some (.bookPercentage totalProgression)
      else none

/-! ## What a conversion keeps -/

/-- The CFI of the row names a spine item by its slot. -/
def CfiNamesItem (row : FoliateProgressRow) (source : ProgressSource) : Prop :=
  ∃ cfi, storedCfi row = some cfi ∧ cfi.spineIndex < source.spineHrefs.length

/-- The chapter href of the row names a spine item. -/
def HrefNamesItem (row : FoliateProgressRow) (source : ProgressSource) : Prop :=
  ∃ index, storedHrefIndex row source = some index

/-- The locator of a target, if there is one, names an href of the spine. -/
def NamesSpine (source : ProgressSource) (target : Option RestoreTarget) : Prop :=
  ∀ tier locator, target = some (.locator tier locator) → locator.href ∈ source.spineHrefs

/-- A conversion names an href of the spine, and gives the position up only when neither the CFI nor
the chapter href of the row names a spine item. -/
def KeepsPosition (row : FoliateProgressRow) (source : ProgressSource) : Prop :=
  NamesSpine source (convertFoliateRow row source) ∧
    (convertFoliateRow row source = none →
      ¬ CfiNamesItem row source ∧ ¬ HrefNamesItem row source)

/-- Where the slot of the CFI lies past the spine and the chapter href names an item, that item can
be read and the element path of the CFI leads to an element of it. -/
def HrefRescues (row : FoliateProgressRow) (source : ProgressSource) : Prop :=
  ∀ cfi index, storedCfi row = some cfi → source.spineHrefs.length ≤ cfi.spineIndex →
    storedHrefIndex row source = some index →
      ∃ doc, source.readChapter index = some doc ∧ (resolveElement doc cfi.docSteps).isSome

/-! ### Each tier names the spine item it converts to -/

/-- A matched href is an index of the spine. -/
lemma matchSpineHref_lt {href : String} {spineHrefs : List String} {index : ℕ}
    (h : matchSpineHref href spineHrefs = some index) : index < spineHrefs.length := by
  unfold matchSpineHref at h
  dsimp only at h
  split at h
  · next exact hexact =>
    cases h
    exact (List.findIdx?_eq_some_iff_findIdx_eq.mp hexact).1
  · exact (List.findIdx?_eq_some_iff_findIdx_eq.mp h).1

lemma storedHrefIndex_lt {row : FoliateProgressRow} {source : ProgressSource} {index : ℕ}
    (h : storedHrefIndex row source = some index) : index < source.spineHrefs.length := by
  obtain ⟨href, _, hmatch⟩ := Option.bind_eq_some_iff.mp h
  exact matchSpineHref_lt hmatch

/-- A locator of an element names the href it was asked for. -/
lemma locateElement_href {element : Option (List ℕ)} {href : String} {doc : Document}
    {locator : SerializedLocator} (h : locateElement element href doc = some locator) :
    locator.href = href := by
  have hquote : ∀ place node, locateElement.quoteOrPath href doc place node = some locator →
      locator.href = href := by
    intro place node hlocated
    unfold locateElement.quoteOrPath at hlocated
    dsimp only at hlocated
    split_ifs at hlocated
    · cases hlocated
      rfl
    · obtain ⟨selector, _, rfl⟩ := Option.map_eq_some_iff.mp hlocated
      rfl
  obtain ⟨place, _, hplace⟩ := Option.bind_eq_some_iff.mp h
  obtain ⟨node, _, hnode⟩ := Option.bind_eq_some_iff.mp hplace
  split at hnode
  · split_ifs at hnode
    · cases hnode
      rfl
    · exact hquote place node hnode
  · exact hquote place node hnode

/-- Every element has a locator. -/
lemma locateElement_isSome {doc : Document} {place : List ℕ} (href : String)
    (h : doc.HasElement place) : (locateElement (some place) href doc).isSome := by
  have hquote : ∀ node, (locateElement.quoteOrPath href doc place node).isSome := by
    intro node
    unfold locateElement.quoteOrPath
    dsimp only
    split_ifs
    · rfl
    · obtain ⟨selector, hselector, _⟩ := cssPath_misses doc place h
      rw [hselector]
      rfl
  obtain ⟨node, hnode, _⟩ := h
  show (Option.bind (doc.nodeAt place) _).isSome
  rw [hnode, Option.bind_some]
  split
  · split_ifs
    · rfl
    · exact hquote node
  · exact hquote node

/-- A resolved element is an element. -/
lemma hasElement_of_resolveElement {doc : Document} {steps : List CfiStep} {place : List ℕ}
    (h : resolveElement doc steps = some place) : doc.HasElement place := by
  unfold resolveElement at h
  dsimp only at h
  generalize (if steps.getLast?.any (·.isText) then steps.dropLast else steps) = element at h
  split_ifs at h with hempty
  obtain ⟨resolved, _, hresolved⟩ := Option.bind_eq_some_iff.mp h
  split_ifs at hresolved with helement
  cases hresolved
  exact (Option.any_eq_true _ _).mp helement

lemma convertExact_href {cfi : FoliateCfi} {source : ProgressSource} {locator : SerializedLocator}
    (h : convertExact cfi source = some locator) : locator.href ∈ source.spineHrefs := by
  obtain ⟨doc, _, h⟩ := Option.bind_eq_some_iff.mp h
  obtain ⟨terminal, _, h⟩ := Option.bind_eq_some_iff.mp h
  split_ifs at h
  obtain ⟨place, _, h⟩ := Option.bind_eq_some_iff.mp h
  obtain ⟨node, _, h⟩ := Option.bind_eq_some_iff.mp h
  dsimp only at h
  split_ifs at h
  obtain ⟨href, hhref, h⟩ := Option.bind_eq_some_iff.mp h
  cases h
  exact List.mem_of_getElem? hhref

lemma convertCfiStructure_href {cfi : FoliateCfi} {source : ProgressSource}
    {locator : SerializedLocator} (h : convertCfiStructure cfi source = some locator) :
    locator.href ∈ source.spineHrefs := by
  obtain ⟨doc, _, h⟩ := Option.bind_eq_some_iff.mp h
  obtain ⟨href, hhref, h⟩ := Option.bind_eq_some_iff.mp h
  rw [locateElement_href h]
  exact List.mem_of_getElem? hhref

lemma convertSpineElement_href {cfi : Option FoliateCfi} {index : Option ℕ}
    {source : ProgressSource} {locator : SerializedLocator}
    (h : convertSpineElement cfi index source = some locator) :
    locator.href ∈ source.spineHrefs := by
  obtain ⟨spineIndex, _, h⟩ := Option.bind_eq_some_iff.mp h
  split_ifs at h
  obtain ⟨doc, _, h⟩ := Option.bind_eq_some_iff.mp h
  obtain ⟨cfi, _, h⟩ := Option.bind_eq_some_iff.mp h
  obtain ⟨href, hhref, h⟩ := Option.bind_eq_some_iff.mp h
  rw [locateElement_href h]
  exact List.mem_of_getElem? hhref

lemma convertSpineProgression_href {index : Option ℕ} {percent : Option ℚ}
    {spineHrefs : List String} {locator : SerializedLocator}
    (h : convertSpineProgression index percent spineHrefs = some locator) :
    locator.href ∈ spineHrefs := by
  obtain ⟨spineIndex, _, h⟩ := Option.bind_eq_some_iff.mp h
  split_ifs at h
  obtain ⟨href, hhref, h⟩ := Option.bind_eq_some_iff.mp h
  cases h
  exact List.mem_of_getElem? hhref

lemma convertCfi_namesSpine (cfi : Option FoliateCfi) (source : ProgressSource) :
    NamesSpine source (convertCfi cfi source) := by
  intro tier locator h
  obtain ⟨cfi, _, h⟩ := Option.bind_eq_some_iff.mp h
  rcases Option.or_eq_some_iff.mp h with hexact | ⟨_, hstructure⟩
  · obtain ⟨found, hfound, heq⟩ := Option.map_eq_some_iff.mp hexact
    cases heq
    exact convertExact_href hfound
  · obtain ⟨found, hfound, heq⟩ := Option.map_eq_some_iff.mp hstructure
    cases heq
    exact convertCfiStructure_href hfound

lemma convertSpine_namesSpine (cfi : Option FoliateCfi) (index : Option ℕ) (percent : Option ℚ)
    (source : ProgressSource) : NamesSpine source (convertSpine cfi index percent source) := by
  intro tier locator h
  unfold convertSpine at h
  dsimp only at h
  split_ifs at h
  rcases Option.or_eq_some_iff.mp h with helement | ⟨_, hprogression⟩
  · obtain ⟨found, hfound, heq⟩ := Option.map_eq_some_iff.mp helement
    cases heq
    exact convertSpineElement_href hfound
  · obtain ⟨found, hfound, heq⟩ := Option.map_eq_some_iff.mp hprogression
    cases heq
    exact convertSpineProgression_href hfound

/-- **Every locator names an href of the spine**, whatever tier it comes from. -/
theorem convertFoliateRow_namesSpine (row : FoliateProgressRow) (source : ProgressSource) :
    NamesSpine source (convertFoliateRow row source) := by
  intro tier locator h
  unfold convertFoliateRow at h
  dsimp only at h
  split at h
  · next target htarget =>
    cases h
    exact convertCfi_namesSpine _ _ tier locator htarget
  · split at h
    · next target htarget =>
      cases h
      exact convertSpine_namesSpine _ _ _ _ tier locator htarget
    · split_ifs at h
      cases h

/-! ### When the beginning is the answer -/

lemma convertSpineProgression_eq_none_iff {index : ℕ} {percent : Option ℚ}
    {spineHrefs : List String} :
    convertSpineProgression (some index) percent spineHrefs = none ↔
      spineHrefs.length ≤ index := by
  unfold convertSpineProgression
  by_cases hlt : index < spineHrefs.length
  · simp [hlt]
  · simp [Nat.not_lt.mp hlt]

/-- With a CFI, the element tier gives nothing exactly when the item that it looks into is not in
the spine, cannot be read or has no element where the path leads. -/
lemma convertSpineElement_eq_none_iff {cfi : FoliateCfi} {index : Option ℕ}
    {source : ProgressSource} :
    convertSpineElement (some cfi) index source = none ↔
      (index.getD cfi.spineIndex < source.spineHrefs.length →
        ¬ ∃ doc, source.readChapter (index.getD cfi.spineIndex) = some doc ∧
          (resolveElement doc cfi.docSteps).isSome) := by
  have hor : index.or (some cfi.spineIndex) = some (index.getD cfi.spineIndex) := by
    cases index <;> rfl
  simp only [convertSpineElement, Option.map_some, hor, Option.bind_eq_bind, Option.bind_some]
  generalize index.getD cfi.spineIndex = item
  by_cases hlt : item < source.spineHrefs.length
  · obtain ⟨href, hhref⟩ : ∃ href, source.spineHrefs[item]? = some href :=
      ⟨_, List.getElem?_eq_getElem hlt⟩
    rw [if_neg (Nat.not_le.mpr hlt), hhref]
    cases hread : source.readChapter item with
    | none => simp
    | some doc =>
      simp only [Option.bind_some, hlt, true_imp_iff, Option.some.injEq, exists_eq_left']
      cases hresolve : resolveElement doc cfi.docSteps with
      | none => simp [locateElement]
      | some place =>
        have hlocated := locateElement_isSome href (hasElement_of_resolveElement hresolve)
        simp [Option.isSome_iff_ne_none.mp hlocated]
  · simp [Nat.not_lt.mp hlt]

/-- The spine tiers give nothing for a CFI exactly when its slot lies past the spine and no chapter
href leads to its element. -/
lemma convertSpine_eq_none_iff {cfi : FoliateCfi} {index : Option ℕ} {percent : Option ℚ}
    {source : ProgressSource} :
    convertSpine (some cfi) index percent source = none ↔
      source.spineHrefs.length ≤ cfi.spineIndex ∧
        ∀ item ∈ index, item < source.spineHrefs.length →
          ¬ ∃ doc, source.readChapter item = some doc ∧
            (resolveElement doc cfi.docSteps).isSome := by
  simp only [convertSpine, Option.isSome_some, Bool.true_or, if_true, Option.or_eq_none_iff,
    Option.map_eq_none_iff, convertSpineProgression_eq_none_iff, convertSpineElement_eq_none_iff]
  rw [and_comm, and_congr_right_iff]
  intro hpast
  cases index with
  | none => simp [Nat.not_lt.mpr hpast]
  | some item => simp

/-- A row with a CFI in the spine has a target. -/
lemma convertSpine_none_isSome {index : ℕ} {percent : Option ℚ} {source : ProgressSource}
    (h : index < source.spineHrefs.length) :
    convertSpine none (some index) percent source ≠ none := by
  simp [convertSpine, convertSpineProgression_eq_none_iff, Nat.not_le.mpr h]

lemma storedCfi_of_blank {row : FoliateProgressRow} (h : nonBlank row.cfi = none) :
    storedCfi row = none := by
  rw [storedCfi, h, Option.bind_none]

/-- The beginning is the answer only when no tier of a parsed CFI or of the spine applies. -/
lemma eq_none_of_convertFoliateRow {row : FoliateProgressRow} {source : ProgressSource}
    (h : convertFoliateRow row source = none) :
    convertSpine (storedCfi row) (storedHrefIndex row source) row.progressPercent source =
      none := by
  unfold convertFoliateRow at h
  dsimp only at h
  split at h
  · cases h
  · split at h
    · cases h
    · next hspine => exact hspine

/-- A CFI that lies past the spine converts by none of its own tiers. -/
lemma convertCfi_eq_none {cfi : FoliateCfi} {source : ProgressSource}
    (h : source.spineHrefs.length ≤ cfi.spineIndex) : convertCfi (some cfi) source = none := by
  have hhref : source.spineHrefs[cfi.spineIndex]? = none := List.getElem?_eq_none h
  have hexact : convertExact cfi source = none := by
    by_contra hne
    obtain ⟨locator, hsome⟩ := Option.ne_none_iff_exists'.mp hne
    obtain ⟨doc, _, hsome⟩ := Option.bind_eq_some_iff.mp hsome
    obtain ⟨terminal, _, hsome⟩ := Option.bind_eq_some_iff.mp hsome
    split_ifs at hsome
    obtain ⟨place, _, hsome⟩ := Option.bind_eq_some_iff.mp hsome
    obtain ⟨node, _, hsome⟩ := Option.bind_eq_some_iff.mp hsome
    dsimp only at hsome
    split_ifs at hsome
    rw [hhref] at hsome
    cases hsome
  have hstructure : convertCfiStructure cfi source = none := by
    simp [convertCfiStructure, hhref]
  simp [convertCfi, hexact, hstructure]

/-- A row with a locator that no tier converts gives the beginning. -/
lemma convertFoliateRow_eq_none {row : FoliateProgressRow} {source : ProgressSource}
    {cfi : FoliateCfi} (hcfi : storedCfi row = some cfi)
    (hpast : source.spineHrefs.length ≤ cfi.spineIndex)
    (hspine : convertSpine (some cfi) (storedHrefIndex row source) row.progressPercent source =
      none) : convertFoliateRow row source = none := by
  have hstored : (nonBlank row.cfi).isNone = false := by
    cases hblank : nonBlank row.cfi with
    | none =>
      rw [storedCfi_of_blank hblank] at hcfi
      cases hcfi
    | some text => rfl
  simp [convertFoliateRow, hcfi, convertCfi_eq_none hpast, hspine, hstored]

/-- **When no position is thrown away.** The only rows that lose one have a CFI whose slot lies past
the spine next to a chapter href that names an item, where that item cannot be read or has no
element at the CFI's path: the progression tier then asks for the CFI's slot and not for the item of
the href. -/
theorem keepsPosition_iff (row : FoliateProgressRow) (source : ProgressSource) :
    KeepsPosition row source ↔ HrefRescues row source := by
  constructor
  · rintro ⟨_, hkeeps⟩ cfi index hcfi hpast hindex
    by_contra hlost
    have hspine : convertSpine (some cfi) (storedHrefIndex row source) row.progressPercent source =
        none := by
      refine convertSpine_eq_none_iff.mpr ⟨hpast, fun item hitem _ hfound => hlost ?_⟩
      rw [hindex] at hitem
      cases hitem
      exact hfound
    exact (hkeeps (convertFoliateRow_eq_none hcfi hpast hspine)).2 ⟨index, hindex⟩
  · intro hrescues
    refine ⟨convertFoliateRow_namesSpine row source, fun hnone => ?_⟩
    have hspine := eq_none_of_convertFoliateRow hnone
    cases hcfi : storedCfi row with
    | none =>
      rw [hcfi] at hspine
      refine ⟨fun ⟨cfi, hsome, _⟩ => by simp [hcfi] at hsome, fun ⟨index, hindex⟩ => ?_⟩
      rw [hindex] at hspine
      exact convertSpine_none_isSome (storedHrefIndex_lt hindex) hspine
    | some cfi =>
      rw [hcfi] at hspine
      obtain ⟨hpast, hlost⟩ := convertSpine_eq_none_iff.mp hspine
      constructor
      · rintro ⟨named, hnamed, hlt⟩
        rw [hcfi] at hnamed
        cases hnamed
        omega
      · rintro ⟨index, hindex⟩
        exact hlost index hindex (storedHrefIndex_lt hindex)
          (hrescues cfi index hcfi hpast hindex)

/-! ## A row whose href is not looked at -/

/-- A publication of one chapter, which cannot be read. -/
def oneUnreadable : ProgressSource where
  spineHrefs := ["OEBPS/chapter1.xhtml"]
  readChapter _ := none

/-- The slot of this CFI lies past the spine, and the chapter href names the only item. -/
def pastSpine : FoliateProgressRow where
  cfi := some "epubcfi(/6/8!/4/2)"
  chapterHref := some "chapter1.xhtml"
  progressPercent := some 50

/-- The row is sent to the beginning although its href names the chapter. -/
theorem pastSpine_lost :
    convertFoliateRow pastSpine oneUnreadable = none ∧
      storedHrefIndex pastSpine oneUnreadable = some 0 ∧
      ¬ ∀ row source, KeepsPosition row source := by
  have hnone : convertFoliateRow pastSpine oneUnreadable = none := by decide +kernel
  have hindex : storedHrefIndex pastSpine oneUnreadable = some 0 := by decide +kernel
  exact ⟨hnone, hindex, fun hclaim => ((hclaim pastSpine oneUnreadable).2 hnone).2 ⟨0, hindex⟩⟩

end Migration

end TuxBooks
