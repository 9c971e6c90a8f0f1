import Mathlib.Algebra.Order.Group.Nat
import Mathlib.Data.List.Basic
import Mathlib.Tactic.Common

set_option relaxedAutoImplicit false
set_option autoImplicit false

/-!
# Chapter documents and their selectors

The tree of a parsed chapter as the DOM has it, and the CSS path that
`frontend/src/lib/epub/progressMigration.ts` writes for an element of it.

A node is named by its place: the child indices that lead to it from the document. Selectors are
those that the path is made of: compounds of `:root` or a type with an optional `:nth-of-type`,
joined by child combinators.

## Main definitions

* `TuxBooks.Chapter.Node`, `TuxBooks.Chapter.Document` — the tree.
* `TuxBooks.Chapter.Compound`, `TuxBooks.Chapter.selects` — what a selector matches.
* `TuxBooks.Chapter.cssPath` — the selector for an element.

## Main results

* `TuxBooks.Chapter.length_of_selects` — a path of child combinators reaches as deep as it is long.
* `TuxBooks.Chapter.cssPath_misses` — the path of an element never matches that element.
-/

namespace TuxBooks

namespace Chapter

/-! ## The tree -/

/-- A node of a document. Character data is a list of UTF-16 code units; comments and processing
instructions carry nothing that is read. -/
inductive Node where
  | element (ns localName : String) (attributes : List (String × String)) (children : List Node)
  | text (data : List UInt16)
  | cdata (data : List UInt16)
  | comment

namespace Node

def childNodes : Node → List Node
  | element _ _ _ children => children
  | _ => []

def isElement : Node → Bool
  | element .. => true
  | _ => false

/-- `nodeType === 3`. -/
def isText : Node → Bool
  | text _ => true
  | _ => false

/-- An element of that local name, in any namespace. -/
def isNamed (tag : String) : Node → Bool
  | element _ localName _ _ => localName = tag
  | _ => false

/-- An element of that local name and namespace. -/
def isOfType (space tag : String) : Node → Bool
  | element ns localName _ _ => ns = space && localName = tag
  | _ => false

def getAttribute (name : String) : Node → Option String
  | element _ _ attributes _ => (attributes.find? (·.1 = name)).map (·.2)
  | _ => none

end Node

/-- A document has at most one element among its children. -/
structure Document where
  children : List Node
  oneRoot : (children.filter Node.isElement).length ≤ 1

/-- The node at a place below a list of children. -/
def nodeBelow : List Node → List ℕ → Option Node
  | _, [] => none
  | children, [i] => children[i]?
  | children, i :: rest => children[i]?.bind fun node => nodeBelow node.childNodes rest

namespace Document

variable (doc : Document)

/-- The node at a place, which is none for the document itself. -/
def nodeAt (place : List ℕ) : Option Node := nodeBelow doc.children place

/-- The children of the document or of the node at a place. -/
def childNodes : List ℕ → List Node
  | [] => doc.children
  | place => ((doc.nodeAt place).map Node.childNodes).getD []

/-- An element stands at the place. -/
def HasElement (place : List ℕ) : Prop :=
  ∃ node, doc.nodeAt place = some node ∧ node.isElement = true

end Document

/-! ## Places

A place is walked upwards, so most definitions take it reversed: the node's own index first. -/

lemma nodeBelow_snoc : ∀ {place : List ℕ} (children : List Node) (i : ℕ), place ≠ [] →
    nodeBelow children (place ++ [i]) =
      (nodeBelow children place).bind fun node => node.childNodes[i]?
  | [], _, _, h => absurd rfl h
  | [j], children, i, _ => rfl
  | j :: k :: rest, children, i, _ => by
    have ih : ∀ node : Node, nodeBelow node.childNodes (k :: rest ++ [i]) =
        (nodeBelow node.childNodes (k :: rest)).bind fun node => node.childNodes[i]? :=
      fun node => nodeBelow_snoc node.childNodes i (List.cons_ne_nil k rest)
    show children[j]?.bind (fun node => nodeBelow node.childNodes (k :: rest ++ [i])) = _
    simp only [ih, nodeBelow, Option.bind_assoc]

/-- The parent of a node that is not a child of the document is an element. -/
lemma parent_of_nodeAt {doc : Document} {place : List ℕ} {i : ℕ} (hplace : place ≠ []) {node : Node}
    (h : doc.nodeAt (place ++ [i]) = some node) : doc.HasElement place := by
  rw [Document.nodeAt, nodeBelow_snoc doc.children i hplace, Option.bind_eq_some_iff] at h
  obtain ⟨parent, hparent, hchild⟩ := h
  refine ⟨parent, hparent, ?_⟩
  cases parent with
  | element ns localName attributes children => rfl
  | text data => simp [Node.childNodes] at hchild
  | cdata data => simp [Node.childNodes] at hchild
  | comment => simp [Node.childNodes] at hchild

/-! ## Selectors -/

/-- One compound of a selector. -/
inductive Compound where
  | root
  /-- A type, with the position that `:nth-of-type` asks for. -/
  | type (tag : String) (nth : Option ℕ)
  deriving DecidableEq, Repr

/-- The position of a node among the siblings before it for which `p` holds, itself included. -/
def positionAmong (siblings : List Node) (i : ℕ) (p : Node → Bool) : ℕ :=
  ((siblings.take (i + 1)).filter p).length

/-- A compound matches the element at a place, given upwards. -/
def Compound.selects (doc : Document) : Compound → List ℕ → Bool
  | _, [] => false
  | compound, i :: up =>
    match doc.nodeAt (i :: up).reverse, compound with
    | some (.element _ _ _ _), .root => up.isEmpty
    | some (.element ns localName _ _), .type tag nth =>
      localName == tag && nth.all fun n =>
        positionAmong (doc.childNodes up.reverse) i (Node.isOfType ns localName) == n
    | _, _ => false

/-- Compounds joined by child combinators, the last one first, match at a place given upwards. -/
def selectsUp (doc : Document) : List Compound → List ℕ → Bool
  | [], _ => true
  | compound :: before, place => compound.selects doc place && selectsUp doc before place.tail

/-- The selector matches the element at a place. -/
def selects (doc : Document) (selector : List Compound) (place : List ℕ) : Bool :=
  selectsUp doc selector.reverse place.reverse

/-- The selector matches the element at a place and nothing else. -/
def FindsExactly (doc : Document) (selector : List Compound) (place : List ℕ) : Prop :=
  ∀ found, selects doc selector found = true ↔ found = place

/-- How a compound is written. -/
def Compound.text : Compound → String
  | .root => ":root"
  | .type tag none => tag
  | .type tag (some n) => s!"{tag}:nth-of-type({n})"

/-- How a selector is written. -/
def selectorText (selector : List Compound) : String :=
  " > ".intercalate (selector.map Compound.text)

/-! ## The path of an element -/

/-- The compounds from an element up to the root, collected in front of those found before. -/
def cssSegments (doc : Document) : List ℕ → List Compound → List Compound
  | [], segments => segments
  | i :: up, segments =>
    match doc.nodeAt (i :: up).reverse with
    | some (.element _ tag _ _) =>
      if up = [] then .type tag none :: segments
      else
        let position := positionAmong (doc.childNodes up.reverse) i (Node.isNamed tag)
        cssSegments doc up (.type tag (some position) :: segments)
    | _ => segments

/-- Minimal `:nth-of-type` chain from the element to the document root. -/
def cssPath (doc : Document) (place : List ℕ) : Option (List Compound) :=
  let segments := cssSegments doc place.reverse []
  if segments.length > 0 then some (.root :: segments) else none

/-! ## What the path matches -/

lemma ne_nil_of_selects {doc : Document} {compound : Compound} {place : List ℕ}
    (h : compound.selects doc place = true) : place ≠ [] := by
  rintro rfl
  cases compound <;> cases h

/-- Child combinators climb one place each. -/
lemma length_le_of_selectsUp {doc : Document} : ∀ {compounds : List Compound} {place : List ℕ},
    selectsUp doc compounds place = true → compounds.length ≤ place.length
  | [], _, _ => Nat.zero_le _
  | compound :: before, place, h => by
    simp only [selectsUp, Bool.and_eq_true] at h
    obtain ⟨hhere, habove⟩ := h
    have hne := List.length_pos_of_ne_nil (ne_nil_of_selects hhere)
    have ih := length_le_of_selectsUp habove
    rw [List.length_tail] at ih
    rw [List.length_cons]
    omega

/-- Where the first compound is `:root`, the climb ends at the top. -/
lemma length_eq_of_selectsUp {doc : Document} : ∀ {compounds : List Compound} {place : List ℕ},
    selectsUp doc (compounds ++ [.root]) place = true → place.length = compounds.length + 1
  | [], place, h => by
    simp only [List.nil_append, selectsUp, Bool.and_true] at h
    cases place with
    | nil => cases h
    | cons i up =>
      simp only [Compound.selects] at h
      split at h
      · simp [List.isEmpty_iff.mp h]
      · next heq => cases heq
      · cases h
  | compound :: before, place, h => by
    simp only [List.cons_append, selectsUp, Bool.and_eq_true] at h
    obtain ⟨hhere, habove⟩ := h
    have hne := List.length_pos_of_ne_nil (ne_nil_of_selects hhere)
    have ih := length_eq_of_selectsUp habove
    rw [List.length_tail] at ih
    rw [List.length_cons]
    omega

/-- **A selector anchored at the root reaches as deep as it is long.** -/
theorem length_of_selects {doc : Document} {segments : List Compound} {place : List ℕ}
    (h : selects doc (.root :: segments) place = true) : place.length = segments.length + 1 := by
  rw [selects, List.reverse_cons] at h
  simpa using length_eq_of_selectsUp h

/-- The walk from an element collects one compound for every element on the way, the root
included. -/
lemma length_cssSegments {doc : Document} : ∀ {up : List ℕ} {segments : List Compound},
    doc.HasElement up.reverse →
    (cssSegments doc up segments).length = segments.length + up.length
  | [], segments, ⟨node, hnode, _⟩ => by cases hnode
  | i :: up, segments, ⟨node, hnode, helement⟩ => by
    cases node with
    | text data => cases helement
    | cdata data => cases helement
    | comment => cases helement
    | element ns tag attributes children =>
      simp only [cssSegments, hnode]
      split_ifs with hroot
      · simp [hroot]
      · have hparent : doc.HasElement up.reverse := by
          rw [List.reverse_cons] at hnode
          exact parent_of_nodeAt (by simpa using hroot) hnode
        rw [length_cssSegments hparent, List.length_cons, List.length_cons]
        omega

/-- **The path of an element never matches that element.** The chain begins with the root's own tag
and is anchored below `:root`, so whatever it matches lies one level deeper. -/
theorem cssPath_misses (doc : Document) (place : List ℕ) (h : doc.HasElement place) :
    ∃ selector, cssPath doc place = some selector ∧
      (∀ found, selects doc selector found = true → found.length = place.length + 1) ∧
      selects doc selector place = false ∧ ¬ FindsExactly doc selector place := by
  have hne : place ≠ [] := by
    rintro rfl
    obtain ⟨node, hnode, _⟩ := h
    cases hnode
  have hpos := List.length_pos_of_ne_nil hne
  have hlength : (cssSegments doc place.reverse []).length = place.length := by
    rw [length_cssSegments (by rwa [List.reverse_reverse]), List.length_reverse]
    simp
  have hdeeper : ∀ found, selects doc (.root :: cssSegments doc place.reverse []) found = true →
      found.length = place.length + 1 := by
    intro found hfound
    rw [length_of_selects hfound, hlength]
  have hmiss : selects doc (.root :: cssSegments doc place.reverse []) place = false := by
    by_contra hmatch
    have hdepth := hdeeper place (by simpa using hmatch)
    omega
  refine ⟨_, if_pos (by omega), hdeeper, hmiss, fun hexact => ?_⟩
  rw [(hexact place).mpr rfl] at hmiss
  cases hmiss

/-! ## A page with one empty element -/

/-- `<html><body><div/></body></html>`. -/
def emptyDiv : Document where
  children := [.element "" "html" [] [.element "" "body" [] [.element "" "div" [] []]]]
  oneRoot := by decide

/-- The path of the empty element is `:root > html > body:nth-of-type(1) > div:nth-of-type(1)`,
which does not match it. -/
theorem cssPath_emptyDiv :
    (cssPath emptyDiv [0, 0, 0]).map selectorText =
        some ":root > html > body:nth-of-type(1) > div:nth-of-type(1)" ∧
      ¬ ∀ doc place, doc.HasElement place →
        ∃ selector, cssPath doc place = some selector ∧ FindsExactly doc selector place := by
  constructor
  · decide +kernel
  · intro hclaim
    obtain ⟨selector, hselector, hexact⟩ := hclaim emptyDiv [0, 0, 0] ⟨_, rfl, rfl⟩
    cases hselector
    have hmatch := (hexact [0, 0, 0]).mpr rfl
    revert hmatch
    decide +kernel

/-- The misses of the path, on the empty element. -/
theorem cssPath_misses_emptyDiv :
    ∃ selector, cssPath emptyDiv [0, 0, 0] = some selector ∧
      (∀ found, selects emptyDiv selector found = true → found.length = 4) ∧
      selects emptyDiv selector [0, 0, 0] = false ∧ ¬ FindsExactly emptyDiv selector [0, 0, 0] :=
  cssPath_misses emptyDiv [0, 0, 0] ⟨_, rfl, rfl⟩

end Chapter

end TuxBooks
