/-!
# Markup.Tag — open elements

What the reader of markup remembers of the elements that are open: their tags, innermost first.
`OpenTags.impliesEnd` says which tag that comes next ends the innermost element although its end tag
is missing.
-/
namespace MessageKeys.Markup

/-- The tag of an open element. Names are in capitals. -/
inductive Tag where
  | known (name : String)
  /-- A name outside the vocabulary of hypertext. -/
  | custom (name : String)
  /-- A tag so deep that its name is no longer remembered. -/
  | forgotten
deriving DecidableEq, Repr

namespace Tag

/-- Elements that have no content and no end tag. -/
def voidNames : List String :=
  ["AREA", "BASE", "BASEFONT", "BGSOUND", "BR", "COL", "COMMAND", "EMBED", "FRAME", "HR", "IMAGE",
   "IMG", "INPUT", "ISINDEX", "KEYGEN", "LINK", "MENUITEM", "META", "NEXTID", "PARAM", "SOURCE",
   "TRACK", "WBR"]

/-- Elements with content. -/
def contentNames : List String :=
  ["A", "ABBR", "ADDRESS", "ARTICLE", "ASIDE", "AUDIO", "B", "BDI", "BDO", "BLOCKQUOTE", "BODY",
   "BUTTON", "CANVAS", "CAPTION", "CITE", "CODE", "COLGROUP", "DATA", "DATALIST", "DD", "DEL",
   "DETAILS", "DFN", "DIALOG", "DIV", "DL", "DT", "EM", "FIELDSET", "FIGCAPTION", "FIGURE",
   "FOOTER", "FORM", "H1", "H2", "H3", "H4", "H5", "H6", "HEAD", "HEADER", "HGROUP", "HTML", "I",
   "IFRAME", "INS", "KBD", "LABEL", "LEGEND", "LI", "MAIN", "MAP", "MARK", "MATH", "MENU", "METER",
   "NAV", "NOSCRIPT", "OBJECT", "OL", "OPTGROUP", "OPTION", "OUTPUT", "P", "PICTURE", "PRE",
   "PROGRESS", "Q", "RB", "RP", "RT", "RTC", "RUBY", "S", "SAMP", "SCRIPT", "SECTION", "SELECT",
   "SLOT", "SMALL", "SPAN", "STRONG", "STYLE", "SUB", "SUMMARY", "SUP", "SVG", "TABLE", "TBODY",
   "TD", "TEMPLATE", "TEXTAREA", "TFOOT", "TH", "THEAD", "TIME", "TITLE", "TR", "U", "UL", "VAR",
   "VIDEO"]

/-- Elements that end an open paragraph. -/
def paragraphEnders : List String :=
  ["ADDRESS", "ARTICLE", "ASIDE", "BLOCKQUOTE", "DETAILS", "DIV", "DL", "FIELDSET", "FIGCAPTION",
   "FIGURE", "FOOTER", "FORM", "H1", "H2", "H3", "H4", "H5", "H6", "HEADER", "HR", "MAIN", "NAV",
   "OL", "P", "PRE", "SECTION"]

/-- The tag of a name in capitals. -/
def ofName (name : String) : Tag :=
  if voidNames.contains name || contentNames.contains name then .known name else .custom name

def isOneOf (names : List String) : Tag → Bool
  | .known name => names.contains name
  | _ => false

def isVoid (tag : Tag) : Bool := tag.isOneOf voidNames

/-- Whether two tags are of one kind; all names outside the vocabulary are of one kind. -/
def sameKind : Tag → Tag → Bool
  | .known a, .known b => a == b
  | .custom _, .custom _ => true
  | .forgotten, .forgotten => true
  | _, _ => false

/-- Whether an element may hold another as a child. -/
def mayHold (parent child : Tag) : Bool :=
  match parent with
  | .known "LI" => !child.isOneOf ["LI"]
  | .known "DT" | .known "DD" => !child.isOneOf ["DT", "DD"]
  | .known "P" => !child.isOneOf paragraphEnders
  | .known "COLGROUP" => child.isOneOf ["COL"]
  | .known "RB" | .known "RT" | .known "RP" => !child.isOneOf ["RB", "RT", "RP"]
  | .known "OPTGROUP" => !child.isOneOf ["OPTGROUP"]
  | .known "TR" => !child.isOneOf ["TR"]
  | .known "TD" | .known "TH" => !child.isOneOf ["TD", "TH", "TR"]
  | _ => true

/-- Bytes it takes to remember a tag. -/
def weight : Tag → Nat
  | .custom name => 2 + name.utf8ByteSize
  | _ => 1

/-- A tag as it is remembered: at most 255 characters of a name. -/
def cut : Tag → Tag
  | .custom name => .custom (String.ofList (name.toList.take 255))
  | tag => tag

end Tag

/-- The tags of the open elements, innermost first. -/
abbrev OpenTags := List Tag

namespace OpenTags

/-- Keeps outer tags as long as `used` bytes and theirs stay under 1024. -/
private def keep : Nat → List Tag → List Tag
  | _, [] => []
  | used, tag :: inner =>
    if used + tag.cut.weight < 1024 then tag.cut :: keep (used + tag.cut.weight) inner
    else .forgotten :: inner.map fun _ => .forgotten

/-- What is left of the open tags when they are put away between two tokens: the outermost are
remembered, up to 1024 bytes. -/
def remember (tags : OpenTags) : OpenTags :=
  (keep 4 tags.reverse).reverse

/-- An element is open whose kind is that of `tag`. -/
def holdsKind (tags : OpenTags) (tag : Tag) : Bool := tags.any (·.sameKind tag)

end OpenTags
end MessageKeys.Markup
