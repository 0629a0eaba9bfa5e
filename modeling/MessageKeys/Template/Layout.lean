import MessageKeys.Markup.Growth
import MessageKeys.Template.Interpolation
import MessageKeys.Text.Blank
/-!
# Template.Layout — the elements and expressions of a template

A template is read as markup. `Layout.ofTree` collects, in document order, its elements with their
attributes and texts, the attributes that bind an expression, and the ranges that hold no
expressions: comments, scripts and style sheets. `Document.ofString` adds the interpolations outside
those ranges.
-/
namespace MessageKeys.Template

/-- An attribute of an element. A bare attribute has no value. -/
structure Attribute where
  name : String
  value : Option String
deriving DecidableEq, Repr

/-- `[property]`, `*directive` and `bind-property` take an expression as their value. -/
def Attribute.isBinding (self : Attribute) : Bool :=
  let name := self.name.toList
  (name.head? == some '[' && name.getLast? == some ']') || name.head? == some '*' ||
    "bind-".toList.isPrefixOf name

/-- An element with its attributes and the trimmed texts, none of them empty, directly inside it. -/
structure Element where
  tag : String
  attributes : List Attribute
  texts : List String
deriving DecidableEq, Repr

/-- The first attribute of this name. -/
def Element.attribute? (element : Element) (name : String) : Option Attribute :=
  element.attributes.find? (·.name == name)

/-- What the markup of a template holds. -/
structure Layout where
  elements : List Element
  bindings : List Located
  skipped : List Range
deriving DecidableEq, Repr

namespace Layout

def empty : Layout := ⟨[], [], []⟩

def append (a b : Layout) : Layout :=
  ⟨a.elements ++ b.elements, a.bindings ++ b.bindings, a.skipped ++ b.skipped⟩

instance : Append Layout := ⟨append⟩

end Layout

section Read

/-- Names of tags. -/
private def isTagName : Markup.Symbol → Bool
  | .terminal .startName | .terminal .scriptName | .terminal .styleName
  | .terminal .endName => true
  | _ => false

/-- Values of attributes, in quotes or not. -/
private def isValue : Markup.Symbol → Bool
  | .terminal .attributeValue | .terminal .singleQuoted | .terminal .doubleQuoted => true
  | _ => false

/-- The value of an attribute and where it starts, if this part of the attribute is one. Between the
quotes of an empty value there is no part of its own. -/
private def valueOfPart (part : Markup.Tree) : Option Located :=
  if isValue part.symbol then some ⟨part.start.offset, part.text⟩
  else if part.symbol == .phrase .quotedValue then
    match part.shown.find? (isValue ·.symbol) with
    | some inner => some ⟨inner.start.offset, inner.text⟩
    | none => some ⟨part.start.offset, ""⟩
  else none

/-- An attribute, and where its value starts. -/
def readAttribute? (tree : Markup.Tree) : Option (Attribute × Nat) :=
  let parts := tree.shown
  let name := (parts.filter (·.symbol == .terminal .attributeName)).getLast?
  let value := (parts.filterMap valueOfPart).getLast?
  name.map fun name =>
    (⟨name.text, value.map (·.text)⟩, (value.map (·.offset)).getD tree.start.offset)

private def isTag (tree : Markup.Tree) : Bool :=
  tree.symbol == .phrase .startTag || tree.symbol == .phrase .selfClosingTag

def readElement (tree : Markup.Tree) : Element :=
  let parts := tree.shown
  let tagParts := (parts.filter isTag).flatMap (·.shown)
  { tag := ((tagParts.filter (isTagName ·.symbol)).getLast?.map (·.text)).getD ""
    attributes := tagParts.filterMap fun part =>
      if part.symbol == .phrase .attribute then (readAttribute? part).map (·.1) else none
    texts := parts.filterMap fun part =>
      if part.symbol == .terminal .text then
        let text := Text.trim part.text
        if text.isEmpty then none else some text
      else none }

/-- What a node adds by itself. -/
def ofNode (tree : Markup.Tree) : Layout :=
  match tree.symbol with
  | .phrase .element => { Layout.empty with elements := [readElement tree] }
  | .phrase .attribute =>
    match readAttribute? tree with
    | some (found, offset) =>
      match found.value with
      | some value =>
        if found.isBinding then { Layout.empty with bindings := [⟨offset, value⟩] }
        else .empty
      | none => .empty
    | none => .empty
  | .terminal .comment | .terminal .rawText =>
    { Layout.empty with skipped := [⟨tree.start.offset, tree.stop.offset⟩] }
  | _ => .empty

mutual

/-- What a tree holds, in document order. -/
def Layout.ofTree : Markup.Tree → Layout
  | ⟨symbol, lead, start, stop, children, extra, tags, cost, shownChildren, shownBelow⟩ =>
    ofNode ⟨symbol, lead, start, stop, children, extra, tags, cost, shownChildren, shownBelow⟩ ++
      Layout.ofTrees children

def Layout.ofTrees : List Markup.Tree → Layout
  | [] => .empty
  | tree :: trees => Layout.ofTree tree ++ Layout.ofTrees trees

end

end Read

/-- The elements and the expressions of a template, both in document order. -/
structure Document where
  elements : List Element
  expressions : List String
deriving DecidableEq, Repr

/-- The expressions of a template: interpolations and the values of binding attributes, by where they
start. -/
def Layout.expressions (layout : Layout) (template : List Char) : List Located :=
  (interpolations layout.skipped template ++ layout.bindings).mergeSort
    fun a b => a.offset ≤ b.offset

/-- Reads a template. Every text is one. -/
def Document.ofString (template : String) : Document :=
  let layout := Layout.ofTree (Markup.Growth.treeOf template.toList)
  ⟨layout.elements, (layout.expressions template.toList).map (·.text)⟩

end MessageKeys.Template
