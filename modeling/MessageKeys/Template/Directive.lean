import MessageKeys.Template.Layout
/-!
# Template.Directive — keys that an element is marked with

An element is marked by an attribute `translate` or `ng2-translate`, plain or in brackets. A plain one
with a value names the key itself, one in brackets holds an expression that counts if it is a quoted
literal, and a plain one without a value marks the texts directly inside the element. Whatever holds
`{{` is known only at run time and gives no key.
-/
namespace MessageKeys.Template

/-- The names of the directive. -/
def directiveNames : List String := ["translate", "ng2-translate"]

/-- An interpolation opens in this text. -/
def isInterpolated (text : String) : Bool := Text.holds ['{', '{'] text.toList

/-- The body of a literal without its backslashes; none if the quote stands in it unescaped or a
backslash is its last character. -/
def unescapeLiteral? (quote : Char) : List Char → Option (List Char)
  | [] => some []
  | ['\\'] => none
  | '\\' :: c :: rest => (unescapeLiteral? quote rest).map (c :: ·)
  | c :: rest => if c == quote then none else (unescapeLiteral? quote rest).map (c :: ·)

/-- The text of an expression that is one literal in single or double quotes, and not empty. -/
def quotedLiteral? (expression : List Char) : Option (List Char) :=
  match Text.trimChars expression with
  | [] => none
  | quote :: rest =>
    if (quote == '\'' || quote == '"') && rest.getLast? == some quote then
      (unescapeLiteral? quote rest.dropLast).filter (!·.isEmpty)
    else none

namespace Element

/-- The first attribute with one of these names, earlier names first. -/
def firstAttribute? (element : Element) (names : List String) : Option Attribute :=
  names.findSome? element.attribute?

/-- The value of the plain directive, unless it is blank. -/
def directiveValue? (element : Element) : Option String :=
  ((element.firstAttribute? directiveNames).bind (·.value)).filter
    fun value => !(Text.trim value).isEmpty

/-- The keys that the directive gives for an element. -/
def directiveKeys (element : Element) : List String :=
  match element.directiveValue? with
  | some value => if isInterpolated value then [] else [value]
  | none =>
    match element.firstAttribute? (directiveNames.map fun name => "[" ++ name ++ "]") with
    | some bound =>
      ((bound.value.bind fun value => quotedLiteral? value.toList).map String.ofList).toList
    | none =>
      if (element.firstAttribute? directiveNames).isSome then
        element.texts.filter (!isInterpolated ·)
      else []

end Element
end MessageKeys.Template
