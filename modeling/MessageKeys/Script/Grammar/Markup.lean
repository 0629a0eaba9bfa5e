import MessageKeys.Script.Grammar.Annotation
/-!
# Script.Grammar.Markup — markup expressions

An element is an expression in the dialects that have them: a tag with type arguments, attributes and,
unless it closes itself, children up to the matching closing tag. Text between tags is not made of tokens; it
runs to the next `{` or `<` and may hold neither `}` nor `>`.
-/
namespace MessageKeys.Script
open Reading

/-- A character that may stand in the name of a tag or an attribute. -/
def isMarkupNamePart (c : Char) : Bool := Text.isNamePart c || c == '-'

/-- The name of a tag or an attribute, hyphens included. -/
def markupWord : Reading String := do
  let here ← cursor
  match here.token with
  | .word name _ =>
    let more := here.rest.takeWhile isMarkupNamePart
    resume (here.rest.dropWhile isMarkupNamePart)
    return name ++ String.ofList more
  | _ => fail

/-- A name with a namespace or with dotted parts. -/
def markupName (dotted : Bool) : Reading String := do
  let first ← markupWord
  if ← tryMark ":" then return first ++ ":" ++ (← markupWord)
  if dotted then
    repeating (fun (name : String) => do
      if ← tryMark "." then return .again (name ++ "." ++ (← markupWord))
      return .done name) first
  else return first

/-- `{expression}`. Among the children the expression may be missing, or spread. -/
def Rules.markupContainer (rules : Rules) (isChild : Bool) : Reading (List Node) := do
  mark "\x7b"
  bracketed do
    if isChild then
      if ← isMark "\x7d" then return []
      if ← tryMark "..." then return [← rules.value]
    return [← rules.expression]

/-- The attributes of a tag. -/
def Rules.markupAttributes (rules : Rules) : Reading (List Node) :=
  repeating (fun (found : List Node) => do
    let here ← cursor
    match here.token with
    | .mark "\x7b" =>
      advance
      mark "..."
      let inner ← bracketed rules.value
      mark "\x7d"
      return .again (inner :: found)
    | .word _ _ =>
      discard (markupName false)
      let here ← cursor
      if here.token == .mark "=" then
        -- A quoted value has no escapes, so it is not read as a token.
        let valueAt := (Cursor.at true false here.rest).start
        match valueAt with
        | '"' :: rest => quoted found '"' rest
        | '\'' :: rest => quoted found '\'' rest
        | '{' :: _ =>
          advance
          let inner ← rules.markupContainer false
          mark "\x7d"
          return .again (inner.reverse ++ found)
        | '<' :: _ =>
          advance
          let element ← rules.element
          advance
          return .again (element :: found)
        | _ => fail
      else return .again found
    | _ => return .done found.reverse) []
where
  /-- A quoted attribute value, which has no escapes and may span lines. -/
  quoted (found : List Node) (quote : Char) (rest : List Char) :
      Reading (Round (List Node) (List Node)) := do
    match rest.dropWhile (· != quote) with
    | _ :: after => resume after; return .again found
    | [] => fail

/-- The children of an element up to its closing tag, whose name is `name`. Afterwards the current
token is the `>` of the closing tag. -/
def Rules.markupChildren (rules : Rules) (name : String) (text : List Char) : Reading (List Node) :=
  repeating (fun ((found, text) : List Node × List Char) => do
    match text.dropWhile (fun c => c != '{' && c != '<' && c != '}' && c != '>') with
    | '{' :: rest =>
      resume ('{' :: rest)
      let inner ← rules.markupContainer true
      let here ← cursor
      require (here.token == .mark "\x7d")
      return .again (inner.reverse ++ found, here.rest)
    | '<' :: '/' :: rest =>
      resume rest
      let closing ← if ← isMark ">" then pure "" else markupName true
      require (closing == name && (← isMark ">"))
      return .done found.reverse
    | '<' :: rest =>
      resume ('<' :: rest)
      let element ← rules.element
      return .again (element :: found, (← cursor).rest)
    | _ => fail) ([], text)

/-- An element or a fragment. Afterwards the current token is its last `>`. -/
def elementRule (rules : Rules) : Reading Node := do
  mark "<"
  let here ← cursor
  if here.token == .mark ">" then return .group (← rules.markupChildren "" here.rest)
  let name ← markupName true
  let types ← if ← isTyped then rules.typeArguments? else pure []
  let attributes ← rules.markupAttributes
  if ← tryMark "/" then
    require (← isMark ">")
    return .group (attributes ++ types)
  let here ← cursor
  require (here.token == .mark ">")
  return .group (attributes ++ types ++ (← rules.markupChildren name here.rest))

end MessageKeys.Script
