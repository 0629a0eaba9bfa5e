import MessageKeys.Script.Reading
/-!
# Script.Grammar.Name — names, keys and the small rules around them

Which words may be names depends on where they stand: reserved words never, some words not in
strict code, `await` not in modules and asynchronous code, `yield` not in generators. A property
may have any word as its name.
-/
namespace MessageKeys.Script
open Reading

/-- Words that are never names. -/
def reservedWords : List String :=
  ["break", "case", "catch", "class", "const", "continue", "debugger", "default", "delete", "do",
    "else", "enum", "export", "extends", "false", "finally", "for", "function", "if", "import",
    "in", "instanceof", "new", "null", "return", "super", "switch", "this", "throw", "true",
    "try", "typeof", "var", "void", "while", "with"]

/-- Words that strict code reserves. -/
def strictWords : List String :=
  ["implements", "interface", "let", "package", "private", "protected", "public", "static",
    "yield"]

/-- A word that may be used as a name here. -/
def isNameHere (scope : Scope) (name : String) : Bool :=
  !(reservedWords.contains name) &&
  !(scope.strict && strictWords.contains name) &&
  !(name == "await" && (scope.dialect.module || scope.inAsync)) &&
  !(name == "yield" && scope.inGenerator)

/-- The name of a variable that is used. -/
def referenceName : Reading String := do
  match ← token with
  | .word name _ =>
    let scope ← scope
    require (isNameHere scope name && !(scope.inField && name == "arguments"))
    advance
    return name
  | _ => fail

/-- A name that may be introduced or assigned to: strict code leaves `eval` and `arguments` alone. -/
def mayBeBound (scope : Scope) (name : String) : Bool :=
  !(scope.strict && (name == "eval" || name == "arguments"))

/-- The name of a variable that is introduced. A typed dialect takes `this` for a name here, except where an
arrow introduces it, and `await` where nothing is run. -/
def bindingName : Reading String := do
  match ← token with
  | .word name _ =>
    let scope ← scope
    require (isNameHere scope name || (name == "await" && scope.ambient) ||
      (name == "this" && scope.dialect.typed && !scope.inArrow))
    require (mayBeBound scope name)
    advance
    return name
  | _ => fail

/-- Any word. -/
def anyWord : Reading String := do
  match ← token with
  | .word name _ => advance; return name
  | _ => fail

/-- An identifier outside expressions: any word that is not reserved. -/
def plainName : Reading String := do
  match ← token with
  | .word name _ =>
    require !(reservedWords.contains name)
    advance
    return name
  | _ => fail

/-- A key of an object or class member: its name if it is a word or a string, the expressions a
computed key holds, and whether it is a plain word, a private name, or computed. -/
structure Key where
  name : Option String
  parts : List Node := []
  isWord : Bool := false
  isPrivate : Bool := false
  isComputed : Bool := false

/-- An expression without commas. -/
def Rules.value (rules : Rules) : Reading Node := do return (← rules.assign).node

/-- Reads where `in` is an operator. -/
def withIn {α : Type} (p : Reading α) : Reading α :=
  within (fun scope => { scope with allowIn := true }) p

/-- Reads inside brackets, where `in` is an operator and a colon means nothing special. -/
def bracketed {α : Type} (p : Reading α) : Reading α :=
  within (fun scope => { scope with allowIn := true, expectsColon := false }) p

/-- An expression, commas included. -/
def Rules.expression (rules : Rules) : Reading Node := do
  let first ← rules.value
  if ← isMark "," then
    let others ← repeating (fun (others : List Node) => do
      if ← tryMark "," then return .again ((← rules.value) :: others)
      return .done others.reverse) []
    return .group (first :: others)
  return first

/-- A key without a computed one counting as named. -/
def Rules.key (rules : Rules) : Reading Key := do
  match ← token with
  | .word name _ => advance; return { name := some name, isWord := true }
  | .text value => advance; return { name := value }
  | .number leadingZero =>
    require !(leadingZero && (← scope).strict)
    advance
    return { name := none }
  | .bigint => advance; return { name := none }
  | .privateName name => advance; return { name := some name, isPrivate := true }
  | .mark "[" =>
    advance
    let inner ← bracketed rules.value
    mark "]"
    return { name := none, parts := [inner], isComputed := true }
  | _ => fail

/-- Reads a template literal from its backquote on: its raw texts and its substitutions. -/
def templateParts {α : Type} (substitution : Reading α) : Reading (List (List Char) × List α) := do
  let here ← cursor
  require (here.token == .mark "`")
  repeating (fun ((raws, parts, text) : List (List Char) × List α × List Char) => do
    match templateChunk text with
    | none => fail
    | some (raw, false, rest) =>
      resume rest
      return .done ((raw :: raws).reverse, parts.reverse)
    | some (raw, true, rest) =>
      resume rest
      let part ← bracketed substitution
      let here ← cursor
      require (here.token == .mark "\x7d")
      return .again (raw :: raws, part :: parts, here.rest)) ([], [], here.rest)

end MessageKeys.Script
