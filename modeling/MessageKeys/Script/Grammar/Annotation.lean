import MessageKeys.Script.Grammar.Name
/-!
# Script.Grammar.Annotation — types where they are attached

Annotations after a colon, return types with their predicates, type arguments and type parameters.
Each rule is there only in a typed dialect.
-/
namespace MessageKeys.Script
open Reading

/-- The dialect has types. -/
def isTyped : Reading Bool := do return (← scope).dialect.typed

@[simp]
theorem isTyped_apply (scope : Scope) (here : Cursor) :
    isTyped scope here = some (scope.dialect.typed, here) := rfl

/-- A type, conditional types included. -/
def Rules.anyType (rules : Rules) : Reading TypeNode :=
  within (fun scope => { scope with allowConditionalType := true }) rules.type

/-- `: Type`, if it is there. -/
def Rules.annotation? (rules : Rules) : Reading TypeNode := do
  if (← isTyped) && (← isMark ":") then
    advance
    rules.anyType
  else return {}

/-- A return type: a type, or a predicate on a parameter. -/
def Rules.returnType (rules : Rules) : Reading TypeNode := do
  let scope ← scope
  let isSubject : Token → Bool
    | .word name _ => name == "this" || isNameHere scope name
    | _ => false
  let asserts := (← isWord "asserts") && isSubject (← following).token
  if asserts then advance
  let next ← following
  let compares := isSubject (← token) && next.token == .word "is" false && !next.newline
  if !asserts && !compares then return ← rules.anyType
  advance
  if !compares then return {}
  advance
  return { parts := (← rules.anyType).parts }

/-- `: ReturnType`, if it is there. -/
def Rules.returnAnnotation? (rules : Rules) : Reading TypeNode := do
  if (← isTyped) && (← isMark ":") then
    advance
    rules.returnType
  else return {}

/-- Types in angles, up to the `>`, which is not read. -/
def Rules.openTypeArguments (rules : Rules) : Reading (List Node) := do
  openAngle
  return (← listBefore ">" "," rules.anyType).flatMap TypeNode.parts

/-- `<A, B>`. -/
def Rules.typeArguments (rules : Rules) : Reading (List Node) := do
  let types ← rules.openTypeArguments
  closeAngle
  return types

/-- Type arguments, if they are there. -/
def Rules.typeArguments? (rules : Rules) : Reading (List Node) := do
  if (← isMark "<") || (← isMark "<<") then rules.typeArguments else return []

/-- The modifiers of a type parameter: `in` and `out` in this order, where it may vary, and `const`, where it
may be constant. -/
def typeParameterModifiers (varies constant : Bool) : Reading Unit :=
  repeating (fun (found : List String) => do
    let next ← following
    match ← token, next.token with
    | .word "in" false, .word _ _ =>
      require (varies && found.isEmpty)
      advance
      return .again ["in"]
    | .word "out" false, .word _ _ =>
      require (varies && !found.contains "out")
      advance
      return .again ["out"]
    | .word "const" false, .word _ _ =>
      require constant
      advance
      return .again found
    | _, _ => return .done ()) []

/-- `<const in out T extends A = B, ...>`. -/
def Rules.typeParameters (rules : Rules) (varies constant : Bool) : Reading (List Node) := do
  openAngle
  let parameters ← listUntil ">" "," do
    typeParameterModifiers varies constant
    discard anyWord
    let bound ← if ← tryWord "extends" then rules.anyType else pure {}
    let fallback ← if ← tryMark "=" then rules.anyType else pure {}
    return bound.parts ++ fallback.parts
  return parameters.flatten

/-- Type parameters, if they are there. -/
def Rules.typeParameters? (rules : Rules) (varies constant : Bool) : Reading (List Node) := do
  if (← isTyped) && (← isMark "<") then rules.typeParameters varies constant else return []

end MessageKeys.Script
