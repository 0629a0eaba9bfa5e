import MessageKeys.Script.Grammar.Annotation
/-!
# Script.Grammar.Function — patterns, parameters and bodies

A parameter is a pattern with an annotation and a default; in a constructor it may carry modifiers
that make it a property. A function lists its parameters, its decorators, its body and its types,
in this order.
-/
namespace MessageKeys.Script
open Reading

/-- A part of a pattern: a pattern and its default, if it has one. -/
def Rules.patternElement (rules : Rules) : Reading Node := do
  let pattern ← rules.pattern
  if ← tryMark "=" then return .group [pattern, ← bracketed rules.value]
  return pattern

/-- A pattern that introduces names: a name, or brackets or braces with patterns in them. -/
def patternRule (rules : Rules) : Reading Node := do
  if ← tryMark "[" then
    let elements ← repeating (fun (elements : List Node) => do
      if ← tryMark "]" then return .done elements.reverse
      if ← tryMark "," then return .again elements
      if ← tryMark "..." then
        let rest ← rules.pattern
        mark "]"
        return .done (rest :: elements).reverse
      let elements := (← rules.patternElement) :: elements
      if ← tryMark "," then return .again elements
      mark "]"
      return .done elements.reverse) []
    return .group elements
  if ← tryMark "\x7b" then
    let entries ← repeating (fun (entries : List Node) => do
      if ← tryMark "\x7d" then return .done entries.reverse
      if ← tryMark "..." then
        discard bindingName
        mark "\x7d"
        return .done entries.reverse
      let key ← rules.key
      require (!key.isPrivate)
      let entry ←
        if ← tryMark ":" then
          pure (Node.group (key.parts ++ [← rules.patternElement]))
        else do
          -- An entry without a pattern introduces its own name, which may be any word.
          require key.isWord
          let scope ← scope
          require (!scope.inArrow || key.name.all (mayBeBound scope))
          if ← tryMark "=" then pure (Node.group [← bracketed rules.value]) else pure (.group [])
      if ← tryMark "," then return .again (entry :: entries)
      mark "\x7d"
      return .done (entry :: entries).reverse) []
    return .group entries
  return .identifier (← bindingName)

/-- The decorators in front of something. A lone expression has none in it. -/
def Rules.decorators (rules : Rules) : Reading (List Node) := do
  if !(← scope).dialect.module then return []
  repeating (fun (decorators : List Node) => do
    if ← isMark "@" then return .again ((← rules.decorator) :: decorators)
    return .done decorators.reverse) []

/-! ## Parameters -/

/-- What a parameter list belongs to. -/
inductive ParameterPlace where
  | function
  | constructor
  | arrow
  | type
deriving DecidableEq

/-- A parameter list: its nodes, how many of them are not `this`, and what is found among them. -/
structure Parameters where
  nodes : List Node := []
  count : Nat := 0
  startsWithRest : Bool := false
  declaresProperty : Bool := false
  hasDefault : Bool := false
  /-- No parameter is more than a name with its type, properties apart. -/
  simple : Bool := true

/-- A token that a modifier may stand in front of. -/
def startsMember : Token → Bool
  | .word _ _ | .privateName _ | .text _ | .number _ | .bigint => true
  | .mark text => text == "[" || text == "\x7b" || text == "*" || text == "..."
  | _ => false

/-- Reads one of the modifiers, if it stands in front of something. -/
def tryModifier (names : List String) : Reading Bool := do
  let next ← following
  match ← token with
  | .word name false =>
    if names.contains name && startsMember next.token then
      advance
      return true
    return false
  | _ => return false

/-- Words that say who may use a member of a class. -/
def accessModifiers : List String := ["public", "private", "protected"]

/-- The modifiers that turn a parameter of a constructor into a property, in this order. -/
def propertyModifiers : Reading Bool := do
  let access ← tryModifier accessModifiers
  let isOverride ← tryModifier ["override"]
  let isReadonly ← tryModifier ["readonly"]
  return access || isOverride || isReadonly

/-- A parameter after its decorators and added to the list, whose last one comes first. -/
def Rules.parameter (rules : Rules) (place : ParameterPlace) (decorators : List Node)
    (found : Parameters) : Reading Parameters := do
  let typed ← isTyped
  let isProperty ← if typed && place == .constructor then propertyModifiers else pure false
  let pattern ← rules.pattern
  let optional ← if typed then tryMark "?" else pure false
  let type ← rules.annotation?
  let isName := pattern matches .identifier _
  let fallback ← if ← tryMark "=" then do
      -- Only an arrow reads a default behind a `?`.
      require (place != .type && (!optional || place == .arrow))
      pure [← bracketed rules.value]
    else pure []
  require !(optional && place == .arrow && !isName)
  let isThis := pattern matches .identifier "this"
  let node ← if isProperty then do
      let name := match pattern with
        | .identifier name => some name
        | _ => none
      require (isName || !fallback.isEmpty)
      pure (.parameterProperty name type.reference decorators (pattern :: type.parts) fallback)
    else pure (.group (decorators ++ pattern :: type.parts ++ fallback))
  return { found with
    nodes := node :: found.nodes
    count := if isThis && fallback.isEmpty then found.count else found.count + 1
    declaresProperty := found.declaresProperty || isProperty
    hasDefault := found.hasDefault || (!fallback.isEmpty && !isProperty)
    simple := found.simple && (isProperty || (isName && fallback.isEmpty)) }

/-- A parameter that takes all arguments that are left. -/
def Rules.restParameter (rules : Rules) (decorators : List Node) (found : Parameters) :
    Reading Parameters := do
  mark "..."
  let pattern ← rules.pattern
  let type ← rules.annotation?
  return { found with
    nodes := .group (decorators ++ pattern :: type.parts) :: found.nodes
    count := found.count + 1
    startsWithRest := found.nodes.isEmpty
    simple := false }

/-- The decorators of a parameter. Those of an arrow stand in front of a name and are dropped, and types have
none. -/
def Rules.parameterDecorators (rules : Rules) (place : ParameterPlace) : Reading (List Node) := do
  let decorators ← rules.decorators
  match place with
  | .function | .constructor => return decorators
  | .arrow =>
    require (decorators.isEmpty || (← token) matches .word _ _)
    return []
  | .type =>
    require decorators.isEmpty
    return []

/-- A parameter list with its parentheses. -/
def Rules.parameters (rules : Rules) (place : ParameterPlace) : Reading Parameters := do
  mark "("
  let isArrow := place == .arrow
  let inside := fun (scope : Scope) =>
    if isArrow then { scope with inArrow := true }
    else { scope with inParameters := true, inArrow := false, inField := false, hasTarget := true }
  let found ← bracketed <| within inside <| repeating (fun (found : Parameters) => do
    if ← tryMark ")" then return .done found
    let decorators ← rules.parameterDecorators place
    if ← isMark "..." then
      let found ← rules.restParameter decorators found
      mark ")"
      return .done found
    let found ← rules.parameter place decorators found
    if ← tryMark "," then return .again found
    mark ")"
    return .done found) {}
  return { found with nodes := found.nodes.reverse }

/-! ## Bodies -/

/-- The statements between braces. -/
def Rules.block (rules : Rules) : Reading (List Node) := do
  mark "\x7b"
  within (fun scope => { scope with items := false, allowIn := true, expectsColon := false }) <|
    manyUntil "\x7d" do return [← rules.statement]

/-- The scope inside a function. -/
def Scope.ofFunction (scope : Scope) (isAsync isGenerator : Bool) : Scope :=
  { scope with
    inFunction := true, inAsync := isAsync, inGenerator := isGenerator, inParameters := false,
    inArrow := false, allowIn := true, expectsColon := false, inLoop := false, inSwitch := false,
    labels := [] }

/-- The scope inside a function that has a `this` of its own. -/
def Scope.ofOwnFunction (scope : Scope) (isAsync isGenerator : Bool) : Scope :=
  { scope.ofFunction isAsync isGenerator with inField := false, hasTarget := true }

/-- The block ahead begins with literals alone, and one of them is `'use strict'`, written without escapes. -/
def Rules.startsStrictly (rules : Rules) : Reading Bool := do
  let found ← ahead do
    mark "\x7b"
    repeating (fun (_ : Unit) => do
      let here ← cursor
      require (here.token matches .text _)
      let statement ← rules.statement
      require (statement matches .str _)
      let isStrict := ["'use strict'".toList, "\"use strict\"".toList].any (·.isPrefixOf here.start)
      return if isStrict then .done () else .again ()) ()
  return found.isSome

/-- The body of a function. It may ask for strict code only where its parameters are simple. -/
def Rules.functionBody (rules : Rules) (simple : Bool) : Reading (List Node) := do
  if !simple then require !(← rules.startsStrictly)
  rules.block

/-- The body of a function. In a typed dialect it may be missing: then only the declaration is there, which
has no defaults. Where nothing is run it has to be missing. -/
def Rules.functionBody? (rules : Rules) (parameters : Parameters) : Reading (Option (List Node)) := do
  if ← isMark "\x7b" then
    require !(← scope).ambient
    return some (← rules.functionBody parameters.simple)
  require ((← isTyped) && !parameters.hasDefault)
  endStatement
  return none

/-- A function behind its name, and whether it has a body. -/
structure FunctionTail where
  node : Node
  hasBody : Bool

/-- What follows the name of a function: types, parameters that fit it, return type and body. -/
def Rules.functionTail (rules : Rules) (decorators : List Node) (isAsync isGenerator : Bool)
    (fits : Parameters → Bool) : Reading FunctionTail := do
  let typeParameters ← rules.typeParameters? false true
  let inner := fun (scope : Scope) => { scope with inAsync := isAsync, inGenerator := isGenerator }
  let parameters ← within inner (rules.parameters .function)
  require (fits parameters)
  let type ← rules.returnAnnotation?
  let body ← within (·.ofOwnFunction isAsync isGenerator) (rules.functionBody? parameters)
  let nodes := parameters.nodes ++ decorators ++ body.getD [] ++ typeParameters ++ type.parts
  return { node := .function nodes, hasBody := body.isSome }

/-- A function that reads a property has no parameters. -/
def Parameters.fitGetter (parameters : Parameters) : Bool := parameters.count == 0

/-- A function that writes a property takes its new value. -/
def Parameters.fitSetter (parameters : Parameters) : Bool :=
  parameters.count == 1 && !parameters.startsWithRest

end MessageKeys.Script
