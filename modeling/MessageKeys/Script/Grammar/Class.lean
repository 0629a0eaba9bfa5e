import MessageKeys.Script.Grammar.Type
/-!
# Script.Grammar.Class — classes

A class lists its decorators, its members and what it extends and implements. Of its members,
constructors, parameter properties and typed or initialised properties keep their shape, because
they tell which property holds a service; a method is a function behind its key.
-/
namespace MessageKeys.Script
open Reading

/-! ## Modifiers -/

/-- What stands in front of the name of a class member. -/
structure Modifiers where
  isDeclared : Bool := false
  hasAccess : Bool := false
  isStatic : Bool := false
  /-- A property with accessors of its own. -/
  isAccessor : Bool := false
  isAbstract : Bool := false
  isOverride : Bool := false
  isReadonly : Bool := false

/-- Reads a modifier, unless it is a member itself: what follows is no name, or it ends its line. -/
def tryOwnModifier (name : String) (lineEnds : Bool) : Reading Bool := do
  let typed ← isTyped
  let next ← following
  let ends := match next.token with
    | .mark text =>
      ["(", "=", "\x7d", ";"].contains text || (typed && ["<", "!", ":", "?"].contains text)
    | _ => false
  if (← isWord name) && !ends && !(lineEnds && (next.newline || next.token == .eof)) then
    advance
    return true
  return false

/-- One of the modifiers that may stand in any order, as far as they agree with each other. -/
def Modifiers.next (found : Modifiers) : Reading (Option Modifiers) := do
  let next ← following
  if (← isWord "static") && next.token == .mark "\x7b" then return none
  if ← tryModifier ["abstract"] then
    require !(found.isAbstract || found.isOverride)
    return some { found with isAbstract := true }
  if ← tryModifier ["override"] then
    require !(found.isOverride || found.isReadonly || found.isDeclared)
    require (← scope).derived
    return some { found with isOverride := true }
  if ← tryModifier ["readonly"] then
    require !found.isReadonly
    return some { found with isReadonly := true }
  if ← tryModifier ["static"] then
    require !found.isOverride
    return some { found with isStatic := true }
  -- These two are modifiers of type parameters alone.
  require !(← tryModifier ["in", "out"])
  return none

/-- The modifiers in front of a member. Only `static` is there without types. -/
def readModifiers : Reading Modifiers := do
  if !(← isTyped) then return { isStatic := ← tryOwnModifier "static" false }
  let declared ← tryOwnModifier "declare" true
  let hasAccess ← tryModifier accessModifiers
  let isDeclared ← if declared then pure true else tryOwnModifier "declare" true
  let isStatic ← tryOwnModifier "static" false
  let isAccessor ← tryOwnModifier "accessor" true
  let (found, more) ← repeating (fun ((found, more) : Modifiers × Bool) => do
    match ← found.next with
    | some found => return .again (found, true)
    | none => return .done (found, more)) ({ isDeclared, hasAccess, isStatic, isAccessor }, false)
  -- Behind one of these `accessor` is a modifier too, unless it is the name of a method.
  let next ← following
  if more && !found.isAccessor && !found.isReadonly && (← isWord "accessor") &&
      next.token != .mark "(" then
    advance
    return { found with isAccessor := true }
  return found

/-! ## Members -/

/-- The key of a constructor. -/
def Key.isConstructor (key : Key) : Bool :=
  key.name == some "constructor" && !key.isPrivate && !key.isComputed

/-- What a class body has seen so far. -/
structure ClassSoFar where
  members : List Node := []
  hasConstructor : Bool := false

/-- The modifiers agree with the key of a member and with the class it is in, where `isDone` tells that the
member has a value or a body. -/
def Modifiers.suit (modifiers : Modifiers) (key : Key) (inAbstract isDone : Bool) : Bool :=
  if key.isPrivate then !modifiers.hasAccess
  else !modifiers.isAbstract || (inAbstract && !isDone)

/-- A property of a class after its key. -/
def Rules.field (rules : Rules) (key : Key) (optional inAbstract : Bool) (modifiers : Modifiers)
    (decorators : List Node) : Reading Node := do
  require !key.isConstructor
  require !(key.isPrivate && (modifiers.isDeclared || modifiers.isAbstract))
  if (← isTyped) && !optional then discard (tryMark "!")
  let type ← rules.annotation?
  let value ← if ← tryMark "=" then
      pure [← within (fun scope => { scope with inField := true, hasTarget := true }) (withIn rules.value)]
    else pure []
  endStatement
  let rest := type.parts ++ decorators
  if modifiers.isAccessor then return .group (key.parts ++ value ++ rest)
  require (modifiers.suit key inAbstract !value.isEmpty)
  if key.isPrivate then return .group (key.parts ++ value ++ rest)
  return .field key.name type.reference key.parts value rest

/-- A method of a class after its key. -/
def Rules.method (rules : Rules) (key : Key) (inAbstract : Bool) (modifiers : Modifiers)
    (decorators : List Node) (isAsync isGenerator : Bool) (fits : Parameters → Bool) : Reading Node := do
  let function ← rules.functionTail decorators isAsync isGenerator fits
  require (modifiers.suit key inAbstract function.hasBody)
  return .group (key.parts ++ [function.node])

/-- A constructor after its key, and whether it has a body. Without one it is an overload, of which there may
be several. -/
def Rules.constructor (rules : Rules) (modifiers : Modifiers) : Reading (Node × Bool) := do
  require !(modifiers.isOverride || modifiers.isStatic || modifiers.isAbstract)
  let parameters ← within (fun scope => { scope with inAsync := false, inGenerator := false })
    (rules.parameters .constructor)
  let body ← within (·.ofOwnFunction false false) (rules.functionBody? parameters)
  require (body.isSome || !parameters.declaresProperty)
  return (.constructor parameters.nodes (body.getD []), body.isSome)

/-- A block that runs once for the class. The function, the loops and the labels around the class are still in
reach. -/
def Rules.staticBlock (rules : Rules) : Reading Node := do
  let body ← within (fun scope => { scope with inField := true, hasTarget := true }) rules.block
  return .group body

/-- One member of a class. -/
def Rules.classMember (rules : Rules) (inAbstract : Bool) (soFar : ClassSoFar) : Reading ClassSoFar := do
  if ← tryMark ";" then return soFar
  let add := fun (member : Node) => { soFar with members := member :: soFar.members }
  let typed ← isTyped
  let decorators ← rules.decorators
  let modifiers ← readModifiers
  if modifiers.isStatic && (← isMark "\x7b") then
    require !(modifiers.isDeclared || modifiers.hasAccess)
    return add (← rules.staticBlock)
  -- An index signature begins as a computed name does.
  let indexed ← if typed && !(modifiers.isAbstract || modifiers.isOverride || modifiers.hasAccess) then
      attempt (do let parts ← rules.indexSignature; endTypeMember; return parts)
    else pure none
  if let some parts := indexed then return add (.group parts)
  -- Behind a sign or a word that says what kind of method it is, the key follows.
  let special := fun (isAsync isGenerator : Bool) (fits : Parameters → Bool) => do
    let key ← rules.key
    require !(key.isConstructor || modifiers.isReadonly)
    if typed && isAsync then discard (tryMark "?")
    return add (← rules.method key inAbstract modifiers decorators isAsync isGenerator fits)
  if ← tryMark "*" then return ← special false true fun _ => true
  let key ← rules.key
  require !(key.isPrivate && key.name == some "constructor")
  let optional ← if typed then tryMark "?" else pure false
  if (← isMark "(") || (typed && (← isMark "<")) then
    require !(modifiers.isDeclared || modifiers.isReadonly)
    if key.isConstructor then
      let (constructor, hasBody) ← rules.constructor modifiers
      require !(hasBody && soFar.hasConstructor)
      return { add constructor with hasConstructor := soFar.hasConstructor || hasBody }
    return add (← rules.method key inAbstract modifiers decorators false false fun _ => true)
  let here ← cursor
  let isValue := match here.token with
    | .mark text => ["=", "\x7d", ";"].contains text || (typed && ["!", ":"].contains text)
    | _ => false
  let field : Reading ClassSoFar := do
    return add (← rules.field key optional inAbstract modifiers decorators)
  -- `get`, `set` and `async` are names of members too, unless a name follows them.
  match if key.isWord && !isValue then key.name else none with
  | some "get" =>
    if here.newline && here.token == .mark "*" then field else special false false Parameters.fitGetter
  | some "set" =>
    if here.newline && here.token == .mark "*" then field else special false false Parameters.fitSetter
  | some "async" =>
    if here.newline then field
    else
      let isGenerator ← tryMark "*"
      special true isGenerator fun _ => true
  | _ => field

/-! ## Classes -/

/-- The part of a class after its name: what it extends and implements, and its members. -/
def Rules.classTail (rules : Rules) (isAbstract : Bool) (decorators : List Node) : Reading Node := do
  let typeParameters ← rules.typeParameters? true true
  within (fun scope => { scope with hasTarget := true }) do
    let base ← if ← tryWord "extends" then pure [(← rules.leftHand).node] else pure []
    let baseArguments ← if (← isTyped) && !base.isEmpty then rules.typeArguments? else pure []
    let interfaces ← if (← isTyped) && (← isWord "implements") then do
        advance
        rules.heritage
      else pure []
    mark "\x7b"
    let inside := fun (scope : Scope) =>
      { scope with derived := !base.isEmpty, hasSuper := true, allowIn := true }
    let members ← within inside <|
      repeating (fun (soFar : ClassSoFar) => do
        if ← tryMark "\x7d" then return .done soFar.members.reverse
        return .again (← rules.classMember isAbstract soFar)) {}
    return .classBody decorators members (base ++ typeParameters ++ baseArguments ++ interfaces)

/-- A class and an interface have no name that stands for a built-in type. -/
def isDeclaredType (name : String) : Bool := name == "undefined" || !builtinTypes.contains name

/-- A class from its keyword on; the name may be left out in an expression. -/
def Rules.classFrom (rules : Rules) (isAbstract : Bool) (decorators : List Node) (nameRequired : Bool) :
    Reading Node := do
  word "class"
  within (fun scope => { scope with strict := true }) do
    let named := match ← token with
      | .word name _ => name != "extends" && name != "implements"
      | _ => false
    if nameRequired || named then
      let name ← bindingName
      require (isDeclaredType name || !(← isTyped))
    rules.classTail isAbstract decorators

end MessageKeys.Script
