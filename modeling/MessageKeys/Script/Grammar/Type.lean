import MessageKeys.Script.Grammar.Function
/-!
# Script.Grammar.Type — types

Types are read for where they end; of a type only the last name of a plain type reference is kept,
and the expressions in it (keys of object types). A conditional type is not read where the caller
reads an `extends` of its own.
-/
namespace MessageKeys.Script
open Reading

/-- Names of types that are built in and refer to nothing. -/
def builtinTypes : List String :=
  ["any", "unknown", "never", "void", "null", "undefined", "string", "number", "boolean", "bigint",
    "symbol", "object", "intrinsic"]

/-- Words that begin no type. -/
def isTypeName (name : String) : Bool :=
  name != "let" && (["void", "null", "break", "enum"].contains name || !reservedWords.contains name)

/-- A dotted name; gives the last part. -/
def entityName : Reading String := do
  let first ← anyWord
  repeating (fun (last : String) => do
    if ← tryMark "." then return .again (← anyWord)
    return .done last) first

/-- Type arguments behind a type, which start on the same line. -/
def Rules.appliedArguments (rules : Rules) : Reading (List Node) := do
  if ← newline then return [] else rules.typeArguments?

/-- Names with their type arguments, as they stand behind `extends` and `implements`. -/
def Rules.heritage (rules : Rules) : Reading (List Node) :=
  return (← listBefore "\x7b" "," do
    require (!(← isWord "extends") && !(← isWord "implements"))
    discard entityName
    rules.typeArguments?).flatten

/-- The parts of a signature after its name: type parameters, parameters, return type. -/
def Rules.signature (rules : Rules) : Reading (List Node) := do
  let typeParameters ← rules.typeParameters? false true
  let parameters ← rules.parameters .type
  let type ← rules.returnAnnotation?
  return parameters.nodes ++ type.parts ++ typeParameters

/-- Ends a member of an object type. -/
def endTypeMember : Reading Unit := do
  if ← tryMark "," then pure () else endStatement

/-- `[name: Type]: Type`. -/
def Rules.indexSignature (rules : Rules) : Reading (List Node) := do
  mark "["
  discard referenceName
  mark ":"
  let key ← rules.anyType
  mark "]"
  let value ← rules.annotation?
  return key.parts ++ value.parts

/-- The key of a member of an object type: no private name, no big number, and no `in` of its own. -/
def Rules.typeKey (rules : Rules) : Reading Key := do
  match ← token with
  | .privateName _ | .bigint => fail
  | .mark "[" =>
    advance
    let inner ← within (fun scope => { scope with allowIn := false, expectsColon := false }) rules.value
    mark "]"
    return { name := none, parts := [inner], isComputed := true }
  | _ => rules.key

/-- An accessor in an object type: one that reads has no parameters, one that writes some and no type. -/
def Rules.typeAccessor (rules : Rules) : Reading (List Node) := do
  let reads ← tryWord "get"
  if !reads then word "set"
  let key ← rules.typeKey
  let parameters ← rules.parameters .type
  require (reads == parameters.nodes.isEmpty)
  let type ← if reads then rules.annotation? else pure {}
  endTypeMember
  return key.parts ++ parameters.nodes ++ type.parts

/-- One member of an object type. -/
def Rules.typeMember (rules : Rules) : Reading (List Node) := do
  let next ← following
  let isCall := (← isMark "(") || (← isMark "<")
  let isConstruct := (← isWord "new") && (next.token == .mark "(" || next.token == .mark "<")
  if isCall || isConstruct then
    if isConstruct then advance
    let parts ← rules.signature
    endTypeMember
    return parts
  let isReadonly := (← isWord "readonly") && startsMember next.token
  if isReadonly then advance
  -- An index signature begins as a computed key does, and an accessor as a property named `get` or `set`.
  match ← attempt (do let parts ← rules.indexSignature; endTypeMember; return parts) with
  | some parts => return parts
  | none =>
    match ← attempt (do require !isReadonly; rules.typeAccessor) with
    | some parts => return parts
    | none =>
      let key ← rules.typeKey
      discard (tryMark "?")
      let isMethod := (← isMark "(") || (← isMark "<")
      require !(isMethod && isReadonly)
      let parts ← if isMethod then rules.signature else pure (← rules.annotation?).parts
      endTypeMember
      return key.parts ++ parts

/-- The members of an object type or an interface. -/
def Rules.objectType (rules : Rules) : Reading (List Node) := do
  mark "\x7b"
  manyUntil "\x7d" rules.typeMember

/-- A mapped type starts here: `{`, maybe a sign and `readonly`, then a name and `in` between brackets. -/
def startsMappedType : Reading Bool := do
  let found ← ahead do
    mark "\x7b"
    let signed := (← isMark "+") || (← isMark "-")
    if signed then
      advance
      word "readonly"
    else
      discard (tryWord "readonly")
      mark "["
      discard referenceName
      word "in"
  return found.isSome

/-- `{ readonly [K in T as U]?: V }`. -/
def Rules.mappedType (rules : Rules) : Reading (List Node) := do
  mark "\x7b"
  let sign : Reading Unit := do if (← isMark "+") || (← isMark "-") then advance
  sign
  discard (tryWord "readonly")
  mark "["
  discard referenceName
  word "in"
  let source ← rules.anyType
  let renamed ← if ← tryWord "as" then rules.anyType else pure {}
  mark "]"
  if (← isMark "+") || (← isMark "-") then
    advance
    mark "?"
  else discard (tryMark "?")
  let value ← rules.annotation?
  endStatement
  mark "\x7d"
  return source.parts ++ renamed.parts ++ value.parts

/-- One element of a tuple type, which may be named, optional or spread: the expressions in it, and whether
it is optional and whether it is spread. -/
def Rules.tupleElement (rules : Rules) : Reading (List Node × Bool × Bool) := do
  discard <| attempt do
    discard (tryMark "...")
    discard anyWord
    discard (tryMark "?")
    mark ":"
  if ← tryMark "..." then return ((← rules.anyType).parts, false, true)
  let type ← rules.anyType
  return (type.parts, ← tryMark "?", false)

/-- `[A, B?, ...C]`: behind an optional element none is required. -/
def Rules.tupleType (rules : Rules) : Reading (List Node) := do
  mark "["
  let elements ← listUntil "]" "," rules.tupleElement
  let behind := elements.dropWhile fun (_, optional, _) => !optional
  require (behind.all fun (_, optional, spread) => optional || spread)
  return elements.flatMap (·.1)

/-- `import('x', { with: {} }).a.b<T>`. -/
def Rules.importType (rules : Rules) : Reading (List Node) := do
  word "import"
  mark "("
  match ← token with
  | .text _ => advance
  | _ => fail
  let options ← if ← tryMark "," then
      if ← tryMark "\x7b" then
        word "with"
        mark ":"
        let attributes ← bracketed rules.value
        discard (tryMark ",")
        mark "\x7d"
        discard (tryMark ",")
        pure [attributes]
      else pure []
    else pure []
  mark ")"
  if ← tryMark "." then discard entityName
  return options ++ (← rules.typeArguments?)

/-- The type behind the parameters of a function type. -/
def Rules.resultType (rules : Rules) : Reading TypeNode := do
  mark "=>"
  within (fun scope => { scope with allowConditionalType := true }) rules.returnType

/-- A function or constructor type after its keywords. -/
def Rules.functionType (rules : Rules) : Reading TypeNode := do
  let typeParameters ← rules.typeParameters? false true
  let parameters ← rules.parameters .type
  let type ← rules.resultType
  return { parts := parameters.nodes ++ type.parts ++ typeParameters }

/-- `typeof a.b<T>`. -/
def Rules.typeQuery (rules : Rules) : Reading (List Node) := do
  word "typeof"
  if ← isWord "import" then return ← rules.importType
  require !(← isWord "void")
  discard entityName
  rules.appliedArguments

/-- A type without operators. -/
def Rules.primaryType (rules : Rules) : Reading TypeNode := do
  let next ← following
  match ← token with
  | .word "typeof" _ => return { parts := ← rules.typeQuery }
  | .word "import" _ => return { parts := ← rules.importType }
  | .word "true" _ | .word "false" _ => advance; return {}
  | .word "this" _ => thisType rules
  | .word name _ =>
    if name == "asserts" && next.token == .word "this" false then
      advance
      return ← thisType rules
    if builtinTypes.contains name && (name == "void" || next.token != .mark ".") then
      advance
      return {}
    require (isTypeName name)
    let reference ← entityName
    let arguments ← rules.appliedArguments
    return { reference := some reference, parts := arguments }
  | .text _ | .bigint => advance; return {}
  | .number leadingZero =>
    require !(leadingZero && (← scope).strict)
    advance
    return {}
  | .mark "-" =>
    advance
    match ← token with
    | .number _ | .bigint => advance; return {}
    | _ => fail
  | .mark "`" =>
    let (_, types) ← templateParts rules.anyType
    return { parts := types.flatMap TypeNode.parts }
  | .mark "\x7b" =>
    return { parts := ← if ← startsMappedType then rules.mappedType else rules.objectType }
  | .mark "[" => return { parts := ← rules.tupleType }
  | .mark "(" =>
    advance
    let inner ← rules.anyType
    mark ")"
    return { parts := inner.parts }
  | _ => fail
where
  /-- The type `this`, or a predicate on it. -/
  thisType (rules : Rules) : Reading TypeNode := do
    word "this"
    if (← newline) || !(← isWord "is") then return {}
    advance
    return { parts := (← rules.anyType).parts }

/-- A type with its suffixes `[]` and `[K]`. -/
def Rules.suffixedType (rules : Rules) : Reading TypeNode := do
  let first ← rules.primaryType
  repeating (fun (type : TypeNode) => do
    if !(← newline) && (← isMark "[") then
      advance
      if ← tryMark "]" then return .again { parts := type.parts }
      let index ← rules.anyType
      mark "]"
      return .again { parts := type.parts ++ index.parts }
    return .done type) first

/-- A type with its leading operators. -/
def typeOperandRule (rules : Rules) : Reading TypeNode := do
  match ← token with
  | .word "keyof" _ | .word "unique" _ | .word "readonly" _ =>
    advance
    return { parts := (← rules.typeOperand).parts }
  | .word "infer" _ =>
    advance
    discard anyWord
    let bound ← attempt do
      word "extends"
      let type ← within (fun scope => { scope with allowConditionalType := false }) rules.type
      -- A `?` behind it would make this a conditional type, with `extends` as its test.
      require (!(← scope).allowConditionalType || !(← isMark "?"))
      return type
    return { parts := (bound.getD {}).parts }
  | _ => rules.suffixedType

/-- Types joined by `separator`, which may also stand in front. -/
def joinedTypes (separator : String) (operand : Reading TypeNode) : Reading TypeNode := do
  let leading ← tryMark separator
  let first ← operand
  repeating (fun ((type, single) : TypeNode × Bool) => do
    if ← tryMark separator then
      let next ← operand
      return .again ({ parts := type.parts ++ next.parts }, false)
    return .done (if single then type else { parts := type.parts })) (first, !leading)

/-- A type. -/
def typeRule (rules : Rules) : Reading TypeNode := do
  let next ← following
  let here ← cursor
  let startsConstructor := match here.token, next.token with
    | .word "new" _, _ => true
    | .word "abstract" _, .word "new" _ => true
    | _, _ => false
  if startsConstructor then
    if ← tryWord "abstract" then pure ()
    advance
    return { parts := (← rules.functionType).parts }
  if here.token == .mark "<" then return ← rules.functionType
  -- Only the `=>` tells parameters from a type in parentheses.
  let function ← if here.token == .mark "(" then attempt do
      let parameters ← rules.parameters .type
      require (← isMark "=>")
      return parameters
    else pure none
  match function with
  | some parameters => return { parts := parameters.nodes ++ (← rules.resultType).parts }
  | none =>
    let checked ← joinedTypes "|" (joinedTypes "&" rules.typeOperand)
    if (← scope).allowConditionalType && !(← newline) && (← isWord "extends") then
      advance
      let bound ← within (fun scope => { scope with allowConditionalType := false }) rules.type
      mark "?"
      let yes ← rules.anyType
      mark ":"
      let no ← rules.anyType
      return { parts := checked.parts ++ bound.parts ++ yes.parts ++ no.parts }
    return checked

end MessageKeys.Script
