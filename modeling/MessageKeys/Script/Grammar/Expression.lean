import MessageKeys.Script.Grammar.Class
import MessageKeys.Script.Grammar.Markup
/-!
# Script.Grammar.Expression — expressions

From the outside in: assignments and arrows, the conditional, operators by precedence
(`climbRule`), leading operators (`unaryRule`), then calls, accesses and the other suffixes behind
a primary expression. Array and object literals are read once and may turn out to be patterns
(`Operand`).
-/
namespace MessageKeys.Script
open Reading

/-- An expression that is no pattern. -/
def Operand.plain (node : Node) : Operand := { node }

/-! ## Arguments and suffixes -/

/-- The arguments of a call with their parentheses. -/
def Rules.arguments (rules : Rules) : Reading (List Node) := do
  mark "("
  bracketed <| listUntil ")" "," do
    if ← tryMark "..." then return .spread (← rules.value)
    rules.value

/-- A template literal. Behind a tag, and only there, a text may have an escape that is none. -/
def Rules.template (rules : Rules) (tagged : Bool) : Reading Node := do
  let (raws, substitutions) ← templateParts rules.expression
  let texts := raws.map (cook true .plain)
  require (texts.all fun text => match text with
    | .ok _ => true
    | .error flaw => tagged && flaw == .fatal)
  return .template (texts.map fun text => text.toOption.bind textOfUnits) substitutions

/-- What stands left of a suffix: whether it may be assigned to, whether it belongs to a chain with `?.`, and
whether it may as well be a part of a pattern. -/
structure Subject where
  node : Node
  simple : Bool
  chain : Bool
  element : Bool := true

def Subject.operand (subject : Subject) : Operand :=
  let simple := subject.simple && !subject.chain
  { node := subject.node, simple, target := simple, element := simple && subject.element
    form := if subject.chain then .chain else .plain }

/-- A call, which is one of its own only outside chains with `?.`. -/
def Subject.called (subject : Subject) (arguments types : List Node) (optional : Bool) : Subject :=
  let chain := subject.chain || optional
  let node := if chain then .group (subject.node :: arguments ++ types)
    else .call subject.node arguments types
  { node, simple := false, chain }

/-- A property access by name. -/
def Subject.accessed (subject : Subject) (name : String) (optional : Bool) : Subject :=
  let chain := subject.chain || optional
  { node := if chain then .group [subject.node] else .member subject.node name
    simple := true, chain }

/-- A property access by an expression. -/
def Subject.indexed (subject : Subject) (index : Node) (optional : Bool) : Subject :=
  { node := .group [subject.node, index], simple := true, chain := subject.chain || optional }

/-- A property access by a private name. -/
def Subject.hidden (subject : Subject) (optional : Bool) : Subject :=
  { node := .group [subject.node], simple := true, chain := subject.chain || optional }

/-- A token that may start an expression, so that type arguments before it are none. -/
def startsExpression (here : Cursor) : Bool :=
  match here.token with
  | .word name _ => !(["in", "instanceof", "as", "satisfies", "of", "extends", "implements",
      "is"].contains name)
  | .text _ | .number _ | .bigint | .privateName _ => true
  | .mark text => ["[", "\x7b", "+", "-", "++", "--", "!", "~", "@", "<"].contains text
  | _ => false

/-- Type arguments behind an expression: only if the `>` is no longer operator, and if what follows fits a
call, a template, or an expression with its types filled in. -/
def Rules.appliedTypes (rules : Rules) : Reading (List Node) := do
  let types ← rules.openTypeArguments
  let close ← cursor
  require ((angleOperator close.start).1 == ">")
  closeAngle
  let here ← cursor
  match here.token with
  | .mark "(" | .mark "`" => return types
  | .mark ">" => fail
  | _ =>
    require (here.newline || !(startsExpression here))
    return types

/-- Reads `?.`, between whose signs blanks may stand. -/
def tryChainMark : Reading Bool := do
  if ← tryMark "?." then return true
  if (← isMark "?") && (← following).token == .mark "." then
    advance
    advance
    return true
  return false

/-- A suffix behind `?.`. -/
def Rules.chained (rules : Rules) (computed : Bool) (subject : Subject) : Reading Subject := do
  match ← token with
  | .mark "[" =>
    require computed
    advance
    let index ← withIn rules.expression
    mark "]"
    return subject.indexed index true
  | .mark "(" => return subject.called (← rules.arguments) [] true
  | .mark "<" | .mark "<<" =>
    require (← isTyped)
    let types ← rules.typeArguments
    return subject.called (← rules.arguments) types true
  | .privateName _ => advance; return subject.hidden true
  | .mark "`" => fail
  | _ => return subject.accessed (← anyWord) true

/-- One suffix, or `none` at the end of the suffixes. Calls and computed accesses count only if asked
for. -/
def Rules.suffix (rules : Rules) (calls computed : Bool) (subject : Subject) :
    Reading (Option Subject) := do
  if ← tryChainMark then
    require calls
    return some (← rules.chained computed subject)
  let here ← cursor
  let typed := here.token == .mark "<" || here.token == .mark "<<"
  match here.token with
  | .mark "!" =>
    -- On a line of its own it negates what follows.
    if (← isTyped) && !here.newline then
      advance
      return some { subject with node := .wrapped .nonNull subject.node [], element := false }
    return none
  | .mark "." =>
    advance
    match ← token with
    | .privateName _ => advance; return some (subject.hidden false)
    | _ => return some (subject.accessed (← anyWord) false)
  | .mark "[" =>
    if computed then
      advance
      let index ← withIn rules.expression
      mark "]"
      return some (subject.indexed index false)
    return none
  | .mark "(" =>
    if calls then return some (subject.called (← rules.arguments) [] false)
    return none
  | .mark "`" =>
    require (!subject.chain)
    let template ← rules.template true
    return some { node := .group [subject.node, template], simple := false, chain := false }
  | _ =>
    -- It may be less-than as well: what follows has to read as type arguments to the end.
    if typed && (← isTyped) then
      match ← attempt rules.appliedTypes with
      | none => return none
      | some types =>
        match ← token with
        | .mark "(" =>
          if calls then return some (subject.called (← rules.arguments) types false)
          return some { node := .group (subject.node :: types), simple := false, chain := false }
        | .mark "`" =>
          let template ← rules.template true
          return some { node := .group (subject.node :: template :: types), simple := false,
                        chain := false }
        | _ => return some { subject with node := .group (subject.node :: types), element := false }
    return none

/-- The suffixes behind an expression. -/
def Rules.suffixes (rules : Rules) (calls computed : Bool) (first : Subject) : Reading Subject :=
  repeating (fun (subject : Subject) => do
    match ← rules.suffix calls computed subject with
    | some subject => return .again subject
    | none => return .done subject) first

/-! ## Decorators -/

/-- What a decorator applies: any expression in parentheses, or a name with suffixes, none of them a
computed access. -/
def Rules.decoratorSubject (rules : Rules) : Reading Subject := do
  if ← tryMark "(" then
    let inner ← bracketed rules.expression
    mark ")"
    return { node := .wrapped .parentheses inner [], simple := false, chain := false }
  rules.suffixes true false
    { node := ← subject, simple := true, chain := false }
where
  /-- The name a decorator begins with; a typed dialect takes `this` for one. -/
  subject : Reading Node := do
    if (← isTyped) && (← isWord "this") then
      advance
      return .identifier "this"
    return .identifier (← referenceName)

/-- A decorator: what it applies, and arguments if they follow. -/
def decoratorRule (rules : Rules) : Reading Node := do
  mark "@"
  let subject ← rules.decoratorSubject
  let types ← if (← isTyped) && (← isMark "<") then some <$> rules.typeArguments else pure none
  if types.isSome || (← isMark "(") then
    return .decorator (subject.called (← rules.arguments) (types.getD []) false).node
  return .decorator subject.node

/-! ## Functions and arrows -/

/-- A function expression or declaration after `function`. -/
def Rules.functionAfterKeyword (rules : Rules) (isAsync nameRequired isExpression : Bool) :
    Reading Node := do
  let isGenerator ← tryMark "*"
  let named := match ← token with
    | .word _ _ => true
    | _ => false
  if named then
    let inner := fun (scope : Scope) =>
      if isExpression then { scope with inAsync := isAsync, inGenerator := isGenerator } else scope
    discard (within inner bindingName)
  require (named || !nameRequired)
  let function ← rules.functionTail [] isAsync isGenerator fun _ => true
  require (function.hasBody || !isExpression)
  return function.node

/-- The parameters of an arrow with their types, up to its return type. -/
structure ArrowHead where
  parameters : Parameters
  types : List Node := []
  isGeneric : Bool := false
  isAsync : Bool

/-- The parameters of an arrow in parentheses. -/
def Rules.arrowHead (rules : Rules) (isAsync : Bool) : Reading ArrowHead := do
  let isGeneric ← isMark "<"
  let types ← rules.typeParameters? true true
  let inner := fun (scope : Scope) => { scope with inAsync := scope.inAsync || isAsync }
  return { parameters := ← within inner (rules.parameters .arrow), types, isGeneric, isAsync }

/-- The parameter of an arrow without parentheses. -/
def arrowName (isAsync : Bool) : Reading ArrowHead := do
  let inner := fun (scope : Scope) =>
    { scope with inAsync := scope.inAsync || isAsync, inArrow := true }
  let node := Node.identifier (← within inner bindingName)
  return { parameters := { nodes := [node] }, isAsync }

/-- The body of an arrow. -/
def Rules.arrowBody (rules : Rules) (head : ArrowHead) : Reading (List Node) := do
  let outer ← scope
  within (·.ofFunction head.isAsync false) do
    if ← isMark "\x7b" then
      require (!outer.ambient)
      rules.functionBody head.parameters.simple
    else
      within (fun scope => { scope with allowIn := outer.allowIn, expectsColon := outer.expectsColon }) do
        return [← rules.value]

/-- The rest of an arrow behind its return type, from `=>` on. -/
def Rules.arrowFrom (rules : Rules) (head : ArrowHead) (type : TypeNode) : Reading Operand := do
  require !(← newline)
  mark "=>"
  let body ← rules.arrowBody head
  return { node := .group (head.parameters.nodes ++ type.parts ++ head.types ++ body), form := .arrow }

/-- An arrow whose return type stands between `?` and `:`. The colon in front of the type may also be the one
that is expected, so another one has to follow the arrow. -/
def Rules.doubtfulArrow (rules : Rules) (head : ArrowHead) : Reading Operand := do
  let type ← rules.returnAnnotation?
  let arrow ← rules.arrowFrom head type
  require (← isMark ":")
  return arrow

/-- The rest of an arrow behind a parameter list, if it is one. From the `=>` on there is no way back. -/
def Rules.arrowBehind? (rules : Rules) (head : ArrowHead) : Reading (Option Operand) := do
  if (← scope).expectsColon && (← isMark ":") && !head.isGeneric then
    return ← attempt (rules.doubtfulArrow head)
  let type ← attempt do
    let type ← within (fun scope => { scope with expectsColon := false }) rules.returnAnnotation?
    require (← isMark "=>")
    return type
  match type with
  | none => return none
  | some type => return some (← rules.arrowFrom head type)

/-- An arrow function, if one starts here. -/
def Rules.arrow? (rules : Rules) : Reading (Option Operand) := do
  let here ← cursor
  let next ← following
  let behind := Cursor.at (← scope).dialect.module false next.rest
  let isAsync := here.token == .word "async" false && !next.newline
  match here.token, next.token with
  | .word _ _, .mark "=>" =>
    if next.newline then return none
    return some (← rules.arrowFrom (← arrowName false) {})
  | .word _ _, .word _ _ =>
    -- `async` in front of a name; a line may end before the arrow.
    if !isAsync || behind.token != .mark "=>" then return none
    advance
    let head ← arrowName true
    advance
    let body ← rules.arrowBody head
    return some { node := .group (head.parameters.nodes ++ body), form := .arrow }
  | .word _ _, .mark "(" | .word _ _, .mark "<" =>
    -- Without an arrow behind the list `async` is a name that is called.
    if !isAsync then return none
    listed here (advance *> rules.arrowHead true)
  | .mark "(", _ => listed here (rules.arrowHead false)
  | .mark "<", _ =>
    if !(← isTyped) || next.token == .mark ">" then return none
    if (← ahead (rules.arrowHead false)).isNone then return none
    -- In markup what reads as an element is one, whatever else it may be.
    if (← scope).dialect.markup && (← ahead rules.element).isSome then return none
    listed here (rules.arrowHead false)
  | _, _ => return none
where
  /-- An arrow with a parameter list, if it is one. -/
  listed (here : Cursor) (head : Reading ArrowHead) : Reading (Option Operand) := do
    match ← attempt head with
    | none => return none
    | some head =>
      match ← rules.arrowBehind? head with
      | some arrow => return some arrow
      | none =>
        goBack here
        return none

/-! ## Literals that may be patterns -/

/-- An array literal. -/
def Rules.arrayLiteral (rules : Rules) : Reading Operand := do
  mark "["
  bracketed <| repeating (fun ((elements, target) : List Node × Bool) => do
    let finish := fun (elements : List Node) (target : Bool) =>
      Round.done { node := .array elements.reverse, target, element := target : Operand }
    if ← tryMark "]" then return finish elements target
    if ← tryMark "," then return .again (.hole :: elements, target)
    if ← tryMark "..." then
      let inner ← rules.assign
      let elements := .spread inner.node :: elements
      -- Behind a rest there is nothing in a pattern, and it has no default.
      if ← tryMark "," then return .again (elements, false)
      mark "]"
      return finish elements (target && inner.target && inner.element)
    let inner ← rules.assign
    let elements := inner.node :: elements
    if ← tryMark "," then return .again (elements, target && inner.element)
    mark "]"
    return finish elements (target && inner.element)) ([], true)

/-- An entry of an object literal: its node, whether it may be a part of a pattern, and whether it is
`a = 1`. -/
structure Entry where
  node : Node
  target : Bool := false
  pending : Bool := false

/-- Reads what belongs to a method of an object. -/
def ofMethod {α : Type} (p : Reading α) : Reading α :=
  within (fun scope => { scope with hasSuper := true }) p

/-- A method of an object literal. -/
def Rules.objectMethod (rules : Rules) (isAsync isGenerator : Bool) : Reading Entry := do
  let key ← rules.key
  require !key.isPrivate
  let function ← ofMethod (rules.functionTail [] isAsync isGenerator fun _ => true)
  return { node := .group (key.parts ++ [function.node]) }

/-- A function that reads or writes a property of an object literal, from its key on. -/
def Rules.objectAccessor (rules : Rules) (reads : Bool) : Reading Entry := do
  let key ← rules.key
  require !key.isPrivate
  discard (rules.typeParameters? false true)
  ofMethod do
    let parameters ← within (fun scope => { scope with inAsync := false, inGenerator := false })
      (rules.parameters .function)
    require (if reads then parameters.fitGetter else parameters.fitSetter)
    let type ← rules.returnAnnotation?
    let body ← within (·.ofOwnFunction false false) (rules.functionBody? parameters)
    return { node := .group (key.parts ++ type.parts ++ parameters.nodes ++ body.getD []) }

/-- A modifier in an object literal. It has no meaning there but is read. -/
def objectModifier : Reading Bool := do
  let next ← following
  let isFollowed := match next.token with
    | .word _ _ => true
    | .mark text => text == "["
    | _ => false
  if (← isTyped) && isFollowed then tryModifier ("readonly" :: accessModifiers) else return false

/-- One entry of an object literal. -/
def Rules.objectEntry (rules : Rules) : Reading Entry := do
  if ← tryMark "..." then
    let inner ← rules.assign
    return { node := .spread inner.node, target := inner.target && inner.element && (← isMark "\x7d") }
  if ← tryMark "*" then return ← rules.objectMethod false true
  let modified ← objectModifier
  let here ← cursor
  let key ← rules.key
  require !key.isPrivate
  if (← isMark "(") || (← isMark "<") then
    goBack here
    return ← rules.objectMethod false false
  if ← tryMark ":" then
    let value ← rules.assign
    return { node := .property key.name key.parts value.node, target := value.element }
  -- An entry without a value stands for a name, which may be any word.
  let name ← if key.isWord then pure (key.name.getD "") else fail
  if ← tryMark "=" then
    return { node := .group [.identifier name, ← rules.value], target := true, pending := true }
  if (← isMark ",") || (← isMark "\x7d") then
    return { node := .group [.identifier name], target := true }
  require !modified
  match name with
  | "get" => rules.objectAccessor true
  | "set" => rules.objectAccessor false
  | "async" => do
    let isGenerator ← tryMark "*"
    rules.objectMethod true isGenerator
  | _ => fail

/-- An object literal. -/
def Rules.objectLiteral (rules : Rules) : Reading Operand := do
  mark "\x7b"
  let entries ← bracketed <| listUntil "\x7d" "," rules.objectEntry
  let target := entries.all Entry.target
  return {
    node := .object (entries.map Entry.node), target, element := target
    pending := entries.any Entry.pending }

/-! ## Primary expressions -/

/-- `new` with what it makes. -/
def Rules.newExpression (rules : Rules) (primary : Reading Subject) : Reading Subject := do
  let rec callee : Nat → Reading Subject
    | 0 => fail
    | left + 1 => do
      word "new"
      if ← tryMark "." then
        require (← scope).hasTarget
        word "target"
        return { node := .group [], simple := false, chain := false }
      let inner ← if ← isWord "new" then callee left else do
        let called := (← following).token == .mark "("
        require !(called && ((← isWord "import") || (← isWord "super")))
        primary
      let inner ← rules.suffixes false true inner
      let arguments ← if ← isMark "(" then rules.arguments else pure []
      return { node := .group (inner.node :: arguments), simple := false, chain := false }
  callee (← scope).bound

/-- What stands between parentheses: expressions with commas between them and maybe one at the end. A literal
`{ a = 1 }` is none of them. -/
def Rules.enclosed (rules : Rules) : Reading Operand := do
  let item : Reading Operand := do
    let operand ← rules.assign
    require !operand.pending
    return operand
  let first ← item
  if !(← tryMark ",") then return first
  let others ← listBefore ")" "," item
  return if others.isEmpty then first else .plain (.group (first.node :: others.map Operand.node))

/-- An expression without suffixes, `new` and markup apart. -/
def Rules.primary (rules : Rules) : Reading Subject := do
  let here ← cursor
  let next ← following
  let plain := fun (node : Node) => ({ node, simple := false, chain := false } : Subject)
  match here.token with
  | .text value => advance; return plain (.str value)
  | .number leadingZero =>
    -- Strict code has no decimal numbers with a zero in front.
    require !(leadingZero && (← scope).strict)
    advance
    return plain (.group [])
  | .bigint => advance; return plain (.group [])
  | .privateName _ => advance; return plain (.group [])
  | .mark "`" => return plain (← rules.template false)
  | .mark "/" | .mark "/=" =>
    match regexp false (here.start.drop 1) with
    | some rest => resume rest; return plain (.group [])
    | none => fail
  | .mark "(" =>
    advance
    let inner ← bracketed rules.enclosed
    mark ")"
    return { node := .wrapped .parentheses inner.node [], simple := inner.simple, chain := false }
  | .mark "@" =>
    let decorators ← rules.decorators
    if ← isWord "class" then return plain (← rules.classFrom false decorators false)
    -- In front of a name decorators are read and dropped.
    return { node := .identifier (← referenceName), simple := true, chain := false }
  | .word "this" false => advance; return plain .thisValue
  | .word "null" false | .word "true" false | .word "false" false =>
    advance
    return plain (.group [])
  | .word "function" false =>
    advance
    return plain (← rules.functionAfterKeyword false false true)
  | .word "class" false => return plain (← rules.classFrom false [] false)
  | .word "super" false =>
    advance
    -- A typed dialect leaves it open where `super` has properties.
    let hasProperties := (← scope).hasSuper || (← isTyped)
    match ← token with
    | .mark "(" => return plain (.group [])
    | .mark "[" =>
      require hasProperties
      return plain (.group [])
    | .mark "." =>
      require (hasProperties && !((← following).token matches .privateName _))
      return plain (.group [])
    | _ => fail
  | .word "import" false =>
    advance
    if ← tryMark "." then
      if ← tryWord "meta" then return plain (.group [])
      if !(← tryWord "defer") then word "source"
    require (← isMark "(")
    return plain (.group [])
  | .word "async" false =>
    if !next.newline && next.token == .word "function" false then
      advance
      advance
      return plain (← rules.functionAfterKeyword true false true)
    advance
    return { node := .identifier "async", simple := true, chain := false }
  | .word _ _ =>
    let name ← referenceName
    return { node := .identifier name, simple := mayBeBound (← scope) name, chain := false }
  | _ => fail

/-- A primary expression with its suffixes; array and object literals without suffixes may still be
patterns, and elements have no suffixes. -/
def leftHandRule (rules : Rules) : Reading Operand := do
  match ← token with
  | .mark "[" => literal rules (← rules.arrayLiteral)
  | .mark "\x7b" => literal rules (← rules.objectLiteral)
  | .mark "<" =>
    require (← scope).dialect.markup
    let element ← rules.element
    advance
    return .plain element
  | .word "new" false =>
    return (← rules.suffixes true true (← rules.newExpression (anyPrimary rules))).operand
  | _ => return (← rules.suffixes true true (← rules.primary)).operand
where
  /-- A literal, or the expression that its suffixes make of it. -/
  literal (rules : Rules) (literal : Operand) : Reading Operand := do
    match ← rules.suffix true true { node := literal.node, simple := false, chain := false } with
    | none => return literal
    | some subject => return (← rules.suffixes true true subject).operand
  /-- A primary expression, literals included. -/
  anyPrimary (rules : Rules) : Reading Subject := do
    let plain := fun (operand : Operand) =>
      ({ node := operand.node, simple := false, chain := false } : Subject)
    match ← token with
    | .mark "[" => return plain (← rules.arrayLiteral)
    | .mark "\x7b" => return plain (← rules.objectLiteral)
    | _ => rules.primary

/-! ## Operators -/

/-- A postfix `++` or `--` on the same line. -/
def Rules.postfixed (rules : Rules) : Reading Operand := do
  let operand ← leftHandRule rules
  if !(← newline) && ((← isMark "++") || (← isMark "--")) then
    require operand.simple
    advance
    return .plain operand.node
  return operand

/-- `await` with its operand, or the name `await`. Outside functions the operand starts on the same line. -/
def Rules.awaited (rules : Rules) : Reading Operand := do
  let scope ← scope
  let next ← following
  let alone := match next.token with
    | .mark text => [")", "]", ";", ",", "=>", ":", "=", "."].contains text
    | .eof => true
    | _ => false
  if scope.inAsync || scope.dialect.module then
    require (!scope.inParameters && (scope.inAsync || (!scope.inFunction && !next.newline)))
    advance
    let inner ← rules.unary
    return { node := .group [inner.node], form := .unary }
  require alone
  rules.postfixed

/-- An operand with its leading operators. -/
def unaryRule (rules : Rules) : Reading Operand := do
  let here ← cursor
  match here.token with
  | .mark "++" | .mark "--" =>
    advance
    let inner ← rules.unary
    require inner.simple
    return .plain inner.node
  | .mark "!" | .mark "~" | .mark "+" | .mark "-" => operator false
  | .word "typeof" false | .word "void" false => operator false
  | .word "delete" false => operator true
  | .word "await" false => rules.awaited
  | .mark "<" | .mark "<<" =>
    if (← isTyped) && !(← scope).dialect.markup then assertion
    else rules.postfixed
  | _ => rules.postfixed
where
  /-- A leading operator. Untyped strict code may not delete a name. -/
  operator (deletes : Bool) : Reading Operand := do
    advance
    let inner ← rules.unary
    let scope ← scope
    require !(deletes && scope.strict && !scope.dialect.typed &&
      inner.node.unwrap matches .identifier _)
    return { node := .group [inner.node], form := .unary }
  /-- A type in angles in front of the operand it is asserted of, which may be an arrow. -/
  assertion : Reading Operand := do
    openAngle
    let type ← if ← tryWord "const" then pure {} else rules.anyType
    closeAngle
    let inner ← match ← rules.arrow? with
      | some arrow => pure arrow
      | none => rules.unary
    return { node := .group (inner.node :: type.parts), simple := inner.simple, target := inner.simple
             form := if inner.form == .arrow then .arrow else .plain }

/-- The operator at a token and its precedence. -/
def operatorAt (here : Cursor) : Option (String × Nat × List Char) :=
  let found := fun (text : String) (rest : List Char) =>
    match text with
    | "??" | "||" => some (text, 1, rest)
    | "&&" => some (text, 2, rest)
    | "|" => some (text, 3, rest)
    | "^" => some (text, 4, rest)
    | "&" => some (text, 5, rest)
    | "==" | "!=" | "===" | "!==" => some (text, 6, rest)
    | "<" | ">" | "<=" | ">=" | "in" | "instanceof" => some (text, 7, rest)
    | "<<" | ">>" | ">>>" => some (text, 8, rest)
    | "+" | "-" => some (text, 9, rest)
    | "*" | "/" | "%" => some (text, 10, rest)
    | "**" => some (text, 11, rest)
    | _ => none
  match here.token with
  | .mark ">" =>
    let (text, rest) := angleOperator here.start
    found text rest
  | .mark text => found text here.rest
  | .word "in" false => found "in" here.rest
  | .word "instanceof" false => found "instanceof" here.rest
  | _ => none

/-- Operators that bind tighter than `least`, with `left` as the first operand. `as` and
`satisfies` bind like a comparison. -/
def climbRule (rules : Rules) (left : Operand) (least : Nat) : Reading Operand :=
  repeating (fun (left : Operand) => do
    -- The body of an arrow reaches as far as it can, so no operator is left for the arrow.
    if left.form == .arrow then return .done left
    let here ← cursor
    if (← isTyped) && least < 7 && !here.newline then
      if here.token == .word "as" false then
        advance
        if ← tryWord "const" then return .again (wrap left .constCast {})
        return .again (wrap left .typeCast (← rules.anyType))
      if here.token == .word "satisfies" false then
        advance
        return .again (wrap left .satisfies (← rules.anyType))
    match operatorAt here with
    | none => return .done left
    | some (text, precedence, rest) =>
      if precedence ≤ least then return .done left
      if text == "in" && !(← scope).allowIn then return .done left
      -- Whether `-a ** b` negates `a` or the power is not decided, so it is refused.
      require !(text == "**" && left.form == .unary)
      resume rest
      let first ← rules.unary
      -- Operators of one precedence group to the left, `**` alone to the right.
      let right ← rules.climb first (if text == "**" then precedence - 1 else precedence)
      require (right.form != .arrow)
      let logical := text == "||" || text == "&&"
      -- `??` has no precedence over `||` and `&&`: they are not mixed without parentheses.
      require !(text == "??" && (left.form == .logical || right.form == .logical))
      require !(logical && (left.form == .coalescing || right.form == .coalescing))
      let op : BinaryOp := if text == "+" then .add else if text == "||" then .or else .other
      let form : Form := if logical then .logical else if text == "??" then .coalescing else .plain
      return .again { node := .binary op left.node right.node, form }) left
where
  /-- The left operand in a wrapper, with the expressions that the wrapper's type holds. -/
  wrap (left : Operand) (wrapper : Wrapper) (type : TypeNode) : Operand :=
    { node := .wrapped wrapper left.node type.parts, simple := left.simple, target := left.simple
      element := left.simple && wrapper != .satisfies }

/-- A conditional, or anything that binds tighter. -/
def Rules.conditional (rules : Rules) : Reading Operand := do
  let first ← rules.unary
  let test ← rules.climb first 0
  if test.form != .arrow && (← isMark "?") then
    advance
    let yes ← within (fun scope => { scope with allowIn := true, expectsColon := true }) rules.value
    mark ":"
    let no ← within (fun scope => { scope with expectsColon := false }) rules.value
    return .plain (.conditional test.node yes no)
  return test

/-- `yield` with what it yields. -/
def Rules.yielded (rules : Rules) : Reading Operand := do
  require !(← scope).inParameters
  word "yield"
  let here ← cursor
  if !here.newline && here.token == .mark "*" then
    advance
    return .plain (.group [← rules.value])
  let ends := here.newline || match here.token with
    | .mark text => [")", "]", "\x7d", ",", ";", ":"].contains text
    | .word "in" _ | .word "of" _ => true
    | .eof => true
    | _ => false
  if ends then return .plain (.group [])
  return .plain (.group [← rules.value])

/-- The assignment operators that update in place. -/
def updates : List String :=
  ["+=", "-=", "*=", "/=", "%=", "**=", "<<=", "&=", "|=", "^=", "&&=", "||=", "??="]

/-- An assignment, an arrow, or anything that binds tighter. -/
def assignRule (rules : Rules) : Reading Operand := do
  if (← scope).inGenerator && (← isWord "yield") then return ← rules.yielded
  match ← rules.arrow? with
  | some arrow => return arrow
  | none =>
    let left ← rules.conditional
    if left.form == .arrow then return left
    let here ← cursor
    match here.token with
    | .mark "=" =>
      require left.target
      advance
      let right ← rules.value
      return { node := .group [left.node, right], element := true }
    | .mark ">" =>
      let (text, rest) := angleOperator here.start
      if text == ">>=" || text == ">>>=" then
        require left.simple
        resume rest
        return .plain (.group [left.node, ← rules.value])
      return left
    | .mark text =>
      if updates.contains text then
        require left.simple
        advance
        return .plain (.group [left.node, ← rules.value])
      return left
    | _ => return left

end MessageKeys.Script
