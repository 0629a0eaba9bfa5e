import MessageKeys.Script.Grammar.Expression
/-!
# Script.Grammar.Statement — statements and declarations

A statement is the group of its parts in visiting order. What only types need (interfaces, type
aliases, overloads) leaves at most the expressions in it. Loops and switches tell the statements in
them which jumps they may make.
-/
namespace MessageKeys.Script
open Reading

/-- An expression in parentheses. -/
def Rules.condition (rules : Rules) : Reading Node := do
  mark "("
  let node ← bracketed rules.expression
  mark ")"
  return node

/-! ## Variables -/

/-- A declared variable: what stands behind its pattern. -/
structure Declarator where
  node : Node
  isName : Bool
  hasType : Bool
  hasValue : Bool

/-- The variables of a statement. -/
def Rules.declarators (rules : Rules) : Reading (List Declarator) :=
  separatedBy "," do
    let pattern ← rules.pattern
    if ← isTyped then
      if (← isMark "!") && !(← newline) then advance
    let hasType ← isMark ":"
    let type ← rules.annotation?
    let value ← if ← tryMark "=" then pure [← rules.value] else pure []
    return { node := .group (pattern :: type.parts ++ value), isName := pattern matches .identifier _
             hasType, hasValue := !value.isEmpty }

/-- The words that start a variable statement. -/
inductive VariableKind where
  | var
  | let
  | const
  | using
  | awaitUsing
deriving DecidableEq

/-- The words that start a variable statement here. In the head of a loop `of` follows what is looped over. -/
def startsVariables (inHead : Bool) : Reading (Option VariableKind) := do
  let next ← following
  let typed ← isTyped
  let isName := fun (here : Cursor) => match here.token with
    | .word name _ => !here.newline && !reservedWords.contains name && !(inHead && name == "of")
    | _ => false
  match ← token with
  | .word "var" false => return some .var
  | .word "const" false =>
    return if next.token == .word "enum" false && typed then none else some .const
  | .word "let" false =>
    return match next.token with
      | .word name _ => if reservedWords.contains name then none else some .let
      | .mark text => if text == "[" || text == "\x7b" then some .let else none
      | _ => none
  | .word "using" false => return if typed && isName next then some .using else none
  | .word "await" false =>
    let behind := Cursor.at true false next.rest
    return if typed && next.token == .word "using" false && isName behind then some .awaitUsing else none
  | _ => return none

/-- The variables after the words that start the statement. -/
def Rules.variables (rules : Rules) (kind : VariableKind) : Reading (List Declarator) := do
  advance
  if kind == .awaitUsing then advance
  rules.declarators

/-- A variable statement. Where something is run, a constant and a pattern have a value. -/
def Rules.variableStatement (rules : Rules) (kind : VariableKind) : Reading Node := do
  let declared ← rules.variables kind
  let mayLack := kind == .var || kind == .let
  require ((← scope).ambient || declared.all fun d => d.hasValue || (d.isName && mayLack))
  endStatement
  return .group (declared.map Declarator.node)

/-! ## Substatements -/

/-- A statement where only one may stand: no declaration of a lexical name or a class, and no function in
strict code. -/
def Rules.substatement (rules : Rules) : Reading Node := do
  let kind ← startsVariables false
  require (kind == none || kind == some .var)
  match ← token with
  | .word "class" false | .mark "@" => fail
  | .word "function" false | .word "let" false => require (!(← scope).strict)
  | _ => pure ()
  within (fun scope => { scope with items := false }) rules.statement

/-- The body of a loop. -/
def Rules.loopBody (rules : Rules) : Reading Node :=
  within (fun scope => { scope with inLoop := true }) rules.substatement

/-! ## Loops -/

/-- The scope in the head of a loop, where `in` stands between a name and what is looped over. -/
def Scope.ofHead (scope : Scope) : Scope := { scope with allowIn := false, expectsColon := false }

/-- A loop over something, from `of` or `in` on. -/
def Rules.loopOver (rules : Rules) (left : Node) : Reading Node := do
  let right ← if ← tryWord "of" then bracketed rules.value else do
    word "in"
    bracketed rules.expression
  mark ")"
  return .group [left, right, ← rules.loopBody]

/-- A loop with a test and an update, from the first `;` on. Behind a test the second one may be missing. -/
def Rules.countingLoop (rules : Rules) (init : List Node) : Reading Node := do
  mark ";"
  let test ← if ← isMark ";" then pure [] else pure [← bracketed rules.expression]
  if test.isEmpty then mark ";" else discard (tryMark ";")
  let update ← if ← isMark ")" then pure [] else pure [← bracketed rules.expression]
  mark ")"
  return .group (init ++ test ++ update ++ [← rules.loopBody])

/-- A loop whose head declares variables. -/
def Rules.declaringLoop (rules : Rules) (kind : VariableKind) (awaits : Bool) : Reading Node := do
  let declared ← within Scope.ofHead (rules.variables kind)
  let isUsing := kind == .using || kind == .awaitUsing
  if (← isWord "of") || (← isWord "in") then
    require !((awaits || isUsing) && (← isWord "in"))
    match declared with
    | [declarator] =>
      require !(declarator.hasValue || declarator.hasType)
      rules.loopOver (.group [declarator.node])
    | _ => fail
  else
    require !(awaits || isUsing)
    require (declared.all fun d => d.hasValue || d.isName)
    rules.countingLoop (declared.map Declarator.node)

/-- A loop whose head begins with an expression. Over names a pattern is not looped. -/
def Rules.expressionLoop (rules : Rules) (awaits : Bool) : Reading Node := do
  let startsAsync := (← isWord "async") && (← following).token == .word "of" false
  let first ← within Scope.ofHead rules.assign
  if ← isWord "of" then
    require (first.target && !(startsAsync && !awaits))
    return ← rules.loopOver first.node
  require !awaits
  if ← isWord "in" then
    require first.simple
    return ← rules.loopOver first.node
  let others ← repeating (fun (others : List Node) => do
    if ← tryMark "," then return .again ((← within Scope.ofHead rules.value) :: others)
    return .done others.reverse) []
  rules.countingLoop (first.node :: others)

/-- A `for` statement of any kind. -/
def Rules.forStatement (rules : Rules) : Reading Node := do
  word "for"
  let awaits ← tryWord "await"
  mark "("
  if ← isMark ";" then
    require (!awaits)
    return ← rules.countingLoop []
  match ← startsVariables true with
  | some kind => rules.declaringLoop kind awaits
  | none => rules.expressionLoop awaits

/-! ## Statements with blocks -/

/-- The cases of a switch, of which at most one is the default. -/
def Rules.switchStatement (rules : Rules) : Reading Node := do
  word "switch"
  let subject ← rules.condition
  mark "\x7b"
  let cases ← within (fun scope => { scope with inSwitch := true, items := false }) <|
    repeating (fun ((found, hasDefault) : List Node × Bool) => do
      if ← tryMark "\x7d" then return .done found.reverse
      let isDefault ← tryWord "default"
      require !(isDefault && hasDefault)
      let test ← if isDefault then pure [] else do
        word "case"
        pure [← bracketed rules.expression]
      mark ":"
      let body ← repeating (fun (body : List Node) => do
        if (← isWord "case") || (← isWord "default") || (← isMark "\x7d") then
          return .done body.reverse
        return .again ((← rules.statement) :: body)) []
      return .again (.group (test ++ body) :: found, hasDefault || isDefault)) ([], false)
  return .group (subject :: cases)

/-- A `try` with at least one of its two followers. -/
def Rules.tryStatement (rules : Rules) : Reading Node := do
  word "try"
  let body ← rules.block
  let hasCatch ← tryWord "catch"
  let handler ← if hasCatch then do
      let parameter ← if ← tryMark "(" then do
          let pattern ← rules.pattern
          let type ← rules.annotation?
          mark ")"
          pure (pattern :: type.parts)
        else pure []
      pure (parameter ++ (← rules.block))
    else pure []
  let hasFinally ← tryWord "finally"
  let finalizer ← if hasFinally then rules.block else pure []
  require (hasCatch || hasFinally)
  return .group (body ++ handler ++ finalizer)

/-- A jump to the end of a statement around this one, or to the next round of a loop. -/
def jumpStatement (isContinue : Bool) : Reading Node := do
  advance
  let scope ← scope
  require !(isContinue && !scope.inLoop)
  if !(← canEndStatement) then
    let name ← referenceName
    require (scope.labels.contains name)
  else require (scope.inLoop || scope.inSwitch)
  endStatement
  return .group []

/-! ## Typed declarations -/

/-- An interface after its keyword. -/
def Rules.interfaceDeclaration (rules : Rules) : Reading Node := do
  word "interface"
  require (isDeclaredType (← anyWord))
  let typeParameters ← rules.typeParameters? true false
  let bases ← if ← tryWord "extends" then rules.heritage else pure []
  let members ← rules.objectType
  return .group (typeParameters ++ bases ++ members)

/-- A type alias. -/
def Rules.aliasDeclaration (rules : Rules) : Reading Node := do
  word "type"
  discard anyWord
  let typeParameters ← rules.typeParameters? true false
  mark "="
  let type ← rules.anyType
  endStatement
  return .group (typeParameters ++ type.parts)

/-- The key of a member of an enumeration: a name, or a text, also between brackets. -/
def enumKey : Reading Unit := do
  let isComputed ← tryMark "["
  match ← token with
  | .text _ => advance
  | .word _ _ =>
    require !isComputed
    advance
  | _ =>
    require isComputed
    discard (templateParts (fail : Reading Node))
  if isComputed then mark "]"

/-- An enumeration. -/
def Rules.enumDeclaration (rules : Rules) : Reading Node := do
  word "enum"
  discard anyWord
  mark "\x7b"
  let members ← listUntil "\x7d" "," do
    enumKey
    let value ← if ← tryMark "=" then pure [← bracketed rules.value] else pure []
    return Node.group value
  return .group members

/-- The items of a namespace between braces. -/
def Rules.itemBlock (rules : Rules) : Reading (List Node) := do
  mark "\x7b"
  within (fun scope => { scope with items := true })
    (manyUntil "\x7d" do return [← rules.statement])

/-- A namespace, or a module named by a string, from its keyword on. -/
def Rules.namespaceDeclaration (rules : Rules) : Reading Node := do
  advance
  match ← token with
  | .text _ =>
    advance
    if ← isMark "\x7b" then return .group (← rules.itemBlock)
    endStatement
    return .group []
  | _ =>
    discard entityName
    return .group (← rules.itemBlock)

/-! ## Imports and exports -/

/-- A name in an import or export clause: any word or a string. -/
structure ClauseName where
  name : String
  isText : Bool := false

def clauseName : Reading ClauseName := do
  match ← token with
  | .text value => advance; return { name := value.getD "\uFFFD", isText := true }
  | _ => return { name := ← anyWord }

/-- One name of an import or export clause: what it is called on the far side, the name after `as`, and whether
it is marked as a type. -/
structure ClauseEntry where
  far : ClauseName
  near : Option String := none
  isType : Bool := false

/-- Reads an entry of a clause, with the names that may stand after `as`. A leading `type` is a modifier unless
the entry gives it another meaning. -/
def clauseEntry (nearName : Reading String) : Reading ClauseEntry := do
  let ends : Reading Bool := do return (← isMark ",") || (← isMark "\x7d")
  let named (far : ClauseName) (isType : Bool) : Reading ClauseEntry := do
    let near ← if ← tryWord "as" then some <$> nearName else pure none
    return { far, near, isType }
  let far ← clauseName
  if far.isText || far.name != "type" || !(← isTyped) || (← ends) then return ← named far false
  if !(← isWord "as") then return ← named { name := ← anyWord } true
  advance
  if ← ends then return { far := { name := "as" }, isType := true }
  if !(← isWord "as") then return { far, near := some (← nearName) }
  advance
  if ← ends then return { far, near := some "as" }
  return { far := { name := "as" }, near := some (← nearName), isType := true }

/-- The string after `from`, with its attributes, which start on the same line. -/
def Rules.moduleText (rules : Rules) : Reading Unit := do
  match ← token with
  | .text _ => advance
  | _ => fail
  if !(← newline) && ((← isWord "with") || (← isWord "assert")) then
    advance
    discard rules.objectLiteral

/-- What `import name =` and what follows stands for: a module, or a name that is already there. -/
def aliasTarget : Reading Unit := do
  mark "="
  if (← isWord "require") && (← following).token == .mark "(" then
    advance
    advance
    match ← token with
    | .text _ => advance
    | _ => fail
    mark ")"
  else
    discard anyWord
    repeating (fun (_ : Unit) => do
      if ← tryMark "." then
        discard plainName
        return .again ()
      return .done ()) ()
  endStatement

/-- The word behind `import` tells how something is imported and is not what is imported: a name may be called
so too. -/
def importModifier : Reading (Option String) := do
  let next ← following
  let behind := Cursor.at true false next.rest
  let namesFollow := match next.token with
    | .word "from" false => behind.token == .word "from" false
    | .word _ _ => true
    | _ => false
  let listFollows := next.token == .mark "\x7b" || next.token == .mark "*"
  match ← token with
  | .word "type" false => return if (← isTyped) && (namesFollow || listFollows) then some "type" else none
  | .word "source" false => return if namesFollow then some "source" else none
  | .word "defer" false => return if next.token == .mark "*" then some "defer" else none
  | _ => return none

/-- The named imports in braces; those of types alone are not marked as types once more. -/
def namedImports (typesOnly : Bool) : Reading (List NamedImport) := do
  mark "\x7b"
  listUntil "\x7d" "," do
    let entry ← clauseEntry bindingName
    require !(typesOnly && entry.isType)
    require !(entry.far.isText && entry.near.isNone)
    return { imported := entry.far.name, bound := entry.near.getD entry.far.name }

/-- What is imported besides a default: everything, under one name, or named imports. -/
def importedList (typesOnly : Bool) : Reading (List NamedImport) := do
  if ← tryMark "*" then
    word "as"
    discard bindingName
    return []
  namedImports typesOnly

/-- An import; gives the named imports. -/
def Rules.importDeclaration (rules : Rules) : Reading (List NamedImport) := do
  word "import"
  if (← token) matches .text _ then
    rules.moduleText
    discard (tryMark ";")
    return []
  let modifier ← importModifier
  if modifier.isSome then advance
  let isNamed := (← token) matches .word _ _
  if isNamed then
    require !(← isWord "this")
    discard bindingName
    if (← isTyped) && (← isMark "=") then
      aliasTarget
      return []
  let listFollows ← if isNamed then tryMark "," else pure true
  let names ← if listFollows && !(← isWord "from") then importedList (modifier == some "type") else pure []
  word "from"
  rules.moduleText
  endStatement
  return names

/-- An export of a list of names, or of everything from elsewhere. What is exported from here is no reserved
word and no text. -/
def Rules.exportClause (rules : Rules) (typesOnly : Bool) : Reading Node := do
  if ← tryMark "*" then
    if ← tryWord "as" then discard clauseName
    word "from"
    rules.moduleText
    endStatement
    return .group []
  mark "\x7b"
  let entries ← listUntil "\x7d" "," (clauseEntry do return (← clauseName).name)
  require !(typesOnly && entries.any ClauseEntry.isType)
  if ← tryWord "from" then
    rules.moduleText
    endStatement
  else
    require (entries.all fun entry => !entry.far.isText && !reservedWords.contains entry.far.name)
    discard (tryMark ";")
  return .group []

/-- A class statement, abstract or not. -/
def Rules.classStatement (rules : Rules) (decorators : List Node) (nameRequired : Bool) :
    Reading Node := do
  let isAbstract ← if ← isTyped then tryWord "abstract" else pure false
  rules.classFrom isAbstract decorators nameRequired

/-- A class starts here, possibly behind `abstract`. -/
def startsClass : Reading Bool := do
  let next ← following
  if ← isWord "class" then return true
  return (← isTyped) && (← isWord "abstract") && next.token == .word "class" false

/-- A function statement after `async`, if it is there. -/
def Rules.functionStatement (rules : Rules) (nameRequired : Bool) : Reading Node := do
  let isAsync ← tryWord "async"
  word "function"
  rules.functionAfterKeyword isAsync nameRequired false

/-- A function starts here, possibly behind `async`. -/
def startsFunction : Reading Bool := do
  let next ← following
  if ← isWord "function" then return true
  return (← isWord "async") && next.token == .word "function" false && !next.newline

/-- Words that start a declaration behind `declare`. -/
def declaredWords : List String :=
  ["function", "class", "abstract", "const", "let", "var", "enum", "namespace", "module", "global", "type",
    "interface"]

/-- A declaration that only typed dialects have, if one starts here, `declare` apart. Without a word in front of
it that makes it a declaration anyway, its name starts on the same line. -/
def Rules.namedDeclaration? (rules : Rules) (marked : Bool) : Reading (Option Node) := do
  let next ← following
  let sameLine := marked || !next.newline
  let isNamed := next.token matches .word _ _
  let scope ← scope
  let namesModule := match next.token with
    | .word name _ =>
      let isOperator := !next.newline && ["as", "satisfies"].contains name
      marked || ((scope.ambient || isNameHere scope name) && !isOperator)
    | _ => false
  match ← token with
  | .word "interface" false =>
    if isNamed && sameLine then some <$> rules.interfaceDeclaration else return none
  | .word "type" false =>
    if isNamed && sameLine then some <$> rules.aliasDeclaration else return none
  | .word "namespace" false =>
    if namesModule then some <$> rules.namespaceDeclaration else return none
  | .word "module" false =>
    let isModule := namesModule || next.token matches .text _
    if isModule && sameLine then some <$> rules.namespaceDeclaration else return none
  | .word "enum" false =>
    require sameLine
    some <$> rules.enumDeclaration
  | .word "const" false =>
    if next.token == .word "enum" false then
      advance
      some <$> rules.enumDeclaration
    else return none
  | .word "abstract" false =>
    if ← startsClass then some <$> rules.classStatement [] true else return none
  | .word "global" false =>
    if next.token == .mark "\x7b" then
      advance
      return some (.group (← rules.itemBlock))
    return none
  | _ => return none

/-- A declaration behind `declare`, where nothing is run. -/
def Rules.ambientDeclaration (rules : Rules) : Reading Node :=
  within (fun scope => { scope with ambient := true, items := false }) do
    match ← rules.namedDeclaration? true with
    | some node => return node
    | none =>
      require ((← startsClass) || (← startsFunction) || (← startsVariables false).isSome)
      rules.statement

/-- A declaration that only typed dialects have, if one starts here. -/
def Rules.typedDeclaration? (rules : Rules) (marked : Bool) : Reading (Option Node) := do
  let declares := match (← following).token with
    | .word name false => declaredWords.contains name
    | _ => false
  if declares && (← isWord "declare") then
    advance
    return some (← rules.ambientDeclaration)
  rules.namedDeclaration? marked

/-- What follows `export default`. -/
def Rules.defaultExport (rules : Rules) (decorators : List Node) : Reading Node := do
  let inner ← rules.decorators
  require (decorators.isEmpty || inner.isEmpty)
  let next ← following
  if ← startsClass then return ← rules.classStatement (decorators ++ inner) false
  if ← startsFunction then return ← rules.functionStatement false
  if (← isTyped) && (← isWord "interface") && next.token matches .word _ _ then
    return ← rules.interfaceDeclaration
  let node ← rules.value
  endStatement
  return node

/-- An export after its decorators, which stand in front of `export` or behind it. -/
def Rules.exportDeclaration (rules : Rules) (decorators : List Node) : Reading Node := do
  word "export"
  let next ← following
  let typed ← isTyped
  match ← token with
  | .word "default" false => advance; rules.defaultExport decorators
  | .mark "\x7b" | .mark "*" => rules.exportClause false
  | .mark "=" =>
    require typed
    advance
    let node ← rules.expression
    endStatement
    return node
  | .mark "@" =>
    let inner ← rules.decorators
    require (decorators.isEmpty && !(← isWord "abstract"))
    declaration inner
  | .word "import" false =>
    require typed
    advance
    if (← importModifier) == some "type" then advance
    discard bindingName
    aliasTarget
    return .group []
  | .word "as" false =>
    require typed
    advance
    word "namespace"
    discard bindingName
    endStatement
    return .group []
  | .word "type" false =>
    if typed && (next.token == .mark "\x7b" || next.token == .mark "*") then
      advance
      rules.exportClause true
    else declaration decorators
  | _ => declaration decorators
where
  /-- A declaration behind `export`. -/
  declaration (decorators : List Node) : Reading Node := do
    if ← startsClass then return ← rules.classStatement decorators true
    if ← startsFunction then return ← rules.functionStatement true
    match ← startsVariables false with
    | some .var | some .let | some .const => rules.statement
    | _ =>
      require ((← isTyped) && !(← isWord "global"))
      let isAsync := (← following).token == .word "async" false
      if (← isWord "declare") && isAsync then
        advance
        within (fun scope => { scope with ambient := true }) (rules.functionStatement true)
      else
        match ← rules.typedDeclaration? true with
        | some node => return node
        | none => fail

/-! ## The statement rule -/

/-- A statement that is an expression, or a labelled statement. -/
def Rules.expressionStatement (rules : Rules) : Reading Node := do
  let next ← following
  let isLabel := (← token) matches .word _ _ && next.token == .mark ":"
  if isLabel then
    let name ← referenceName
    advance
    require !((← scope).labels.contains name)
    within (fun scope => { scope with labels := name :: scope.labels }) rules.substatement
  else
    let node ← rules.expression
    endStatement
    return node

/-- A statement, a declaration, or where the scope allows it an import or export. -/
def statementRule (rules : Rules) : Reading Node := do
  let here ← cursor
  let next ← following
  let sc ← scope
  match here.token with
  | .mark "\x7b" => return .group (← rules.block)
  | .mark ";" => advance; return .group []
  | .mark "@" =>
    let decorators ← rules.decorators
    if ← startsClass then rules.classStatement decorators true
    else if sc.items && (← isWord "export") then
      -- Decorators in front of `export` belong to the typed dialect.
      require sc.dialect.typed
      rules.exportDeclaration decorators
    else rules.statement
  | .word word false =>
    match ← startsVariables false with
    | some kind => rules.variableStatement kind
    | none =>
      match word with
      | "function" => rules.functionStatement true
      | "async" => if ← startsFunction then rules.functionStatement true else rules.expressionStatement
      | "class" => rules.classStatement [] true
      | "if" =>
        advance
        let test ← rules.condition
        let yes ← rules.substatement
        let no ← if ← tryWord "else" then pure [← rules.substatement] else pure []
        return .group (test :: yes :: no)
      | "for" => rules.forStatement
      | "while" =>
        advance
        let test ← rules.condition
        return .group [test, ← rules.loopBody]
      | "do" =>
        advance
        let body ← rules.loopBody
        Reading.word "while"
        let test ← rules.condition
        discard (tryMark ";")
        return .group [test, body]
      | "switch" => rules.switchStatement
      | "try" => rules.tryStatement
      | "throw" =>
        advance
        -- A line end would end the statement before it has anything to throw.
        require !(← newline)
        let node ← rules.expression
        endStatement
        return node
      | "return" =>
        require sc.inFunction
        advance
        if ← canEndStatement then
          endStatement
          return .group []
        let node ← rules.expression
        endStatement
        return node
      | "break" => jumpStatement false
      | "continue" => jumpStatement true
      | "debugger" =>
        advance
        endStatement
        return .group []
      | "with" =>
        require (!sc.strict)
        advance
        let subject ← rules.condition
        return .group [subject, ← rules.substatement]
      | "export" =>
        require sc.items
        rules.exportDeclaration []
      | "import" =>
        if next.token == .mark "(" || next.token == .mark "." then rules.expressionStatement
        else
          require sc.items
          discard rules.importDeclaration
          return .group []
      | _ =>
        if sc.dialect.typed then
          match ← rules.typedDeclaration? false with
          | some node => return node
          | none => rules.expressionStatement
        else rules.expressionStatement
  | _ => rules.expressionStatement

end MessageKeys.Script
