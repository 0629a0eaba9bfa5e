import MessageKeys.Script.Grammar.Statement
/-!
# Script.Grammar — reading a whole program

`rules depth` ties the rules of the grammar together for texts nested at most `depth` deep. No text
nests deeper than a multiple of its length, so `Module.read?` and `readExpression?` fail only on
texts that are no programs.
-/
namespace MessageKeys.Script
open Reading

/-- The rules, usable to the given depth. -/
def rules : Nat → Rules
  | 0 => Rules.exhausted
  | depth + 1 => {
      assign := fun scope cursor => assignRule (rules depth) scope cursor
      leftHand := fun scope cursor => leftHandRule (rules depth) scope cursor
      decorator := fun scope cursor => decoratorRule (rules depth) scope cursor
      unary := fun scope cursor => unaryRule (rules depth) scope cursor
      climb := fun left least scope cursor => climbRule (rules depth) left least scope cursor
      type := fun scope cursor => typeRule (rules depth) scope cursor
      typeOperand := fun scope cursor => typeOperandRule (rules depth) scope cursor
      pattern := fun scope cursor => patternRule (rules depth) scope cursor
      statement := fun scope cursor => statementRule (rules depth) scope cursor
      element := fun scope cursor => elementRule (rules depth) scope cursor }

/-- The rules for a text of this many characters. Between two nestings of the same rule at least
one token is read, and ten rules lie on the way round. -/
def rulesFor (length : Nat) : Rules := rules (10 * length + 20)

/-- Imports and statements up to the end of the text. -/
def Rules.moduleBody (rules : Rules) : Reading Module :=
  repeating (fun ((imports, body) : List (List NamedImport) × List Node) => do
    let here ← cursor
    let next ← following
    if here.token == .eof then return .done ⟨imports.reverse.flatten, body.reverse⟩
    if here.token == .word "import" false && next.token != .mark "(" && next.token != .mark "." then
      return .again ((← rules.importDeclaration) :: imports, body)
    return .again (imports, (← rules.statement) :: body)) ([], [])

/-- The text without the first line if that starts with `#!`. -/
def withoutHashbang : List Char → List Char
  | '#' :: '!' :: rest => rest.dropWhile (!isLineEnd ·)
  | text => text

/-- Reads a program. -/
def Module.read? (typed markup : Bool) (source : String) : Option Module :=
  let text := withoutHashbang source.toList
  let bound := text.length + 2
  let scope : Scope := {
    dialect := ⟨typed, markup, true⟩, bound, strict := true, items := true }
  ((rulesFor bound).moduleBody scope (Cursor.at true true text)).map (·.1)

/-- Reads the expression at the front of a text. Of what follows it one token is looked at, in which no flaw
may be noted; the rest is left unread. -/
def readExpression? (source : String) : Option Node :=
  let text := source.toList
  let bound := text.length + 2
  let scope : Scope := {
    dialect := ⟨true, false, false⟩, bound, strict := false, allowIn := false }
  match (rulesFor bound).expression scope (Cursor.at false true text) with
  | some (node, behind) => if behind.token == .flawed then none else some node
  | none => none

end MessageKeys.Script
