import MessageKeys.Script.Node
import MessageKeys.Script.Token
/-!
# Script.Reading — reading a program from left to right

`Reading α` reads an `α` off the front of the remaining tokens or fails; failure carries no reason,
because every error of a program is reported in the same words. The `Scope` holds what the code
around the current place allows, the `Cursor` the current token and the text after it.

Every repetition is bounded by `Scope.bound`, the length of the whole text, and every rule of the
grammar that may hold itself is reached through the record `Rules`, so all of the grammar is total.
-/
namespace MessageKeys.Script

/-- The language a program is written in: with types or without, with markup expressions or
without, as a module (always strict) or as a lone expression. -/
structure Dialect where
  typed : Bool
  markup : Bool
  module : Bool
deriving DecidableEq, Repr

/-- What the code around the current place allows. -/
structure Scope where
  dialect : Dialect
  /-- More than the number of tokens of the text. -/
  bound : Nat
  strict : Bool
  inFunction : Bool := false
  inAsync : Bool := false
  inGenerator : Bool := false
  /-- The parameters of a function, where nothing is awaited or yielded. -/
  inParameters : Bool := false
  /-- The parameters of an arrow, where `this` is no name. -/
  inArrow : Bool := false
  /-- The value of a property or a static block, where `arguments` stands for nothing. -/
  inField : Bool := false
  /-- `new.target` may stand here. -/
  hasTarget : Bool := false
  /-- A class or a method of an object is around the current place, so that `super` has properties. -/
  hasSuper : Bool := false
  /-- `in` is an operator here. -/
  allowIn : Bool := true
  /-- A conditional type may be read here. -/
  allowConditionalType : Bool := true
  /-- Between `?` and `:` a colon after a parameter list does not start a return type. -/
  expectsColon : Bool := false
  /-- Imports and exports may stand here. -/
  items : Bool := false
  inLoop : Bool := false
  inSwitch : Bool := false
  labels : List String := []
  /-- Declarations without code: `declare` and what it encloses. -/
  ambient : Bool := false
  /-- The class around the current place extends another. -/
  derived : Bool := false

/-- The current token, where it starts, what follows it, and whether a line ended before it. -/
structure Cursor where
  token : Token
  start : List Char
  rest : List Char
  newline : Bool

/-- Reads the token after the blanks at the front of `text`. A comment without its end leaves a flawed
token. A module has no octal escapes in its literals and none of the comments that begin with a markup
comment's delimiters. -/
def Cursor.at (module : Bool) (newline : Bool) (text : List Char) : Cursor :=
  match skipBlanks (!module) .blanks newline text with
  | none => ⟨.flawed, [], [], newline⟩
  | some (newline, start) =>
    let (token, rest) := readToken start
    let token := match token, start with
      | .mark "<", '<' :: '!' :: '-' :: '-' :: _ => if module then .bad else token
      | .mark "--", '-' :: '-' :: '>' :: _ => if module && newline then .bad else token
      | .text _, quote :: text =>
        if module && (splitQuoted quote text).any (hasOctalEscape ·.1) then .bad else token
      | token, _ => token
    ⟨token, start, rest, newline⟩

abbrev Reading (α : Type) := Scope → Cursor → Option (α × Cursor)

namespace Reading

variable {α β : Type}

@[inline] protected def pure (a : α) : Reading α := fun _ cursor => some (a, cursor)

@[inline] protected def bind (p : Reading α) (f : α → Reading β) : Reading β := fun scope cursor =>
  match p scope cursor with
  | none => none
  | some (a, cursor) => f a scope cursor

instance : Monad Reading where
  pure := Reading.pure
  bind := Reading.bind

def fail : Reading α := fun _ _ => none

def scope : Reading Scope := fun scope cursor => some (scope, cursor)

def cursor : Reading Cursor := fun _ cursor => some (cursor, cursor)

def token : Reading Token := fun _ cursor => some (cursor.token, cursor)

/-- Reads with another scope. -/
def within (change : Scope → Scope) (p : Reading α) : Reading α := fun scope cursor =>
  p (change scope) cursor

/-- Goes on at the token that starts `text`, which may be further on or further back. -/
def resume (text : List Char) : Reading Unit := fun scope _ =>
  some ((), Cursor.at scope.dialect.module false text)

/-- Goes back to a place that was passed. -/
def goBack (here : Cursor) : Reading Unit := fun _ _ => some ((), here)

/-- Goes on after the current token. -/
def advance : Reading Unit := fun scope cursor =>
  some ((), Cursor.at scope.dialect.module false cursor.rest)

/-- Reads if possible and otherwise reads nothing. -/
def attempt (p : Reading α) : Reading (Option α) := fun scope cursor =>
  match p scope cursor with
  | none => some (none, cursor)
  | some (a, cursor) => some (some a, cursor)

/-- What would be read here; nothing is read. -/
def ahead (p : Reading α) : Reading (Option α) := fun scope cursor =>
  some ((p scope cursor).map (·.1), cursor)

def require (condition : Bool) : Reading Unit := if condition then pure () else fail

/-- The cursor after the current token. -/
def following : Reading Cursor := fun scope cursor =>
  some (Cursor.at scope.dialect.module false cursor.rest, cursor)

section Apply

variable (scope : Scope) (here : Cursor)

@[simp]
theorem bind_apply (p : Reading α) (f : α → Reading β) : (p >>= f) scope here =
    match p scope here with
    | none => none
    | some (a, next) => f a scope next := rfl

@[simp]
theorem pure_apply (a : α) : (pure a : Reading α) scope here = some (a, here) := rfl

@[simp]
theorem scope_apply : Reading.scope scope here = some (scope, here) := rfl

@[simp]
theorem cursor_apply : cursor scope here = some (here, here) := rfl

@[simp]
theorem token_apply : token scope here = some (here.token, here) := rfl

@[simp]
theorem advance_apply :
    advance scope here = some ((), Cursor.at scope.dialect.module false here.rest) := rfl

@[simp]
theorem following_apply :
    following scope here = some (Cursor.at scope.dialect.module false here.rest, here) := rfl

end Apply

/-- A round of a repetition: go on, or end with a result. -/
inductive Round (β α : Type) where
  | again (state : β)
  | done (result : α)

/-- Repeats a step until it is done; fails after `bound` rounds. -/
def rounds (step : β → Reading (Round β α)) : Nat → β → Reading α
  | 0, _ => fail
  | left + 1, state => do
    match ← step state with
    | .again state => rounds step left state
    | .done result => pure result

/-- Repeats a step until it is done. -/
def repeating (step : β → Reading (Round β α)) (state : β) : Reading α := fun scope cursor =>
  rounds step scope.bound state scope cursor

/-- A repetition whose first round is the last one. -/
theorem repeating_of_done {step : β → Reading (Round β α)} {state : β} {result : α} {scope : Scope}
    {here next : Cursor} (bound : 0 < scope.bound)
    (done : step state scope here = some (.done result, next)) :
    repeating step state scope here = some (result, next) := by
  obtain ⟨left, same⟩ := Nat.exists_eq_add_of_lt bound
  simp only [repeating, same, Nat.zero_add, rounds, bind_apply, done, pure_apply]

/-! ## Tokens -/

def isMark (text : String) : Reading Bool := do return (← token) == .mark text

/-- The current token is this name, written without escapes. -/
def isWord (name : String) : Reading Bool := do return (← token) == .word name false

@[simp]
theorem isMark_apply (text : String) (scope : Scope) (here : Cursor) :
    isMark text scope here = some (here.token == .mark text, here) := rfl

@[simp]
theorem isWord_apply (name : String) (scope : Scope) (here : Cursor) :
    isWord name scope here = some (here.token == .word name false, here) := rfl

def tryMark (text : String) : Reading Bool := do
  if ← isMark text then advance; return true else return false

def tryWord (name : String) : Reading Bool := do
  if ← isWord name then advance; return true else return false

def mark (text : String) : Reading Unit := do
  if ← isMark text then advance else fail

def word (name : String) : Reading Unit := do
  if ← isWord name then advance else fail

/-- A `>` that closes an angle, also in front of another `>` or of `=`. -/
def closeAngle : Reading Unit := mark ">"

/-- A `<` that opens an angle; of `<<` only the first half is read. -/
def tryOpenAngle : Reading Bool := do
  let here ← cursor
  match here.token, here.start with
  | .mark "<", _ => advance; return true
  | .mark "<<", _ :: rest => resume rest; return true
  | _, _ => return false

def openAngle : Reading Unit := do
  if ← tryOpenAngle then pure () else fail

def newline : Reading Bool := do return (← cursor).newline

@[simp]
theorem newline_apply (scope : Scope) (here : Cursor) :
    newline scope here = some (here.newline, here) := rfl

/-- A statement may end here: at `;`, `}`, the end of the text, or a line end. -/
def canEndStatement : Reading Bool := do
  let here ← cursor
  match here.token with
  | .mark ";" | .mark "\x7d" | .eof => return true
  | _ => return here.newline

/-- Ends a statement, reading the `;` if there is one. -/
def endStatement : Reading Unit := do
  if ← tryMark ";" then pure ()
  else require (← canEndStatement)

/-- Items up to `close`, which is not read, with `separator` between them and allowed after the last. -/
def listBefore (close separator : String) (item : Reading α) : Reading (List α) :=
  repeating (fun (items : List α) => do
    if ← isMark close then return .done items.reverse
    let items := (← item) :: items
    if ← tryMark separator then return .again items
    return .done items.reverse) []

/-- Items up to `close`, which is read. -/
def listUntil (close separator : String) (item : Reading α) : Reading (List α) := do
  let items ← listBefore close separator item
  mark close
  return items

/-- Items up to `close`, which is read. -/
def manyUntil (close : String) (item : Reading (List α)) : Reading (List α) :=
  repeating (fun (items : List (List α)) => do
    if ← tryMark close then return .done items.reverse.flatten
    return .again ((← item) :: items)) []

/-- One or more items with `separator` between them. -/
def separatedBy (separator : String) (item : Reading α) : Reading (List α) := do
  let first ← item
  repeating (fun (items : List α) => do
    if ← tryMark separator then return .again ((← item) :: items)
    return .done items.reverse) [first]

end Reading

/-- The outermost operator of an expression, as far as it restricts what may stand next to it. -/
inductive Form where
  | plain
  | arrow
  | unary
  | logical
  | coalescing
  | chain
deriving DecidableEq, Repr

/-- An expression read where it may turn out to be a pattern. `simple` tells that it may be updated
in place, `target` that it may be assigned to, `element` that it may be a part of a pattern, where a
default may follow; `pending` marks a literal `{ a = 1 }`, which between parentheses is a pattern or
nothing. -/
structure Operand where
  node : Node
  simple : Bool := false
  target : Bool := false
  element : Bool := false
  pending : Bool := false
  form : Form := .plain

/-- A type: the last name of a type reference, and the expressions that stand in it. -/
structure TypeNode where
  reference : Option String := none
  parts : List Node := []

/-- The rules of the grammar that may hold themselves. -/
structure Rules where
  assign : Reading Operand
  leftHand : Reading Operand
  decorator : Reading Node
  unary : Reading Operand
  climb : Operand → Nat → Reading Operand
  type : Reading TypeNode
  typeOperand : Reading TypeNode
  pattern : Reading Node
  statement : Reading Node
  element : Reading Node

/-- The rules that read nothing. -/
def Rules.exhausted : Rules where
  assign := Reading.fail
  leftHand := Reading.fail
  decorator := Reading.fail
  unary := Reading.fail
  climb := fun _ _ => Reading.fail
  type := Reading.fail
  typeOperand := Reading.fail
  pattern := Reading.fail
  statement := Reading.fail
  element := Reading.fail

end MessageKeys.Script
