import MessageKeys.Text.Blank
/-!
# Template.PipeChain — operands handed to a pipe

A pipe binds looser than any other operator, so its operand runs from the start of the enclosing part
of an expression up to the part's first `|`. Parts are what brackets enclose, cut at each `,` and `;`.
`pipedOperands` lists the operands whose first pipe has the given name, by where they start.

Text in quotes is opaque, a closing bracket closes the innermost open one whatever its kind, and `||`
is no pipe. What is still open at the end of the text ends there.
-/
namespace MessageKeys.Template

/-- A part of an expression: the character at which it starts, the expression from there on, and the
characters at which its pipes stand. -/
structure Part where
  start : Nat
  text : List Char
  pipes : List Nat
deriving DecidableEq, Repr

/-- What is handed to a pipe, and the character at which it starts. -/
structure Operand where
  start : Nat
  text : List Char
deriving DecidableEq, Repr

namespace Part

/-- The text of a part from one character up to another one. -/
def slice (part : Part) (first past : Nat) : List Char :=
  (part.text.drop (first - part.start)).take (past - first)

/-- The name between the first pipe and `past`: what stands before the first `:`, trimmed. -/
def pipeName (part : Part) (first past : Nat) : List Char :=
  Text.trimChars ((part.slice (first + 1) past).takeWhile (· != ':'))

/-- The operand of a part that ends at the character `stop`, if its first pipe has this name. -/
def operand? (name : List Char) (part : Part) (stop : Nat) : Option Operand :=
  match part.pipes with
  | [] => none
  | first :: later =>
    if part.pipeName first (later.head?.getD stop) == name then
      some ⟨part.start, part.slice part.start first⟩
    else none

end Part

/-- The open parts of an expression at the character `place`, innermost first, and the operands of
the parts that have ended. -/
structure PipeScan where
  place : Nat
  top : Part
  outer : List Part
  found : List Operand
deriving Repr

namespace PipeScan

/-- Nothing read yet. -/
def start (expression : List Char) : PipeScan := ⟨0, ⟨0, expression, []⟩, [], []⟩

def skip (scan : PipeScan) (count : Nat) : PipeScan := { scan with place := scan.place + count }

/-- An opening bracket: the part inside it starts with `rest`. -/
def enter (scan : PipeScan) (rest : List Char) : PipeScan :=
  { scan with
    place := scan.place + 1, top := ⟨scan.place + 1, rest, []⟩, outer := scan.top :: scan.outer }

/-- A closing bracket. Where nothing is open it means nothing. -/
def leave (name : List Char) (scan : PipeScan) : PipeScan :=
  match scan.outer with
  | [] => scan.skip 1
  | next :: outer =>
    ⟨scan.place + 1, next, outer, scan.found ++ (scan.top.operand? name scan.place).toList⟩

/-- A `,` or `;`: the next part starts with `rest`. -/
def cut (name : List Char) (scan : PipeScan) (rest : List Char) : PipeScan :=
  { scan with
    place := scan.place + 1
    top := ⟨scan.place + 1, rest, []⟩
    found := scan.found ++ (scan.top.operand? name scan.place).toList }

/-- A `|` that is a pipe. -/
def pipe (scan : PipeScan) : PipeScan :=
  { scan with
    place := scan.place + 1, top := { scan.top with pipes := scan.top.pipes ++ [scan.place] } }

/-- The end of the text: every open part ends here. -/
def finish (name : List Char) (scan : PipeScan) : List Operand :=
  scan.found ++ (scan.top :: scan.outer).filterMap fun part => part.operand? name scan.place

/-- Reads the expression to its end. `quote` is the quote that is open. -/
def run (name : List Char) (quote : Option Char) (scan : PipeScan) : List Char → List Operand
  | [] => scan.finish name
  | '|' :: '|' :: rest =>
    if quote.isSome then run name quote (scan.skip 1) ('|' :: rest)
    else run name none (scan.skip 2) rest
  | '\\' :: c :: rest =>
    if quote.isSome then run name quote (scan.skip 2) rest
    else run name none (scan.skip 1) (c :: rest)
  | c :: rest =>
    match quote with
    | some mark => run name (if c == mark then none else quote) (scan.skip 1) rest
    | none =>
      if c == '\'' || c == '"' || c == '\x60' then run name (some c) (scan.skip 1) rest
      else if c == '(' || c == '[' || c == '{' then run name none (scan.enter rest) rest
      else if c == ')' || c == ']' || c == '}' then run name none (scan.leave name) rest
      else if c == ',' || c == ';' then run name none (scan.cut name rest) rest
      else if c == '|' then run name none scan.pipe rest
      else run name none (scan.skip 1) rest

end PipeScan

/-- The operands that an expression hands first to the pipe of this name, by where they start. -/
def pipedOperands (expression name : List Char) : List Operand :=
  ((PipeScan.start expression).run name none expression).mergeSort fun a b => a.start ≤ b.start

end MessageKeys.Template
