/-!
# Template.Interpolation — expressions in double braces

`interpolations` finds the bodies of `{{ ... }}` in a template, from left to right and without regard
to markup, except that none opens inside one of the `skipped` ranges. A `}}` inside quotes does not
close a body. A body that is never closed ends the search.
-/
namespace MessageKeys.Template

/-- A range of bytes of a text, the end not included. -/
structure Range where
  start : Nat
  stop : Nat
deriving DecidableEq, Repr

namespace Range

def holds (range : Range) (offset : Nat) : Bool := range.start ≤ offset && offset < range.stop

end Range

/-- An expression and the byte offset at which it starts. -/
structure Located where
  offset : Nat
  text : String
deriving DecidableEq, Repr

/-- Quotes that hide braces. -/
def isQuote (c : Char) : Bool := c == '\'' || c == '"' || c == '\x60'

mutual

/-- Looks for `{{` at or after the offset `resume`. -/
def seek (skipped : List Range) (offset resume : Nat) : List Char → List Located
  | [] => []
  | '{' :: '{' :: rest =>
    if offset < resume then seek skipped (offset + 1) resume ('{' :: rest)
    else
      match skipped.find? (·.holds offset) with
      | some range => seek skipped (offset + 1) (max range.stop (offset + 2)) ('{' :: rest)
      | none => body skipped (offset + 2) (offset + 2) [] none rest
  | c :: rest => seek skipped (offset + c.utf8Size) resume rest

/-- Reads a body that starts at `start`. `before` is what has been read of it, latest first, `quote`
the quote that is open. -/
def body (skipped : List Range) (start offset : Nat) (before : List Char)
    (quote : Option Char) : List Char → List Located
  | [] => []
  | '}' :: '}' :: rest =>
    if quote.isNone then
      ⟨start, String.ofList before.reverse⟩ :: seek skipped (offset + 2) 0 rest
    else body skipped start (offset + 1) ('}' :: before) quote ('}' :: rest)
  | '\\' :: c :: rest =>
    if quote.isNone then body skipped start (offset + 1) ('\\' :: before) quote (c :: rest)
    else body skipped start (offset + 1 + c.utf8Size) (c :: '\\' :: before) quote rest
  | c :: rest =>
    let quote :=
      match quote with
      | some mark => if c == mark then none else some mark
      | none => if isQuote c then some c else none
    body skipped start (offset + c.utf8Size) (c :: before) quote rest

end

/-- The bodies of all interpolations of a template, in order. -/
def interpolations (skipped : List Range) (template : List Char) : List Located :=
  seek skipped 0 0 template

end MessageKeys.Template
