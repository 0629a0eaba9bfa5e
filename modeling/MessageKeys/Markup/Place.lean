/-!
# Markup.Place — a place in a text

A `Place` is what is left of a text from there on, with the bytes and the lines before it. Two
places of one text enclose the characters by which the rest of the first is longer.
-/
namespace MessageKeys.Markup

/-- Where a reader stands in a text. -/
structure Place where
  rest : List Char
  /-- Bytes of the text before this place. -/
  offset : Nat
  /-- Line ends before this place. -/
  line : Nat
deriving Repr, Inhabited

/-- White space of markup: tab to carriage return, and space. -/
def isBlank (c : Char) : Bool :=
  ('\t' ≤ c && c ≤ '\r') || c == ' '

namespace Place

/-- The first place of a text. -/
def first (text : List Char) : Place := ⟨text, 0, 0⟩

/-- One character further, or here at the end. -/
def next : Place → Place
  | ⟨[], offset, line⟩ => ⟨[], offset, line⟩
  | ⟨c :: rest, offset, line⟩ => ⟨rest, offset + c.utf8Size, if c = '\n' then line + 1 else line⟩

def skip : Nat → Place → Place
  | 0, place => place
  | n + 1, place => skip n place.next

def skipWhileFrom (p : Char → Bool) : List Char → Place → Place
  | c :: rest, place => if p c then skipWhileFrom p rest place.next else place
  | [], place => place

/-- The first place from here on whose character fails `p`. -/
def skipWhile (p : Char → Bool) (place : Place) : Place :=
  skipWhileFrom p place.rest place

/-- Like `skipWhile`, over at most `most` characters. -/
def skipUpTo (p : Char → Bool) : Nat → Place → Place
  | 0, place => place
  | most + 1, place =>
    match place.rest with
    | c :: _ => if p c then skipUpTo p most place.next else place
    | [] => place

def skipBlanks (place : Place) : Place := place.skipWhile isBlank

/-- Passes a byte order mark at the very front of a text. -/
def skipByteOrderMark (place : Place) : Place :=
  match place.offset, place.rest with
  | 0, '\ufeff' :: _ => place.next
  | _, _ => place

/-- The text from one place up to a later one. -/
def textTo (start stop : Place) : String :=
  String.ofList (start.rest.take (start.rest.length - stop.rest.length))

end Place
end MessageKeys.Markup
