/-!
# Files.Pattern — patterns of names

A `?` stands for any character, a `*` for any text, `[...]` for one character out of a class and
`[!...]` for one outside of it. `**` stands for any directories and has to be a whole part of a pattern
between slashes. Every other character stands for itself.
-/
namespace MessageKeys.Files

/-- A piece of a pattern. A class lists ranges of characters. -/
inductive Piece where
  | char (c : Char)
  | anyChar
  | anyText
  | anyDirectories
  | oneOf (ranges : List (Char × Char))
  | noneOf (ranges : List (Char × Char))
deriving DecidableEq, Repr

abbrev Pattern := List Piece

namespace Pattern

/-- The ranges that a class lists. `-` between two characters makes a range of them. -/
def rangesOf : List Char → List (Char × Char)
  | first :: '-' :: last :: rest => (first, last) :: rangesOf rest
  | c :: rest => (c, c) :: rangesOf rest
  | [] => []

/-- Where the reading of a pattern stands. -/
inductive Reading where
  /-- Outside of a class; whether a part starts here. -/
  | outside (atStart : Bool)
  /-- After the bracket of a class. -/
  | opened
  /-- After `[!`. -/
  | negated
  /-- In a class, after characters of it, latest first. -/
  | inside (isNegated : Bool) (before : List Char)

/-- Reads the rest of a pattern. A class holds at least one character, which may be a closing bracket,
and has to be closed. -/
def readFrom? : Reading → List Char → Option Pattern
  | .outside _, [] => some []
  | _, [] => none
  | .outside _, '*' :: '*' :: '*' :: _ => none
  | .outside atStart, '*' :: '*' :: '/' :: rest =>
    if atStart then (readFrom? (.outside true) rest).map (.anyDirectories :: ·) else none
  | .outside atStart, ['*', '*'] => if atStart then some [.anyDirectories] else none
  | .outside _, '*' :: '*' :: _ => none
  | .outside _, '*' :: rest => (readFrom? (.outside false) rest).map (.anyText :: ·)
  | .outside _, '?' :: rest => (readFrom? (.outside false) rest).map (.anyChar :: ·)
  | .outside _, '[' :: rest => readFrom? .opened rest
  | .outside _, c :: rest => (readFrom? (.outside (c == '/')) rest).map (.char c :: ·)
  | .opened, '!' :: rest => readFrom? .negated rest
  | .opened, c :: rest => readFrom? (.inside false [c]) rest
  | .negated, c :: rest => readFrom? (.inside true [c]) rest
  | .inside isNegated before, ']' :: rest =>
    let ranges := rangesOf before.reverse
    (readFrom? (.outside false) rest).map
      ((if isNegated then .noneOf ranges else .oneOf ranges) :: ·)
  | .inside isNegated before, c :: rest => readFrom? (.inside isNegated (c :: before)) rest

/-- Reads a pattern. -/
def ofChars? (text : List Char) : Option Pattern := readFrom? (.outside true) text

/-- A text as a pattern that only it matches. -/
def escape (text : List Char) : List Char :=
  text.flatMap fun c =>
    if c == '?' || c == '*' || c == '[' || c == ']' then ['[', c, ']'] else [c]

/-- The text of a pattern that stands for one text only. -/
def literal? : Pattern → Option (List Char)
  | [] => some []
  | .char c :: rest => (literal? rest).map (c :: ·)
  | _ => none

/-- The pattern stands for any directories. -/
def isRecursive (pattern : Pattern) : Bool := pattern.contains .anyDirectories

/-- A text and what is left of it when characters are taken off the front. -/
def suffixes : List Char → List (List Char)
  | [] => [[]]
  | c :: rest => (c :: rest) :: suffixes rest

/-- One of the ranges holds the character. -/
def isWithin (ranges : List (Char × Char)) (c : Char) : Bool :=
  ranges.any fun range => range.1 ≤ c && c ≤ range.2

/-- A piece that stands for one character stands for this one. -/
def Piece.holds : Piece → Char → Bool
  | .char expected, c => c == expected
  | .anyChar, _ => true
  | .oneOf ranges, c => isWithin ranges c
  | .noneOf ranges, c => !isWithin ranges c
  | .anyText, _ | .anyDirectories, _ => false

/-- The pattern stands for this name. -/
def isMatch : Pattern → List Char → Bool
  | [], name => name.isEmpty
  | .anyText :: rest, name | .anyDirectories :: rest, name => (suffixes name).any (isMatch rest)
  | piece :: rest, name =>
    match name with
    | [] => false
    | c :: name => Piece.holds piece c && isMatch rest name

end Pattern
end MessageKeys.Files
