import MessageKeys.Json.Shortest
/-!
# Json.Number — numbers in JSON texts

A number is an integer of 64 bits, with or without sign, or a binary fraction. `NumberText` is a number
as it is written; `NumberText.value?` is what it stands for, and nothing where that is too large.

A fraction is made of as many leading digits as 64 bits hold, scaled by powers of ten in floating point.
It is written with the fewest digits that give it back, in plain notation from `10 ^ -5` up to below
`10 ^ 16` and with an exponent of at least two digits elsewhere.
-/
namespace MessageKeys.Json

/-- A number. A fraction is kept by its 64 bits. -/
inductive Number where
  | integer (value : Int)
  | fraction (bits : UInt64)
deriving DecidableEq, Repr

/-- A number as it is written: digits before and after the point, the sign and the digits of the
exponent. -/
structure NumberText where
  negative : Bool
  whole : List Nat
  fraction : List Nat
  exponent : Option (Bool × List Nat)
deriving DecidableEq, Repr

/-! ## Reading -/

/-- The value of a digit. -/
def digit? (c : Char) : Option Nat :=
  if c.isDigit then some (c.toNat - '0'.toNat) else none

/-- The digits at the front of a text, and the rest. -/
def takeDigits : List Char → List Nat × List Char
  | [] => ([], [])
  | c :: rest =>
    match digit? c with
    | some digit => let (digits, rest) := takeDigits rest; (digit :: digits, rest)
    | none => ([], c :: rest)

namespace NumberText

/-- Takes a minus sign off the front. -/
private def takeSign : List Char → Bool × List Char
  | '-' :: rest => (true, rest)
  | text => (false, text)

/-- Takes `.` and digits off the front. Without a point there is no fraction; with one there has to be
a digit. -/
private def takeFraction? : List Char → Option (List Nat × List Char)
  | '.' :: rest =>
    match takeDigits rest with
    | ([], _) => none
    | found => some found
  | text => some ([], text)

/-- Reads an exponent up to the end of the text. -/
private def takeExponent? : List Char → Option (Option (Bool × List Nat))
  | [] => some none
  | e :: rest =>
    if e == 'e' || e == 'E' then
      let (negative, rest) := match rest with
        | '-' :: rest => (true, rest)
        | '+' :: rest => (false, rest)
        | rest => (false, rest)
      match takeDigits rest with
      | ([], _) => none
      | (digits, []) => some (some (negative, digits))
      | _ => none
    else none

/-- Reads a whole text as a number. No zero stands in front of other digits. -/
def ofChars? (text : List Char) : Option NumberText :=
  let (negative, text) := takeSign text
  match takeDigits text with
  | ([], _) | (0 :: _ :: _, _) => none
  | (whole, text) =>
    match takeFraction? text with
    | none => none
    | some (fraction, text) =>
      (takeExponent? text).map fun exponent => ⟨negative, whole, fraction, exponent⟩

/-- The greatest number of 64 bits. -/
def maxWord : Nat := Nat.pow 2 64 - 1

/-- The value of digits. -/
def valueOf (digits : List Nat) : Nat := digits.foldl (fun value digit => 10 * value + digit) 0

/-- Takes digits into a number of 64 bits while they fit. Returns it and how many were left out. -/
def absorb (word : Nat) : List Nat → Nat × Nat
  | [] => (word, 0)
  | digit :: digits =>
    if 10 * word + digit ≤ maxWord then absorb (10 * word + digit) digits
    else (word, digits.length + 1)

/-- `10 ^ place` in floating point. -/
def power (place : Nat) : Float := Float.ofScientific 1 false place

/-- A number of 64 bits times `10 ^ place`; nothing if that is infinite. Below `10 ^ -308` it is divided
twice. -/
def scaled? (word : Nat) (place : Int) : Option Float :=
  let value := (UInt64.ofNat word).toFloat
  if 0 ≤ place then
    if place ≤ 308 then
      let value := value * power place.toNat
      if value.isInf then none else some value
    else if word == 0 then some value
    else none
  else if -308 ≤ place then some (value / power (-place).toNat)
  else if -616 ≤ place then some (value / power 308 / power (-place - 308).toNat)
  else some 0

/-- The exponent of a number. -/
def place (text : NumberText) : Int :=
  match text.exponent with
  | none => 0
  | some (negative, digits) => if negative then -(valueOf digits : Int) else valueOf digits

/-- The fraction that a number with a point, with an exponent or with too many digits stands for. -/
def fraction? (text : NumberText) : Option Number :=
  let (word, dropped) := absorb 0 text.whole
  let (word, unread) := absorb word text.fraction
  let kept : Int := (text.fraction.length - unread : Nat)
  (scaled? word (text.place + dropped - kept)).map fun value =>
    .fraction (if text.negative then -value else value).toBits

/-- What a number stands for; nothing if it is too large. Minus zero is a fraction. -/
def value? (text : NumberText) : Option Number :=
  let value := valueOf text.whole
  if text.fraction.isEmpty && text.exponent.isNone then
    if !text.negative && value ≤ maxWord then some (.integer value)
    else if text.negative && 0 < value && value ≤ Nat.pow 2 63 then some (.integer (-(value : Int)))
    else text.fraction?
  else text.fraction?

end NumberText

/-! ## Writing -/

/-- The places of the first digit at which plain notation is used. -/
def isPlain (leading : Int) : Bool := -5 ≤ leading && leading ≤ 15

/-- An exponent with a sign and at least two digits. -/
def exponentText (place : Int) : List Char :=
  let digits := (toString place.natAbs).toList
  'e' :: (if place < 0 then '-' else '+') :: (if digits.length < 2 then '0' :: digits else digits)

/-- The text of decimal digits of which the first is at the place `leading`. -/
def decimalText (digits : List Char) (leading : Int) : List Char :=
  if isPlain leading then
    if leading < 0 then
      "0.".toList ++ List.replicate (-leading - 1).toNat '0' ++ digits
    else
      let whole := leading.toNat + 1
      let rest := digits.drop whole
      digits.take whole ++ List.replicate (whole - digits.length) '0' ++
        '.' :: (if rest.isEmpty then ['0'] else rest)
  else
    match digits with
    | [] => []
    | [first] => first :: exponentText leading
    | first :: rest => first :: '.' :: rest ++ exponentText leading

/-- The text of a number. -/
def Number.text : Number → List Char
  | .integer value => (toString value).toList
  | .fraction bits =>
    let number := Binary.ofBits bits
    let sign := if number.negative then ['-'] else []
    if number.mantissa == 0 then sign ++ "0.0".toList
    else
      let (count, place) := Shortest.digits number.mantissa number.exponent
      let digits := (toString count).toList
      let shown := (digits.reverse.dropWhile (· == '0')).reverse
      sign ++ decimalText shown (place + digits.length - 1)

end MessageKeys.Json
