import MessageKeys.Json.Number
/-!
# Json.Token — the words of a JSON text

`tokens?` cuts a text into marks, strings, numbers and the words `null`, `true` and `false`. Blanks are
the space, the tab and the two line ends. A string may not hold a control character as it is; its
escapes give UTF-16 units, and a surrogate without its partner leaves the string without a text.
-/
namespace MessageKeys.Json

inductive Token where
  | openArray
  | closeArray
  | openObject
  | closeObject
  | comma
  | colon
  | null
  | bool (value : Bool)
  | number (value : Option Number)
  | string (text : Option String)
deriving DecidableEq, Repr

/-! ## Strings -/

/-- The value of a hexadecimal digit. -/
def hexDigit? (c : Char) : Option Nat :=
  if c.isDigit then some (c.toNat - '0'.toNat)
  else if 'a' ≤ c && c ≤ 'f' then some (c.toNat - 'a'.toNat + 10)
  else if 'A' ≤ c && c ≤ 'F' then some (c.toNat - 'A'.toNat + 10)
  else none

/-- The value of four hexadecimal digits. -/
def hexUnit? (a b c d : Char) : Option Nat :=
  match hexDigit? a, hexDigit? b, hexDigit? c, hexDigit? d with
  | some a, some b, some c, some d => some (((a * 16 + b) * 16 + c) * 16 + d)
  | _, _, _, _ => none

/-- What a backslash and this character stand for. -/
def simpleEscape? (c : Char) : Option Nat :=
  match c with
  | '"' | '\\' | '/' => some c.toNat
  | 'b' => some 0x08
  | 'f' => some 0x0C
  | 'n' => some 0x0A
  | 'r' => some 0x0D
  | 't' => some 0x09
  | _ => none

/-- The code points and UTF-16 units between the quotes of a string. -/
def unescape? : List Char → Option (List Nat)
  | [] => some []
  | '\\' :: 'u' :: a :: b :: c :: d :: rest =>
    match hexUnit? a b c d with
    | some unit => (unescape? rest).map (unit :: ·)
    | none => none
  | '\\' :: c :: rest =>
    match simpleEscape? c with
    | some point => (unescape? rest).map (point :: ·)
    | none => none
  | c :: rest =>
    if c.toNat < 0x20 || c == '\\' then none else (unescape? rest).map (c.toNat :: ·)

def isHighSurrogate (unit : Nat) : Bool := 0xD800 ≤ unit && unit ≤ 0xDBFF

def isLowSurrogate (unit : Nat) : Bool := 0xDC00 ≤ unit && unit ≤ 0xDFFF

/-- Surrogates joined in pairs; nothing if one has no partner. -/
def joinSurrogates? : List Nat → Option (List Char)
  | [] => some []
  | high :: low :: rest =>
    if isHighSurrogate high then
      if isLowSurrogate low then
        (joinSurrogates? rest).map
          (Char.ofNat (0x10000 + (high - 0xD800) * 0x400 + (low - 0xDC00)) :: ·)
      else none
    else if isLowSurrogate high then none
    else (joinSurrogates? (low :: rest)).map (Char.ofNat high :: ·)
  | [unit] => if isHighSurrogate unit || isLowSurrogate unit then none else some [Char.ofNat unit]

/-- The string with this body. -/
def stringToken? (body : List Char) : Option Token :=
  (unescape? body).map fun points => .string ((joinSurrogates? points).map String.ofList)

/-! ## Words and marks -/

def isSpace (c : Char) : Bool := c == ' ' || c == '\t' || c == '\n' || c == '\r'

def mark? (c : Char) : Option Token :=
  match c with
  | '[' => some .openArray
  | ']' => some .closeArray
  | '{' => some .openObject
  | '}' => some .closeObject
  | ',' => some .comma
  | ':' => some .colon
  | _ => none

/-- The token of a run of other characters. -/
def wordToken? (word : List Char) : Option Token :=
  if word == "null".toList then some .null
  else if word == "true".toList then some (.bool true)
  else if word == "false".toList then some (.bool false)
  else (NumberText.ofChars? word).map fun number => .number number.value?

/-- Where the reading of a text stands; what has been read of a word or string comes latest first. -/
inductive Place where
  | between
  | word (before : List Char)
  | quoted (before : List Char)
  /-- In a string, after a backslash. -/
  | escaped (before : List Char)

/-- A token in front of others. -/
def push? (token : Option Token) (tokens : Option (List Token)) : Option (List Token) :=
  match token with
  | none => none
  | some token => tokens.map (token :: ·)

/-- The tokens of the rest of a text. -/
def tokensFrom? : Place → List Char → Option (List Token)
  | .between, [] => some []
  | .word before, [] => push? (wordToken? before.reverse) (some [])
  | .quoted _, [] | .escaped _, [] => none
  | .between, c :: rest =>
    if isSpace c then tokensFrom? .between rest
    else if c == '"' then tokensFrom? (.quoted []) rest
    else
      match mark? c with
      | some mark => push? (some mark) (tokensFrom? .between rest)
      | none => tokensFrom? (.word [c]) rest
  | .word before, c :: rest =>
    if isSpace c then push? (wordToken? before.reverse) (tokensFrom? .between rest)
    else if c == '"' then push? (wordToken? before.reverse) (tokensFrom? (.quoted []) rest)
    else
      match mark? c with
      | some mark =>
        push? (wordToken? before.reverse) (push? (some mark) (tokensFrom? .between rest))
      | none => tokensFrom? (.word (c :: before)) rest
  | .quoted before, c :: rest =>
    if c == '"' then push? (stringToken? before.reverse) (tokensFrom? .between rest)
    else if c == '\\' then tokensFrom? (.escaped (c :: before)) rest
    else tokensFrom? (.quoted (c :: before)) rest
  | .escaped before, c :: rest => tokensFrom? (.quoted (c :: before)) rest

/-- The tokens of a text. -/
def tokens? (text : List Char) : Option (List Token) := tokensFrom? .between text

end MessageKeys.Json
