import MessageKeys.Json.Basic
/-!
# Json.Printer — writing JSON texts

`compact` writes a value without any blanks. `pretty` puts every item and field on a line of its own,
indented once for each container around it. In strings only quotes, backslashes and control characters
are escaped.
-/
namespace MessageKeys.Json

/-- A hexadecimal digit in small letters. -/
def hexChar (value : Nat) : Char :=
  if value < 10 then Char.ofNat ('0'.toNat + value) else Char.ofNat ('a'.toNat + (value - 10))

/-- A character between the quotes of a string. -/
def escapeChar (c : Char) : List Char :=
  match c with
  | '"' => ['\\', '"']
  | '\\' => ['\\', '\\']
  | '\n' => ['\\', 'n']
  | '\r' => ['\\', 'r']
  | '\t' => ['\\', 't']
  | c =>
    if c.toNat == 0x08 then ['\\', 'b']
    else if c.toNat == 0x0C then ['\\', 'f']
    else if c.toNat < 0x20 then
      ['\\', 'u', '0', '0', hexChar (c.toNat / 16), hexChar (c.toNat % 16)]
    else [c]

/-- A string with its quotes. -/
def quote (text : String) : List Char := '"' :: text.toList.flatMap escapeChar ++ ['"']

/-- The text of `null`, `true` or `false`. -/
def boolText (value : Bool) : List Char := if value then "true".toList else "false".toList

mutual

/-- A value without blanks. -/
def compact : Json → List Char
  | .null => "null".toList
  | .bool value => boolText value
  | .number value => value.text
  | .string text => quote text
  | .array [] => ['[', ']']
  | .array (first :: items) => '[' :: compact first ++ compactItems items ++ [']']
  | .object [] => ['{', '}']
  | .object ((name, value) :: fields) =>
    '{' :: quote name ++ ':' :: compact value ++ compactFields fields ++ ['}']

/-- Items after the first one. -/
def compactItems : List Json → List Char
  | [] => []
  | item :: items => ',' :: compact item ++ compactItems items

/-- Fields after the first one. -/
def compactFields : List (String × Json) → List Char
  | [] => []
  | (name, value) :: fields => ',' :: quote name ++ ':' :: compact value ++ compactFields fields

end

/-- A new line, indented this often. -/
def newLine (indentation : List Char) (level : Nat) : List Char :=
  '\n' :: (List.replicate level indentation).flatten

mutual

/-- A value on lines of its own; `level` containers are around it. -/
def prettyAt (indentation : List Char) (level : Nat) : Json → List Char
  | .null => "null".toList
  | .bool value => boolText value
  | .number value => value.text
  | .string text => quote text
  | .array [] => ['[', ']']
  | .array (first :: items) =>
    '[' :: newLine indentation (level + 1) ++ prettyAt indentation (level + 1) first ++
      prettyItems indentation (level + 1) items ++ newLine indentation level ++ [']']
  | .object [] => ['{', '}']
  | .object ((name, value) :: fields) =>
    '{' :: newLine indentation (level + 1) ++ quote name ++ ':' :: ' ' ::
      prettyAt indentation (level + 1) value ++ prettyFields indentation (level + 1) fields ++
      newLine indentation level ++ ['}']

/-- Items after the first one. -/
def prettyItems (indentation : List Char) (level : Nat) : List Json → List Char
  | [] => []
  | item :: items =>
    ',' :: newLine indentation level ++ prettyAt indentation level item ++
      prettyItems indentation level items

/-- Fields after the first one. -/
def prettyFields (indentation : List Char) (level : Nat) : List (String × Json) → List Char
  | [] => []
  | (name, value) :: fields =>
    ',' :: newLine indentation level ++ quote name ++ ':' :: ' ' ::
      prettyAt indentation level value ++ prettyFields indentation level fields

end

/-- The text of a value without blanks. -/
def toCompactString (value : Json) : String := String.ofList (compact value)

/-- The text of a value on indented lines. -/
def toPrettyString (indentation : String) (value : Json) : String :=
  String.ofList (prettyAt indentation.toList 0 value)

end MessageKeys.Json
