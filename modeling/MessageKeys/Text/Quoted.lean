import MessageKeys.Text.Blank
/-!
# Text.Quoted — texts shown in quotes

`quoted` shows a text between double quotes, with a backslash before quotes and backslashes and with
escapes in the place of characters that cannot be seen.
-/
namespace MessageKeys.Text

/-- The digits of a number in base sixteen. -/
def hexDigits (value : Nat) : List Char := Nat.toDigits 16 value

/-- Control characters, blanks other than the space, and marks of direction. -/
def isHidden (c : Char) : Bool :=
  let n := c.toNat
  n < 0x20 || (0x7F ≤ n && n ≤ 0x9F) || n == 0xAD || (c != ' ' && isBlank c) ||
    (0x200B ≤ n && n ≤ 0x200F) || (0x202A ≤ n && n ≤ 0x202E) || (0x2060 ≤ n && n ≤ 0x206F) ||
    n == 0xFEFF

/-- A character of a text shown in quotes. -/
def quotedChar (c : Char) : List Char :=
  match c with
  | '\x00' => ['\\', '0']
  | '\t' => ['\\', 't']
  | '\r' => ['\\', 'r']
  | '\n' => ['\\', 'n']
  | '\'' => ['\\', '\'']
  | '"' => ['\\', '"']
  | '\\' => ['\\', '\\']
  | c => if isHidden c then ['\\', 'u', '{'] ++ hexDigits c.toNat ++ ['}'] else [c]

/-- A text shown in quotes. -/
def quoted (text : String) : String :=
  String.ofList ('"' :: text.toList.flatMap quotedChar ++ ['"'])

end MessageKeys.Text
