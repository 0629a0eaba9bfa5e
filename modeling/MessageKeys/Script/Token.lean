import MessageKeys.Text.Identifier
/-!
# Script.Token — the words of a program

`skipBlanks` drops the blanks and comments in front of a token and `readToken` reads it. A token that
depends on where it stands is left to the caller: a slash is read as an operator (`regexp` reads a
regular expression instead), a backquote as a mark (`templateChunk` reads the text after it), `>` always
alone (`angleOperator` reads the longer operators).

No rule of the grammar accepts a token that is spelled wrong. There are two kinds of them (`Flaw`): a
`bad` token ends where it goes wrong and is an error only to a rule that asks for it, while the error of
a `flawed` one is noted as soon as it has been read, whether a rule asks for it or not. The first flaw
of a token decides, for behind a noted one there is nothing left to refuse.

Literal texts are decoded by `cook`, a one-pass reader over the text between the quotes; a text
that holds a lone surrogate is no text (`joinUnits`).
-/
namespace MessageKeys.Script

/-- A token. `word` covers keywords, `escaped` when it was written with a `\u` escape; `number`
tells whether the literal is a decimal with a leading zero, which strict code refuses. -/
inductive Token where
  | word (name : String) (escaped : Bool)
  | privateName (name : String)
  | text (value : Option String)
  | number (leadingZero : Bool)
  | bigint
  | mark (text : String)
  | bad
  | flawed
  | eof
deriving DecidableEq, Repr, Inhabited

/-- What is wrong with the spelling of a token: it ends there, or it goes on and the error is noted. -/
inductive Flaw where
  | fatal
  | noted
deriving DecidableEq, Repr

def Flaw.token : Flaw → Token
  | .fatal => .bad
  | .noted => .flawed

/-- The four line ends: LF, CR and the separators U+2028 and U+2029. -/
def isLineEnd (c : Char) : Bool :=
  c == '\n' || c == '\r' || c.toNat == 0x2028 || c.toNat == 0x2029

/-- Blanks within a line: tab, vertical tab, form feed, U+0085, the space separators and U+FEFF. -/
def isBlank (c : Char) : Bool :=
  c == ' ' || c == '\t' || c.toNat == 0x0B || c.toNat == 0x0C || c.toNat == 0x85 || c.toNat == 0xA0 ||
  c.toNat == 0xFEFF || c.toNat == 0x1680 || (0x2000 ≤ c.toNat && c.toNat ≤ 0x200A) ||
  c.toNat == 0x202F || c.toNat == 0x205F || c.toNat == 0x3000

/-- Where a reader stands between tokens; `blockOpening` is between the two marks that open a block
comment. -/
inductive Between where
  | blanks
  | lineComment
  | blockOpening
  | blockComment

/-- A comment up to the end of its line starts here. With `legacy`, `<!--` starts one, and so does
`-->` when only blanks stand before it on its line. -/
def startsLineComment (legacy newline : Bool) (text : List Char) : Bool :=
  ['/', '/'].isPrefixOf text ||
    (legacy && (['<', '!', '-', '-'].isPrefixOf text || (newline && ['-', '-', '>'].isPrefixOf text)))

/-- Drops blanks and comments and tells whether a line ended among them; `none` for a block comment
that does not end. -/
def skipBlanks (legacy : Bool) : Between → Bool → List Char → Option (Bool × List Char)
  | .blanks, newline, [] | .lineComment, newline, [] => some (newline, [])
  | .blockOpening, _, [] | .blockComment, _, [] => none
  | .blanks, newline, c :: rest =>
    if isLineEnd c then skipBlanks legacy .blanks true rest
    else if isBlank c then skipBlanks legacy .blanks newline rest
    else if startsLineComment legacy newline (c :: rest) then
      skipBlanks legacy .lineComment newline rest
    else if ['/', '*'].isPrefixOf (c :: rest) then skipBlanks legacy .blockOpening newline rest
    else some (newline, c :: rest)
  | .lineComment, newline, c :: rest =>
    if isLineEnd c then skipBlanks legacy .blanks true rest
    else skipBlanks legacy .lineComment newline rest
  | .blockOpening, newline, _ :: rest => skipBlanks legacy .blockComment newline rest
  | .blockComment, newline, '*' :: '/' :: rest => skipBlanks legacy .blanks newline rest
  | .blockComment, newline, c :: rest =>
    skipBlanks legacy .blockComment (newline || isLineEnd c) rest

/-! ## Literal texts -/

def hexDigit? (c : Char) : Option Nat :=
  if c.isDigit then some (c.toNat - '0'.toNat)
  else if 'a' ≤ c ∧ c ≤ 'f' then some (c.toNat - 'a'.toNat + 10)
  else if 'A' ≤ c ∧ c ≤ 'F' then some (c.toNat - 'A'.toNat + 10)
  else none

def octalDigit? (c : Char) : Option Nat :=
  if '0' ≤ c ∧ c ≤ '7' then some (c.toNat - '0'.toNat) else none

/-- Where `cook` stands: in plain text, after a backslash, `hex` with so many digits still to read,
after `\u`, inside `\u{`, inside an octal escape of at most so many more digits, or just after a CR
that a following LF belongs to. -/
inductive Escape where
  | plain
  | backslash
  | hex (left value : Nat)
  | unicode
  | braces (digits value : Nat)
  | octal (left value : Nat)
  | afterReturn

/-- A character of a hexadecimal number in an escape: a digit, or with `none` an underscore, which has
to stand in front of one. -/
def escapeDigit? (c : Char) (rest : List Char) : Except Flaw (Option Nat) :=
  match hexDigit? c with
  | some d => .ok (some d)
  | none =>
    if c != '_' then .error .fatal
    else if rest.head?.any (hexDigit? · |>.isSome) then .ok none
    else .error .noted

/-- Reads the text between the quotes of a literal, as code units or code points in order, or gives the
first flaw of its escapes. In a template octal escapes are flaws and a CR, alone or with an LF, counts
as LF. -/
def cook (template : Bool) : Escape → List Char → Except Flaw (List Nat)
  | .plain, [] | .afterReturn, [] => .ok []
  | .octal _ value, [] => .ok [value]
  | .backslash, [] => .error .noted
  | .hex _ _, [] | .unicode, [] | .braces _ _, [] => .error .fatal
  | .plain, c :: rest => plain c rest
  | .afterReturn, c :: rest =>
    if c == '\n' then cook template .plain rest else plain c rest
  | .backslash, c :: rest =>
    match c with
    | 'n' => (cook template .plain rest).map (10 :: ·)
    | 't' => (cook template .plain rest).map (9 :: ·)
    | 'r' => (cook template .plain rest).map (13 :: ·)
    | 'b' => (cook template .plain rest).map (8 :: ·)
    | 'f' => (cook template .plain rest).map (12 :: ·)
    | 'v' => (cook template .plain rest).map (11 :: ·)
    | 'x' => cook template (.hex 2 0) rest
    | 'u' => cook template .unicode rest
    | '\r' => cook template .afterReturn rest
    | c =>
      if isLineEnd c then cook template .plain rest
      else match octalDigit? c with
        | some d =>
          if template then
            if d == 0 && !(rest.head?.any (octalDigit? · |>.isSome)) then
              (cook template .plain rest).map (0 :: ·)
            else .error .fatal
          -- At most three digits, and never more than a byte holds.
          else cook template (.octal (if d ≤ 3 then 2 else 1) d) rest
        | none => (cook template .plain rest).map (c.toNat :: ·)
  | .hex left value, c :: rest =>
    match escapeDigit? c rest with
    | .error flaw => .error flaw
    | .ok none => cook template (.hex left value) rest
    | .ok (some d) =>
      if left ≤ 1 then (cook template .plain rest).map ((value * 16 + d) :: ·)
      else cook template (.hex (left - 1) (value * 16 + d)) rest
  | .unicode, c :: rest =>
    if c == '{' then cook template (.braces 0 0) rest
    else match escapeDigit? c rest with
      | .error flaw => .error flaw
      | .ok none => cook template (.hex 4 0) rest
      | .ok (some d) => cook template (.hex 3 d) rest
  | .braces digits value, c :: rest =>
    if c == '}' then
      if digits == 0 then .error .fatal else (cook template .plain rest).map (value :: ·)
    else match escapeDigit? c rest with
      | .error flaw => .error flaw
      | .ok none => cook template (.braces digits value) rest
      | .ok (some d) =>
        if value * 16 + d > 0x10FFFF then .error .fatal
        else cook template (.braces (digits + 1) (value * 16 + d)) rest
  | .octal left value, c :: rest =>
    match octalDigit? c with
    | some d =>
      if left ≤ 1 then (cook template .plain rest).map ((value * 8 + d) :: ·)
      else cook template (.octal (left - 1) (value * 8 + d)) rest
    | none => (plain c rest).map (value :: ·)
where
  /-- One character outside every escape. -/
  plain (c : Char) (rest : List Char) : Except Flaw (List Nat) :=
    if c == '\\' then cook template .backslash rest
    else if template && c == '\r' then (cook template .afterReturn rest).map (10 :: ·)
    else (cook template .plain rest).map (c.toNat :: ·)

/-- Joins surrogate pairs; `none` when one stands alone. -/
def joinUnits : List Nat → Option (List Char)
  | [] => some []
  | [unit] => if 0xD800 ≤ unit ∧ unit ≤ 0xDFFF then none else some [Char.ofNat unit]
  | unit :: next :: rest =>
    if 0xD800 ≤ unit ∧ unit ≤ 0xDBFF then
      if 0xDC00 ≤ next ∧ next ≤ 0xDFFF then
        (Char.ofNat (0x10000 + (unit - 0xD800) * 0x400 + (next - 0xDC00)) :: ·) <$> joinUnits rest
      else none
    else if 0xDC00 ≤ unit ∧ unit ≤ 0xDFFF then none
    else (Char.ofNat unit :: ·) <$> joinUnits (next :: rest)

/-- The text of decoded units, if it is one. -/
def textOfUnits (units : List Nat) : Option String :=
  (joinUnits units).map String.ofList

/-- Splits at the first `quote` that no backslash escapes. A line end outside an escape ends the
search without success. -/
def splitQuoted (quote : Char) : List Char → Option (List Char × List Char)
  | [] => none
  | '\\' :: '\r' :: '\n' :: rest =>
    (fun (raw, rest) => ('\\' :: '\r' :: '\n' :: raw, rest)) <$> splitQuoted quote rest
  | '\\' :: c :: rest => (fun (raw, rest) => ('\\' :: c :: raw, rest)) <$> splitQuoted quote rest
  | c :: rest =>
    if c == quote then some ([], rest)
    else if c == '\n' || c == '\r' then none
    else (fun (raw, rest) => (c :: raw, rest)) <$> splitQuoted quote rest

/-- The text up to the first line end outside an escape, where a literal without its closing quote ends. -/
def untilLineEnd : List Char → List Char
  | [] => []
  | '\\' :: '\r' :: '\n' :: rest => '\\' :: '\r' :: '\n' :: untilLineEnd rest
  | '\\' :: c :: rest => '\\' :: c :: untilLineEnd rest
  | c :: rest => if c == '\n' || c == '\r' then [] else c :: untilLineEnd rest

/-- The text between two quotes holds an octal escape. `\0` before a digit that is not octal is none. -/
def hasOctalEscape : List Char → Bool
  | '\\' :: '0' :: rest => rest.head?.any (octalDigit? · |>.isSome) || hasOctalEscape rest
  | '\\' :: c :: rest => (octalDigit? c).isSome || hasOctalEscape rest
  | _ :: rest => hasOctalEscape rest
  | [] => false

/-- One stretch of a template: its raw text, whether a substitution follows, and what comes after
the closing backquote or the `${`. -/
def templateChunk : List Char → Option (List Char × Bool × List Char)
  | [] => none
  | '`' :: rest => some ([], false, rest)
  | '$' :: '{' :: rest => some ([], true, rest)
  | '\\' :: c :: rest => (fun (raw, rest) => ('\\' :: c :: raw, rest)) <$> templateChunk rest
  | c :: rest => (fun (raw, rest) => (c :: raw, rest)) <$> templateChunk rest

/-- What follows the flags of a regular expression, none of which may be written twice. -/
def regexpFlags (cs : List Char) : Option (List Char) :=
  let flags := if cs.head?.any Text.isNameStart then cs.takeWhile Text.isNamePart else []
  if flags.all ("dgimsuvy".toList.contains ·) && flags.Nodup then some (cs.drop flags.length) else none

/-- What follows the body and the flags of a regular expression, given what follows its first
slash. A slash inside a bracketed class does not end it. -/
def regexp (inClass : Bool) : List Char → Option (List Char)
  | [] => none
  | '\\' :: c :: rest => if isLineEnd c then none else regexp inClass rest
  | c :: rest =>
    if isLineEnd c then none
    else if c == '[' then regexp true rest
    else if c == ']' then regexp false rest
    else if c == '/' && !inClass then regexpFlags rest
    else regexp inClass rest

/-! ## Names and numbers -/

/-- Where a name reader stands: between characters, or inside a `\u` escape. -/
inductive NameEscape where
  | plain
  | slash
  | unicode
  | hex (left value : Nat)
  | braces (digits : Bool) (value : Nat)

/-- Reads a name; the flags tell whether a character has been read and whether an escape was used. It
is noted if an escape gives a character that no name has in it. -/
def readName : NameEscape → Bool → Bool → List Char → Except Flaw (List Char × Bool × List Char)
  | .plain, _, escaped, [] => .ok ([], escaped, [])
  | .plain, started, escaped, c :: rest =>
    if c == '\\' then readName .slash started true rest
    else if (if started then Text.isNamePart c else Text.isNameStart c) then
      (fun (name, rest) => (c :: name, rest)) <$> readName .plain true escaped rest
    else .ok ([], escaped, c :: rest)
  | .slash, started, escaped, 'u' :: rest => readName .unicode started escaped rest
  | .unicode, started, escaped, c :: rest =>
    if c == '{' then readName (.braces false 0) started escaped rest
    else match escapeDigit? c rest with
      | .error flaw => .error flaw
      | .ok none => readName (.hex 4 0) started escaped rest
      | .ok (some d) => readName (.hex 3 d) started escaped rest
  | .hex left value, started, escaped, c :: rest =>
    match escapeDigit? c rest with
    | .error flaw => .error flaw
    | .ok none => readName (.hex left value) started escaped rest
    | .ok (some d) =>
      if left ≤ 1 then finish (value * 16 + d) escaped rest
      else readName (.hex (left - 1) (value * 16 + d)) started escaped rest
  | .braces digits value, started, escaped, c :: rest =>
    if c == '}' then if digits then finish value escaped rest else .error .fatal
    else match escapeDigit? c rest with
      | .error flaw => .error flaw
      | .ok none => readName (.braces digits value) started escaped rest
      | .ok (some d) =>
        if value * 16 + d > 0x10FFFF then .error .fatal
        else readName (.braces true (value * 16 + d)) started escaped rest
  | .slash, _, _, _ | .unicode, _, _, [] | .hex _ _, _, _, [] | .braces _ _, _, _, [] => .error .fatal
where
  /-- The character an escape stands for, and the rest of the name. -/
  finish (value : Nat) (escaped : Bool) (rest : List Char) :
      Except Flaw (List Char × Bool × List Char) :=
    let c := Char.ofNat value
    if Text.isNamePart c then
      (fun (name, rest) => (c :: name, rest)) <$> readName .plain true escaped rest
    else .error .noted

/-- Digits with underscores among them. -/
structure Digits where
  read : List Char
  rest : List Char

/-- The digits at the front of a text, of which there may be none. -/
def digits (isDigit : Char → Bool) (cs : List Char) : Digits :=
  let part := fun c => isDigit c || c == '_'
  ⟨cs.takeWhile part, cs.dropWhile part⟩

namespace Digits

/-- An underscore among the digits has no digit behind it. -/
def loose (digits : Digits) : Bool := scan digits.read
where
  scan : List Char → Bool
    | ['_'] => true
    | '_' :: '_' :: _ => true
    | _ :: rest => scan rest
    | [] => false

/-- There are digits, and not only underscores. -/
def any (digits : Digits) : Bool := digits.read.any (· != '_')

end Digits

/-- The token of a number with these digits. Without `complete` something is missing or too much. -/
def numberToken (token : Token) (parts : List Digits) (complete : Bool) (rest : List Char) :
    Token × List Char :=
  if parts.any Digits.loose then (.flawed, rest) else if complete then (token, rest) else (.bad, rest)

/-- No name begins here, which a number may not run into. -/
def noName (rest : List Char) : Bool := !rest.head?.any Text.isNameStart

/-- The exponent of a decimal number, if there is one. -/
def exponent (cs : List Char) : Option Digits :=
  match cs with
  | 'e' :: rest | 'E' :: rest =>
    match rest with
    | '+' :: rest | '-' :: rest => some (digits Char.isDigit rest)
    | rest => some (digits Char.isDigit rest)
  | _ => none

/-- Reads a number that starts with a digit, or with a point before a digit. -/
def readNumber (cs : List Char) : Token × List Char :=
  match cs with
  | '0' :: 'x' :: rest | '0' :: 'X' :: rest => radix (digits (fun c => (hexDigit? c).isSome) rest)
  | '0' :: 'o' :: rest | '0' :: 'O' :: rest => radix (digits (fun c => (octalDigit? c).isSome) rest)
  | '0' :: 'b' :: rest | '0' :: 'B' :: rest => radix (digits (fun c => c == '0' || c == '1') rest)
  | cs =>
    let whole := digits Char.isDigit cs
    let leading := whole.read.head? == some '0' && whole.read.length > 1
    -- Octal digits alone would make it an octal number of the old kind; `089` is decimal.
    if leading && whole.read.all fun c => (octalDigit? c).isSome || c == '_' then
      numberToken .flawed [whole] (noName whole.rest) whole.rest
    else match whole.rest, leading with
      | 'n' :: rest, false => numberToken .bigint [whole] true rest
      | '.' :: rest, _ =>
        let fraction := digits Char.isDigit rest
        decimal leading [whole, fraction] fraction.rest
      | rest, _ => decimal leading [whole] rest
where
  /-- A number of another radix than ten, behind its prefix. -/
  radix (whole : Digits) : Token × List Char :=
    match whole.rest with
    | 'n' :: rest => numberToken .bigint [whole] whole.any rest
    | rest => numberToken (.number false) [whole] (whole.any && noName rest) rest
  /-- A decimal number from its exponent on. -/
  decimal (leading : Bool) (parts : List Digits) (rest : List Char) : Token × List Char :=
    match exponent rest with
    | some power =>
      numberToken (.number leading) (power :: parts) (power.any && noName power.rest) power.rest
    | none => numberToken (.number leading) parts (noName rest) rest

/-! ## Marks -/

/-- The marks that need not be told apart by what follows, longest first. `>` is read alone. -/
def marks : List (List Char) :=
  ["...", "===", "!==", "**=", "<<=", "&&=", "||=", "??=",
    "=>", "==", "!=", "<=", "<<", "++", "--", "+=", "-=", "*=", "/=", "%=", "&=", "|=", "^=",
    "**", "&&", "||", "??",
    "\x7b", "\x7d", "(", ")", "[", "]", ";", ",", "<", ">", "+", "-", "*", "/", "%", "&", "|", "^",
    "!", "~", "?", ":", "=", ".", "@", "`"].map String.toList

/-- Reads the longest mark. `?.` before a digit is a `?`. -/
def readMark (cs : List Char) : Token × List Char :=
  match cs with
  | '?' :: '.' :: rest =>
    if rest.head?.any Char.isDigit then (.mark "?", '.' :: rest) else (.mark "?.", rest)
  | cs =>
    match marks.find? (·.isPrefixOf cs) with
    | some mark => (.mark (String.ofList mark), cs.drop mark.length)
    | none => (.bad, cs)

/-- The operator that starts with the `>` in front. -/
def angleOperator (cs : List Char) : String × List Char :=
  match [">>>=", ">>>", ">>=", ">>", ">="].map String.toList |>.find? (·.isPrefixOf cs) with
  | some mark => (String.ofList mark, cs.drop mark.length)
  | none => (">", cs.drop 1)

/-- Reads the token at the front of `cs`, which holds no blanks there. -/
def readToken (cs : List Char) : Token × List Char :=
  match cs with
  | [] => (.eof, [])
  | c :: rest =>
    if Text.isNameStart c || c == '\\' then
      match readName .plain false false cs with
      | .ok (name, escaped, rest) => (.word (String.ofList name) escaped, rest)
      | .error flaw => (flaw.token, rest)
    else if c == '#' then
      -- What is wrong with a private name is no error before a rule asks for one.
      match readName .plain false false rest with
      | .ok (d :: name, _, rest) => (.privateName (String.ofList (d :: name)), rest)
      | _ => (.bad, rest)
    else if c == '\'' || c == '"' then
      match splitQuoted c rest with
      | some (raw, rest) =>
        match cook false .plain raw with
        | .ok units => (.text (textOfUnits units), rest)
        | .error flaw => (flaw.token, rest)
      | none =>
        -- It is noted that the quote is missing, unless an escape ends the token before.
        match cook false .plain (untilLineEnd rest) with
        | .ok _ => (.flawed, rest)
        | .error flaw => (flaw.token, rest)
    else if c.isDigit || (c == '.' && rest.head?.any Char.isDigit) then readNumber cs
    else readMark cs

end MessageKeys.Script
