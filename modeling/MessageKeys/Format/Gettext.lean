import MessageKeys.Format.Fault
import MessageKeys.KeyTable
import MessageKeys.Text.Blank
import MessageKeys.Text.Split
/-!
# Format.Gettext — tables as Gettext templates

A template starts with a header and has a `msgid` and a `msgstr` line for every key. Reading goes line
by line: a `msgid` line opens an entry, and a line that holds only a quoted text goes on with the field
that was written last. Contexts and plural forms are passed over, as are comments and blank lines. An
entry without a key, such as the header, is no entry, and an empty `msgstr` is no wording.
-/
namespace MessageKeys.Gettext

/-- What every template starts with. -/
def header : String :=
  "msgid \"\"\nmsgstr \"\"\n\"Content-Type: text/plain; charset=utf-8\\n\"\n" ++
    "\"Content-Transfer-Encoding: 8bit\\n\"\n"

/-- A character between quotes. -/
def escapeChar : Char → List Char
  | '\\' => ['\\', '\\']
  | '"' => ['\\', '"']
  | '\n' => ['\\', 'n']
  | '\r' => ['\\', 'r']
  | '\t' => ['\\', 't']
  | c => [c]

def escape (text : List Char) : List Char := text.flatMap escapeChar

/-- What a backslash and this character stand for. -/
def escaped : Char → Char
  | 'n' => '\n'
  | 'r' => '\r'
  | 't' => '\t'
  | c => c

/-- The text between quotes; none if a backslash comes last. -/
def unescape? : List Char → Option (List Char)
  | [] => some []
  | ['\\'] => none
  | '\\' :: c :: rest => (unescape? rest).map (escaped c :: ·)
  | c :: rest => (unescape? rest).map (c :: ·)

/-- The lines of an entry. -/
def entryText (key : String) (value : Wording) : List Char :=
  "\nmsgid \"".toList ++ escape key.toList ++ "\"\nmsgstr \"".toList ++
    escape (value.getD "").toList ++ "\"\n".toList

/-- The template of a table. -/
def render (table : KeyTable) : String :=
  String.ofList (header.toList ++ table.toList.flatMap fun (key, value) => entryText key value)

/-! ## Reading -/

/-- The field of an entry that was written last. -/
inductive Field where
  | key
  | value
  | ignored
deriving DecidableEq, Repr

/-- An entry that is being read. -/
structure Entry where
  key : List Char
  value : Option (List Char)
  field : Field
deriving DecidableEq, Repr

namespace Entry

/-- More text for the field that was written last. -/
def append (entry : Entry) (text : List Char) : Entry :=
  match entry.field with
  | .key => { entry with key := entry.key ++ text }
  | .value => { entry with value := some (entry.value.getD [] ++ text) }
  | .ignored => entry

/-- What the entry adds to the table. -/
def toPair? (entry : Entry) : Option (String × Wording) :=
  if entry.key.isEmpty then none
  else some (String.ofList entry.key, (entry.value.filter (!·.isEmpty)).map String.ofList)

end Entry

/-- The text in a quoted string, blanks around it aside. -/
def unquote (text : List Char) : Except LineFault (List Char) :=
  let text := Text.trimChars text
  match text with
  | '"' :: rest =>
    if rest.getLast? == some '"' then
      match unescape? rest.dropLast with
      | some text => .ok text
      | none => .error .danglingEscape
    else .error (.notQuoted (String.ofList text))
  | _ => .error (.notQuoted (String.ofList text))

/-- The entries that have been read, latest first, and the one that is being read. -/
structure Reading where
  done : List (String × Wording)
  current : Option Entry
deriving DecidableEq, Repr

namespace Reading

/-- Ends the entry that is being read. -/
def close (reading : Reading) : List (String × Wording) :=
  (reading.current.bind (·.toPair?)).toList ++ reading.done

/-- What follows a keyword at the front of a line. -/
def after? (keyword : String) (line : List Char) : Option (List Char) :=
  if keyword.toList.isPrefixOf line then some (line.drop keyword.toList.length) else none

/-- The line starts with one of the keywords of contexts and plural forms. -/
def isIgnored (line : List Char) : Bool :=
  ["msgctxt ", "msgid_plural ", "msgstr["].any fun keyword => keyword.toList.isPrefixOf line

/-- Reads a line without blanks around it. -/
def step (reading : Reading) (line : List Char) : Except LineFault Reading :=
  if line.isEmpty || line.head? == some '#' then .ok reading
  else
    match after? "msgid " line with
    | some rest => (unquote rest).map fun key => ⟨reading.close, some ⟨key, none, .key⟩⟩
    | none =>
      match after? "msgstr " line with
      | some rest =>
        match reading.current with
        | none => .error .valueWithoutKey
        | some entry => (unquote rest).map fun value =>
            { reading with current := some { entry with value := some value, field := .value } }
      | none =>
        if isIgnored line then
          .ok { reading with
            current := reading.current.map fun entry => { entry with field := .ignored } }
        else if line.head? == some '"' then
          (unquote line).map fun text =>
            { reading with current := reading.current.map (·.append text) }
        else .error (.unexpected (String.ofList line))

/-- Reads lines, of which the first has this number. -/
def run (reading : Reading) (number : Nat) : List (List Char) → Except ReadFault Reading
  | [] => .ok reading
  | line :: lines =>
    match reading.step (Text.trimChars line) with
    | .ok reading => run reading (number + 1) lines
    | .error fault => .error (.badLine number fault)

end Reading

/-- The table that a template holds. -/
def parse (text : String) : Except ReadFault KeyTable :=
  ((Reading.mk [] none).run 1 (Text.split '\n' text.toList)).map fun reading =>
    KeyTable.ofList reading.close.reverse

end MessageKeys.Gettext
