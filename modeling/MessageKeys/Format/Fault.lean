import MessageKeys.Json.Printer
/-!
# Format.Fault — why a file cannot be read or written

`ReadFault` says why a text is no table in some format, `KeyConflict` why a table has no text.
-/
namespace MessageKeys

/-- Why a line of a Gettext file is refused. -/
inductive LineFault where
  | valueWithoutKey
  | unexpected (line : String)
  | notQuoted (text : String)
  | danglingEscape
deriving DecidableEq, Repr

def LineFault.message : LineFault → String
  | .valueWithoutKey => "msgstr without msgid"
  | .unexpected line => "unexpected content '" ++ line ++ "'"
  | .notQuoted text => "expected a quoted string, found '" ++ text ++ "'"
  | .danglingEscape => "dangling escape"

/-- Why a text is no table of keys and wordings. -/
inductive ReadFault where
  | notJson
  | rootNotObject
  | unsupportedValue (key : String) (found : Json)
  | badLine (number : Nat) (fault : LineFault)
deriving Repr

def ReadFault.message : ReadFault → String
  | .notJson => "Failed to parse JSON"
  | .rootNotObject => "Root of JSON file must be an object"
  | .unsupportedValue key found =>
    "Unsupported value for key '" ++ key ++ "': expected a string, found " ++ found.toCompactString
  | .badLine number fault => "line " ++ toString number ++ ": " ++ fault.message

/-- A key that another key uses as the name of a group. -/
structure KeyConflict where
  key : String
  group : String
deriving DecidableEq, Repr

def KeyConflict.message (conflict : KeyConflict) : String :=
  "Key '" ++ conflict.key ++ "' conflicts with '" ++ conflict.group ++
    "': a key can't hold both a value and nested keys"

end MessageKeys
