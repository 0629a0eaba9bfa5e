import MessageKeys.Format.Fault
import MessageKeys.Json.Reader
import MessageKeys.KeyTable
import MessageKeys.Text.Blank
/-!
# Format.Flat — tables as JSON objects

A table is written as one object, with `null` where there is no wording. Reading accepts nested
objects too: the names on the way to a text, joined by dots, are its key. An empty text is no
wording, and a blank file is an empty table.
-/
namespace MessageKeys

/-- A wording as a JSON value. -/
def Wording.toJson : Wording → Json
  | none => .null
  | some text => .string text

namespace KeyTable

/-- The table as an object with a field for every key. -/
def toFlatJson (table : KeyTable) : Json :=
  .object (table.toList.map fun (key, value) => (key, Wording.toJson value))

end KeyTable

/-- A name below others. -/
def joinKey (path name : String) : String := if path.isEmpty then name else path ++ "." ++ name

namespace Json

mutual

/-- The texts in a value that is reached by this path. -/
def leaves (path : String) : Json → Except ReadFault (List (String × Wording))
  | .null => .ok [(path, none)]
  | .string text => .ok [(path, if text.isEmpty then none else some text)]
  | .object fields => leavesOfFields path fields
  | .bool value => .error (.unsupportedValue path (.bool value))
  | .number value => .error (.unsupportedValue path (.number value))
  | .array items => .error (.unsupportedValue path (.array items))

/-- The texts in fields below this path. -/
def leavesOfFields (path : String) :
    List (String × Json) → Except ReadFault (List (String × Wording))
  | [] => .ok []
  | (name, value) :: fields => do
    let first ← leaves (joinKey path name) value
    let rest ← leavesOfFields path fields
    return first ++ rest

end

end Json

/-- The table that a JSON text holds. -/
def KeyTable.ofJsonText (text : String) : Except ReadFault KeyTable :=
  if (Text.trim text).isEmpty then .ok ∅
  else
    match Json.ofString? text with
    | none => .error .notJson
    | some (.object fields) => (Json.leavesOfFields "" fields).map KeyTable.ofList
    | some _ => .error .rootNotObject

end MessageKeys
