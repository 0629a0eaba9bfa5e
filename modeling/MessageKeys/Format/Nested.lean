import MessageKeys.Format.Flat
import MessageKeys.Text.Split
/-!
# Format.Nested — tables as nested JSON objects

A key is cut at its dots, and each piece but the last one names an object. A key that is also such a
group of another key has no place to be (`conflict?`).
-/
namespace MessageKeys

/-- The groups that a key lies in, outermost first: what stands before each of its dots. -/
def keyGroups : List Char → List (List Char)
  | [] => []
  | c :: rest =>
    let deeper := (keyGroups rest).map (c :: ·)
    if c == '.' then [] :: deeper else deeper

namespace KeyTable

/-- The outermost group of a key that is a key of the table itself. -/
def groupConflict? (table : KeyTable) (key : String) : Option KeyConflict :=
  ((keyGroups key.toList).map String.ofList).find? table.contains |>.map fun group => ⟨key, group⟩

/-- The first key, in order, that lies in a group that is a key too. -/
def conflict? (table : KeyTable) : Option KeyConflict := table.keys.findSome? table.groupConflict?

end KeyTable

namespace Json

/-- Puts a value at the end of a path of names, making the objects on the way. Where something else is
in the way the fields stay as they are. -/
def insertAt (value : Json) : List String → List (String × Json) → List (String × Json)
  | [], fields => fields
  | [name], fields => putField fields name value
  | name :: path, fields =>
    match fields.lookup name with
    | none => putField fields name (.object (insertAt value path []))
    | some (.object inner) => putField fields name (.object (insertAt value path inner))
    | some _ => fields

end Json

/-- The table as nested objects. -/
def KeyTable.toNestedJson (table : KeyTable) : Json :=
  .object (table.toList.foldl (fun fields (key, value) =>
    Json.insertAt (Wording.toJson value) (Text.splitString '.' key) fields) [])

end MessageKeys
