import MessageKeys.Format.Gettext
import MessageKeys.Format.Nested
/-!
# Format — the formats of an output

A `Format` writes a table of wordings as a text and reads one back. Both JSON formats read alike;
writing fails only where nested objects have no place for a key.
-/
namespace MessageKeys

/-- A format of an output. -/
inductive Format where
  | json
  | namespacedJson
  | pot
deriving DecidableEq, Repr

namespace Format

def all : List Format := [.json, .namespacedJson, .pot]

def name : Format → String
  | .json => "json"
  | .namespacedJson => "namespaced-json"
  | .pot => "pot"

def ofName? (name : String) : Option Format := all.find? (·.name == name)

/-- The extension of its files. -/
def extension : Format → String
  | .json | .namespacedJson => "json"
  | .pot => "pot"

/-- The indentation that is used where none is asked for. -/
def defaultIndentation : String := "\t"

/-- The text of a table. -/
def render (format : Format) (indentation : String) (table : KeyTable) : Except KeyConflict String :=
  match format with
  | .json => .ok (table.toFlatJson.toPrettyString indentation ++ "\n")
  | .namespacedJson =>
    match table.conflict? with
    | some conflict => .error conflict
    | none => .ok (table.toNestedJson.toPrettyString indentation ++ "\n")
  | .pot => .ok (Gettext.render table)

/-- The table that a text holds. -/
def parse (format : Format) (text : String) : Except ReadFault KeyTable :=
  match format with
  | .json | .namespacedJson => KeyTable.ofJsonText text
  | .pot => Gettext.parse text

end Format
end MessageKeys
