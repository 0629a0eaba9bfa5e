import MessageKeys.Json.Number
/-!
# Json — values of JSON texts

A `Json` value has objects with their fields in order, no name twice. A text is first read as a
`Json.Raw`, which keeps whatever can be written: repeated names, strings with unpaired surrogates and
numbers that are too large. `Raw.value?` is the value a text stands for. It refuses strings and numbers
that stand for nothing, and containers nested deeper than `Json.maxDepth`; of several fields with one
name the last value counts, in the place of the first.
-/
namespace MessageKeys

/-- A JSON value. -/
inductive Json where
  | null
  | bool (value : Bool)
  | number (value : Json.Number)
  | string (text : String)
  | array (items : List Json)
  | object (fields : List (String × Json))
deriving Repr

namespace Json

/-- How deep arrays and objects may be nested. -/
def maxDepth : Nat := 127

/-- What a JSON text says. A string that is no text and a number that is too large stand for
nothing. -/
inductive Raw where
  | null
  | bool (value : Bool)
  | number (value : Option Number)
  | string (text : Option String)
  | array (items : List Raw)
  | object (fields : List (Option String × Raw))
deriving Repr

/-- Gives a field a value. One that is present keeps its place. -/
def putField (fields : List (String × Json)) (name : String) (value : Json) : List (String × Json) :=
  if fields.any (·.1 == name) then
    fields.map fun field => if field.1 == name then (name, value) else field
  else fields ++ [(name, value)]

namespace Raw

mutual

/-- The value that a text stands for, if arrays and objects may be nested to this depth. -/
def value? (depth : Nat) : Raw → Option Json
  | .null => some .null
  | .bool value => some (.bool value)
  | .number value => value.map .number
  | .string text => text.map .string
  | .array items =>
    match depth with
    | 0 => none
    | depth + 1 => (values? depth items).map .array
  | .object fields =>
    match depth with
    | 0 => none
    | depth + 1 => (fields? depth [] fields).map .object

/-- The values of several texts. -/
def values? (depth : Nat) : List Raw → Option (List Json)
  | [] => some []
  | item :: items =>
    match value? depth item with
    | none => none
    | some value => (values? depth items).map (value :: ·)

/-- The fields of an object, put behind those that stand before them. -/
def fields? (depth : Nat) (before : List (String × Json)) :
    List (Option String × Raw) → Option (List (String × Json))
  | [] => some before
  | (none, _) :: _ => none
  | (some name, item) :: rest =>
    match value? depth item with
    | none => none
    | some value => fields? depth (putField before name value) rest

end

end Raw
end Json
end MessageKeys
