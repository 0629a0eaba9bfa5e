import MessageKeys.Json.Basic
import MessageKeys.Json.Token
/-!
# Json.Reader — reading JSON texts

The tokens of a text are read from left to right. What is open is a stack of `Frame`s, innermost first,
so that every token is looked at once. `Raw.ofString?` is what a text says, `Json.ofString?` the value
it stands for.
-/
namespace MessageKeys.Json

/-- An open array or object: what it holds so far, latest first, and of an object the name of the field
whose value comes next. -/
inductive Frame where
  | array (before : List Raw)
  | object (before : List (Option String × Raw)) (name : Option String)

mutual

/-- Reads a value. -/
def readValue (stack : List Frame) : List Token → Option Raw
  | .null :: rest => afterValue stack .null rest
  | .bool value :: rest => afterValue stack (.bool value) rest
  | .number value :: rest => afterValue stack (.number value) rest
  | .string text :: rest => afterValue stack (.string text) rest
  | .openArray :: .closeArray :: rest => afterValue stack (.array []) rest
  | .openArray :: rest => readValue (.array [] :: stack) rest
  | .openObject :: .closeObject :: rest => afterValue stack (.object []) rest
  | .openObject :: .string name :: .colon :: rest => readValue (.object [] name :: stack) rest
  | _ => none

/-- Goes on after a value. -/
def afterValue (stack : List Frame) (value : Raw) : List Token → Option Raw
  | [] =>
    match stack with
    | [] => some value
    | _ => none
  | .closeArray :: rest =>
    match stack with
    | .array before :: stack => afterValue stack (.array (value :: before).reverse) rest
    | _ => none
  | .closeObject :: rest =>
    match stack with
    | .object before name :: stack =>
      afterValue stack (.object ((name, value) :: before).reverse) rest
    | _ => none
  | .comma :: .string name :: .colon :: rest =>
    match stack with
    | .object before last :: stack => readValue (.object ((last, value) :: before) name :: stack) rest
    | _ => none
  | .comma :: rest =>
    match stack with
    | .array before :: stack => readValue (.array (value :: before) :: stack) rest
    | _ => none
  | _ => none

end

/-- What a text says. -/
def Raw.ofString? (text : String) : Option Raw := (tokens? text.toList).bind (readValue [])

end Json

/-- The value a text stands for. -/
def Json.ofString? (text : String) : Option Json :=
  (Json.Raw.ofString? text).bind (Json.Raw.value? Json.maxDepth)

end MessageKeys
