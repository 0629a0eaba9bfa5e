import MessageKeys.Text.Split
/-!
# Files.PathName — the text of a path

A path is kept as it was written. Its parts lie between slashes; an empty part and the part `.` mean
nothing, except that a `.` in front is kept. `components` lists the parts that mean something, so two
spellings of one path have the same components.
-/
namespace MessageKeys.Files

/-- A part of a path that means something. -/
inductive Component where
  | root
  | current
  | parent
  | name (text : String)
deriving DecidableEq, Repr

/-- A path as it is written. -/
structure PathName where
  text : String
deriving DecidableEq, Repr

/-- A part that means nothing inside a path. -/
def isVoid (segment : String) : Bool := segment.isEmpty || segment == "."

namespace PathName

/-- The parts between slashes. There is always one. -/
def segments (path : PathName) : List String := Text.splitString '/' path.text

def isAbsolute (path : PathName) : Bool := path.text.toList.head? == some '/'

/-- Whether the path starts with the part `.`. -/
def startsAtCurrent (path : PathName) : Bool := path.segments.head? == some "."

/-- The parts after the slash or the `.` in front of a path, void ones included. -/
def body (path : PathName) : List String :=
  if path.isAbsolute || path.startsAtCurrent then path.segments.tail else path.segments

/-- What stands in front of the body. -/
def front (path : PathName) : List Component :=
  if path.isAbsolute then [.root] else if path.startsAtCurrent then [.current] else []

/-- The component that a part stands for. -/
def componentOf (segment : String) : Component := if segment == ".." then .parent else .name segment

/-- The parts that mean something. -/
def components (path : PathName) : List Component :=
  path.front ++ (path.body.filter (!isVoid ·)).map componentOf

/-- The path of a front and the parts after it. -/
def ofBody (front : List Component) (body : List String) : PathName :=
  match front.head?, body with
  | some .root, _ => ⟨"/" ++ Text.joinStrings '/' body⟩
  | some _, [] => ⟨"."⟩
  | some _, _ => ⟨"./" ++ Text.joinStrings '/' body⟩
  | none, _ => ⟨Text.joinStrings '/' body⟩

/-- Parts without the void ones at the end. -/
def trimEnd (body : List String) : List String := (body.reverse.dropWhile isVoid).reverse

/-- The paths that are left when parts are taken off the end, one after the other. The parts come last
first. -/
def parentsOf (front : List Component) : List String → List PathName
  | [] => if front.head? == some .current then [⟨""⟩] else []
  | segment :: before =>
    if isVoid segment then parentsOf front before
    else ofBody front (trimEnd before.reverse) :: parentsOf front before

/-- The paths above a path, the nearest one first. -/
def parents (path : PathName) : List PathName := parentsOf path.front path.body.reverse

/-- The path without its last part; none for a root and for a path without parts. -/
def parent? (path : PathName) : Option PathName := path.parents.head?

/-- The last part of a path if it is a name. -/
def fileName? (path : PathName) : Option String := (trimEnd path.body).getLast?.filter (· != "..")

/-- What follows the last dot of the file name, unless there is none or it is the first character. -/
def extension? (path : PathName) : Option String :=
  path.fileName?.bind fun name =>
    match Text.splitString '.' name with
    | [] | [_] | ["", _] => none
    | pieces => pieces.getLast?

/-- The second path seen from the first one. -/
def join (base path : PathName) : PathName :=
  if path.isAbsolute || base.text.isEmpty then path
  else if base.text.toList.getLast? == some '/' then ⟨base.text ++ path.text⟩
  else ⟨base.text ++ "/" ++ path.text⟩

/-- The path without a `.` in front. Where there is one, void parts around the rest go too. -/
def withoutCurrent (path : PathName) : PathName :=
  if path.startsAtCurrent then
    ⟨Text.joinStrings '/' (trimEnd (path.body.dropWhile isVoid))⟩
  else path

end PathName
end MessageKeys.Files
