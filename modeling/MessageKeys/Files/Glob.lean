import MessageKeys.Files.Pattern
import MessageKeys.Files.Tree
/-!
# Files.Glob — files by patterns

A `Glob` is a pattern cut at its slashes. `Glob.expand` lists what it stands for on a disk. A part that
stands for one name only is looked up as it is; any other one is tried on the names in a directory, in
ascending order. `**` goes through a directory and everything below it, what a directory holds after the
directory itself. `.` and `..` are not among the names, but a part that starts with a dot is tried on
them first. Paths that start in the working directory carry no `./`.
-/
namespace MessageKeys.Files

/-- A pattern of paths: whether it starts at the root, its parts, and whether only directories count. -/
structure Glob where
  isAbsolute : Bool
  parts : List Pattern
  directoriesOnly : Bool
deriving DecidableEq, Repr

namespace Glob

/-- Pieces without the last one if that is empty. -/
def dropEmptyEnd (pieces : List (List Char)) : List (List Char) :=
  if pieces.getLast? == some [] then pieces.dropLast else pieces

/-- Of several `**` in a row one is left. -/
def collapse : List Pattern → List Pattern
  | first :: second :: rest =>
    if first.isRecursive && second.isRecursive then collapse (second :: rest)
    else first :: collapse (second :: rest)
  | parts => parts

/-- Reads a pattern. It has to be one as a whole and in each of its parts. -/
def ofChars? (text : List Char) : Option Glob :=
  if (Pattern.ofChars? text).isNone then none
  else
    let isAbsolute := text.head? == some '/'
    let relative := if isAbsolute then text.tail else text
    let pieces := if relative.isEmpty then [[]] else dropEmptyEnd (Text.split '/' relative)
    (pieces.mapM Pattern.ofChars?).map fun parts =>
      ⟨isAbsolute, collapse parts, text.getLast? == some '/'⟩

/-- The working directory itself, spelled as a `.`. -/
def isCurrent (path : PathName) : Bool := path.components == [.current]

/-- A name seen from a path. -/
def child (path : PathName) (name : String) : PathName := if isCurrent path then ⟨name⟩ else path.join ⟨name⟩

/-- The path counts as an answer. -/
def counts (directoriesOnly : Bool) (disk : Disk) (path : PathName) : Bool :=
  !directoriesOnly || disk.isDirectory path

/-- What lies in a directory, by path and name. -/
def listing (disk : Disk) (path : PathName) : List (PathName × String) :=
  match disk.locate path with
  | .ok location => (disk.tree.children location).map fun entry => (child path entry.1, entry.1)
  | .error _ => []

/-- Everything below a directory, by path and name. -/
def everything (disk : Disk) (path : PathName) : List (PathName × String) :=
  match disk.locate path with
  | .ok location => (disk.tree.below location).map fun entry =>
      (child path (Text.joinStrings '/' entry.1), entry.1.getLast?.getD "")
  | .error _ => []

/-- Of `..` and `.` those that a part that starts with a dot stands for. -/
def dotNames (pattern : Pattern) : List String :=
  if pattern.head? == some (.char '.') then
    ["..", "."].filter fun name => pattern.isMatch name.toList
  else []

/-- A literal part leads on from a path: `.` and `..` from any directory, another one if it is there. -/
def leadsOn (disk : Disk) (path next : PathName) (text : String) : Bool :=
  if text == "." || text == ".." then disk.isDirectory path else disk.exists? next

/-- What the parts of a pattern stand for, seen from a path. -/
def expandFrom (directoriesOnly : Bool) (disk : Disk) : List Pattern → PathName → List PathName
  | [], path => if counts directoriesOnly disk path then [path] else []
  | part :: parts, path =>
    match part.literal? with
    | some text =>
      let text := String.ofList text
      let next := child path text
      if leadsOn disk path next text then expandFrom directoriesOnly disk parts next else []
    | none =>
      if !disk.isDirectory path then []
      else if part.isRecursive then
        match parts with
        | [] => ((everything disk path).filter fun found => disk.isDirectory found.1).map (·.1)
        | named :: parts => (everything disk path).flatMap fun found =>
            if named.isMatch found.2.toList then expandFrom directoriesOnly disk parts found.1 else []
      else
        (dotNames part).flatMap (fun name =>
          expandFrom directoriesOnly disk parts (path.join ⟨name⟩)) ++
        (listing disk path).flatMap fun found =>
          if part.isMatch found.2.toList then expandFrom directoriesOnly disk parts found.1 else []

/-- What a pattern stands for on a disk, in order. -/
def expand (glob : Glob) (disk : Disk) : List PathName :=
  expandFrom glob.directoriesOnly disk glob.parts ⟨if glob.isAbsolute then "/" else "."⟩

end Glob
end MessageKeys.Files
