import MessageKeys.Run
/-!
# Main — the program

Takes a picture of the directories that a run can look at, lets `run` work on it, and brings the changes
to the real files. Names are pictured first; the contents only of those files that are read.
-/
namespace MessageKeys.Program
open Files (PathName Disk Entry Content Location)

/-- What directories are pictured down to. -/
def maxDepth : Nat := 64

/-- The place of a path as names, once `..` is taken back. -/
def locationOf (path : PathName) : Location :=
  (path.components.foldl (fun names component =>
    match component with
    | .root => []
    | .current => names
    | .parent => names.tail
    | .name name => name :: names) []).reverse

/-- The text of a place. -/
def pathOf (location : Location) : String := "/" ++ Text.joinStrings '/' location

/-- The names in a real directory. -/
def namesIn (location : Location) : IO (List String) := do
  let entries ← ((← IO.currentDir) / pathOf location).readDir
  return entries.toList.map (·.fileName)

/-- What a file holds. -/
def contentOf (bytes : ByteArray) : Content :=
  match String.fromUTF8? bytes with
  | some text => .text text
  | none => .bytes bytes.toList

/-- Pictures a directory and, down to a depth, what lies in it. Files have no contents yet. -/
def picture (location : Location) : Nat → IO (List (Location × Entry))
  | 0 => return []
  | depth + 1 => do
    let names ← try namesIn location catch _ => return [(location, .file (.text ""))]
    let inside ← names.mapM fun name => picture (location ++ [name]) depth
    return (location, .directory) :: inside.flatten

/-- Puts a picture into a tree. -/
def add (tree : Files.Tree) (entries : List (Location × Entry)) : Files.Tree :=
  entries.foldl (fun tree (location, entry) =>
    if (tree.at? location).isSome then tree else tree.put location entry) tree

/-- Puts the directories above a place into a tree, and what lies in them by name if asked for. -/
def addAbove (tree : Files.Tree) (location : Location) : Files.Tree :=
  (List.range location.length).foldl (fun tree count =>
    let above := location.take count
    if (tree.at? above).isSome then tree else tree.put above .directory) tree

/-- Pictures a place if there is something. -/
def addPlace (tree : Files.Tree) (location : Location) (depth : Nat) : IO Files.Tree := do
  try
    discard (namesIn location)
    return add (addAbove tree location) (← picture location depth)
  catch _ =>
    try
      let bytes ← IO.FS.readBinFile (pathOf location)
      return (addAbove tree location).put location (.file (contentOf bytes))
    catch _ => return tree

/-- Pictures the configurations and repositories in a directory and those above it. -/
def addConfigs (tree : Files.Tree) (location : Location) : IO Files.Tree :=
  (List.range (location.length + 1)).foldlM (fun tree count => do
    let tree ← addPlace tree (location.take count ++ [configFileName]) 1
    addPlace tree (location.take count ++ [".git"]) 1) (addAbove tree (location ++ [""]))

/-- How far a pattern leads up from its root. -/
def stepsUp (pattern : String) : Nat := (Text.splitString '/' pattern).count ".."

/-- Reads the contents of a file into a tree. -/
def addContent (disk : Disk) (path : PathName) : IO Disk := do
  match disk.locate path with
  | .error _ => return disk
  | .ok location =>
    if disk.tree.isDirectory location then return disk
    else
      try
        let bytes ← IO.FS.readBinFile (pathOf location)
        return { disk with tree := disk.tree.put location (.file (contentOf bytes)) }
      catch _ => return disk

/-- Pictures what settings can look at. -/
def addSettings (disk : Disk) (settings : Settings) : IO Disk := do
  let here := disk.currentPath
  let up := (settings.patterns.map stepsUp).foldl max 0
  let tree ← settings.inputs.foldlM (fun tree input =>
    let location := locationOf (here.join input)
    addPlace tree (location.take (location.length - up)) maxDepth) disk.tree
  let tree ← settings.outputs.foldlM (fun tree output => do
    let location := locationOf (here.join output)
    let tree ← (List.range location.length).foldlM (fun tree count =>
      addPlace tree (location.take (count + 1)) 1) tree
    addPlace tree location 2) tree
  let disk := { disk with tree }
  let sources := match disk.resolve settings.inputs settings.patterns with
    | .ok found => found.files
    | .error _ => []
  let outputs := settings.outputs.map (settings.toJob.outputFile disk)
  (sources ++ outputs).foldlM addContent disk

/-- Brings the changes between two pictures to the real files. -/
def store (before after : Files.Tree) : IO Unit :=
  after.below [] |>.forM fun (location, entry) => do
    if before.at? location != some entry then
      match entry with
      | .directory => IO.FS.createDirAll (pathOf location)
      | .file (.text text) => IO.FS.writeFile (pathOf location) text
      | .file (.bytes _) => return

/-- A run with these arguments in the working directory. Gives the exit code. -/
def start (arguments : Arguments) : IO UInt32 := do
  let current := locationOf ⟨(← IO.currentDir).toString⟩
  let disk : Disk := ⟨← addConfigs Files.Tree.empty current, current⟩
  let disk ← match loadConfig disk disk.currentPath with
    | .error _ => pure disk
    | .ok loaded => addSettings disk (Settings.ofLoaded arguments disk.currentPath loaded)
  let outcome := run arguments disk
  store disk.tree outcome.disk.tree
  IO.eprint outcome.warnings
  IO.print outcome.report
  match outcome.failure with
  | none => return 0
  | some failure =>
    IO.eprintln ("Error: " ++ failure.message)
    return 2

/-- What is told of arguments that are not carried out. -/
def explain : Arguments.Fault → String
  | .conflict => "an argument cannot be used twice or together with another one"
  | .invalidValue => "a value is missing or not allowed"
  | .unknownArgument => "an argument is not known"
  | .tooManyValues => "a flag takes no value"
  | .helpAsked =>
    "options: -i INPUT... -o OUTPUT... -p PATTERN... -f FORMAT --format-indentation TEXT " ++
      "--service-name NAME --method-name NAME -r -s -c -k -n -v -h -V"
  | .versionAsked => "0.1.0"

end MessageKeys.Program

def main (arguments : List String) : IO UInt32 := do
  match MessageKeys.Arguments.ofList arguments with
  | .ok arguments => MessageKeys.Program.start arguments
  | .error fault =>
    let text := MessageKeys.Program.explain fault
    if fault == .helpAsked || fault == .versionAsked then
      IO.println text
      return 0
    else
      IO.eprintln ("error: " ++ text)
      return 2
