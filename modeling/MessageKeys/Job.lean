import MessageKeys.Extraction
import MessageKeys.Files.Resolve
import MessageKeys.Format
import MessageKeys.PostProcessor
/-!
# Job — from sources to outputs

A job looks through files, merges the keys it finds in order of the files, and brings every output up to
date. First all files are read, then the text of every output is made from what the output held before,
and only when all of that has gone well is anything written.
-/
namespace MessageKeys
open Files (PathName Disk)

/-- A piece of work: where to look, how to look, and what to write. -/
structure Job where
  inputs : List PathName
  outputs : List PathName
  patterns : List String
  /-- Whether what the outputs hold is dropped instead of merged. -/
  replace : Bool
  strategies : List Strategy
  postProcessors : List PostProcessor
  format : Format
  indentation : String
deriving DecidableEq, Repr

namespace Job

/-- Why a job fails. -/
inductive Failure where
  | processorConflict (conflict : PostProcessor.Conflict)
  | invalidPattern (invalid : Files.InvalidPattern)
  | unreadableSource (path : PathName)
  | syntaxError (error : SyntaxError)
  | unreadableOutput (path : PathName)
  | malformedOutput (path : PathName) (fault : ReadFault)
  | unwritableTable (path : PathName) (conflict : KeyConflict)
  | directoryNotMade (path : PathName)
  | notWritten (path : PathName)
deriving Repr

def Failure.message : Failure → String
  | .processorConflict conflict => conflict.message
  | .invalidPattern invalid => invalid.message
  | .unreadableSource path => "Failed to read file: " ++ path.text
  | .syntaxError error => error.message
  | .unreadableOutput path => "Failed to read existing output: " ++ path.text
  | .malformedOutput path fault =>
    "Failed to parse existing output: " ++ path.text ++ ": " ++ fault.message
  | .unwritableTable path conflict =>
    "Failed to compile " ++ path.text ++ ": " ++ conflict.message
  | .directoryNotMade path => "Failed to create directory: " ++ path.text
  | .notWritten path => "Failed to write " ++ path.text

/-- A path and how many keys it has. -/
structure Count where
  path : PathName
  keys : Nat
deriving DecidableEq, Repr

/-- What a job has done. -/
structure Summary where
  files : List Count
  keys : Nat
  outputs : List Count
  unmatched : List String
  skipped : Nat
deriving DecidableEq, Repr

/-! ## Reading -/

/-- The keys of a file on a disk. -/
def extractFile (job : Job) (disk : Disk) (path : PathName) : Except Failure KeyTable :=
  match disk.read? path with
  | none => .error (.unreadableSource path)
  | some text =>
    match extract job.strategies path.text text with
    | .ok table => .ok table
    | .error error => .error (.syntaxError error)

/-- The files a job looks through, each with its keys, and what was met on the way. -/
structure Findings where
  files : List (PathName × KeyTable)
  unmatched : List String
  skipped : Nat

namespace Findings

/-- The keys of all files. -/
def table (findings : Findings) : KeyTable := (findings.files.map (·.2)).foldl KeyTable.merge ∅

end Findings

/-- Looks through all files. -/
def gather (job : Job) (disk : Disk) : Except Failure Findings :=
  match disk.resolve job.inputs job.patterns with
  | .error invalid => .error (.invalidPattern invalid)
  | .ok resolution => do
    let files ← resolution.files.mapM fun path => do return (path, ← job.extractFile disk path)
    return ⟨files, resolution.unmatched, resolution.skipped⟩

/-! ## Outputs -/

/-- The file that an output names: in a directory it is `strings` with the extension of the format. -/
def outputFile (job : Job) (disk : Disk) (output : PathName) : PathName :=
  if disk.isDirectory output then output.join ⟨"strings." ++ job.format.extension⟩ else output

/-- What an output file holds already. -/
def existing (job : Job) (disk : Disk) (path : PathName) : Except Failure KeyTable :=
  if job.replace || !disk.isFile path then .ok ∅
  else
    match disk.read? path with
    | none => .error (.unreadableOutput path)
    | some text =>
      match job.format.parse text with
      | .ok table => .ok table
      | .error fault => .error (.malformedOutput path fault)

/-- Keys without a wording get an empty one. -/
def fill (table : KeyTable) : KeyTable := table.mapValues fun _ value => some (value.getD "")

/-- The table that is written: what was found merged with what the output held, after all processors. Keys
without a wording are written empty unless they are to stay so. -/
def finalTable (postProcessors : List PostProcessor) (extracted existing : KeyTable) : KeyTable :=
  let processed :=
    PostProcessor.apply postProcessors (extracted.merge existing) extracted existing
  if postProcessors.contains .nullAsDefaultValue then processed else fill processed

/-- A file that is ready to be written. -/
structure Prepared where
  path : PathName
  text : String
  keys : Nat
deriving DecidableEq, Repr

/-- Makes an output ready. -/
def prepare (job : Job) (disk : Disk) (extracted : KeyTable) (output : PathName) :
    Except Failure Prepared := do
  let path := job.outputFile disk output
  let table := finalTable job.postProcessors extracted (← job.existing disk path)
  match job.format.render job.indentation table with
  | .ok text => return ⟨path, text, table.size⟩
  | .error conflict => .error (.unwritableTable path conflict)

/-- Writes a file, and makes its directory if that is missing. -/
def write (disk : Disk) (file : Prepared) : Disk × Option Failure :=
  let parent := file.path.parent?.filter (!·.text.isEmpty)
  let (disk, made) := match parent with
    | some parent => disk.makeDirectories parent
    | none => (disk, true)
  if !made then (disk, some (.directoryNotMade (parent.getD ⟨""⟩)))
  else
    match disk.write? file.path file.text with
    | some disk => (disk, none)
    | none => (disk, some (.notWritten file.path))

/-- Writes files up to the first one that cannot be written. -/
def writeAll (disk : Disk) : List Prepared → Disk × Option Failure
  | [] => (disk, none)
  | file :: files =>
    match write disk file with
    | (disk, none) => writeAll disk files
    | failed => failed

/-- All that a job does before it writes: the files it looked through and the outputs made ready. -/
def plan (job : Job) (disk : Disk) : Except Failure (Findings × List Prepared) :=
  match PostProcessor.conflict? job.postProcessors with
  | some conflict => .error (.processorConflict conflict)
  | none => do
    let findings ← job.gather disk
    let extracted := findings.table
    let prepared ← job.outputs.mapM (job.prepare disk extracted)
    return (findings, prepared)

/-- What a job has done when its outputs are written. -/
def summarize (findings : Findings) (prepared : List Prepared) : Summary where
  files := findings.files.map fun file => ⟨file.1, file.2.size⟩
  keys := findings.table.size
  outputs := prepared.map fun file => ⟨file.path, file.keys⟩
  unmatched := findings.unmatched
  skipped := findings.skipped

/-- Carries out a job. -/
def execute (job : Job) (disk : Disk) : Disk × Except Failure Summary :=
  match job.plan disk with
  | .error failure => (disk, .error failure)
  | .ok (findings, prepared) =>
    match writeAll disk prepared with
    | (disk, none) => (disk, .ok (summarize findings prepared))
    | (disk, some failure) => (disk, .error failure)

end Job
end MessageKeys
