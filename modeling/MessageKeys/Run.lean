import MessageKeys.Report
import MessageKeys.Settings
import MessageKeys.Text.Quoted
/-!
# Run — a run of the program

A run finds the configuration, makes settings of it and of the command line, checks them, and carries out
the job. The configuration is the nearest one in the working directory and those above it; the search
does not go above a directory with a `.git`.
-/
namespace MessageKeys
open Files (PathName Disk)

/-! ## The configuration -/

namespace Files.Disk

/-- The nearest configuration in these directories, none behind one that holds `.git`. -/
def findConfigIn (disk : Disk) : List PathName → Option PathName
  | [] => none
  | directory :: above =>
    if disk.exists? (directory.join ⟨configFileName⟩) then
      some (directory.join ⟨configFileName⟩)
    else if disk.exists? (directory.join ⟨".git"⟩) then none
    else disk.findConfigIn above

/-- The nearest configuration in a directory and those above it. -/
def findConfig (disk : Disk) (start : PathName) : Option PathName :=
  disk.findConfigIn (start :: start.parents)

/-- The path of the working directory. -/
def currentPath (disk : Disk) : PathName := ⟨"/" ++ Text.joinStrings '/' disk.current⟩

end Files.Disk

/-- Why a run fails. -/
inductive RunFailure where
  | unreadableConfig (path : PathName)
  | malformedConfig (path : PathName)
  | config (fault : Config.Fault)
  | settings (fault : Settings.Fault)
  | job (failure : Job.Failure)
deriving Repr

def RunFailure.message : RunFailure → String
  | .unreadableConfig path => "Failed to read config file: " ++ Text.quoted path.text
  | .malformedConfig path => "Failed to parse config file: " ++ Text.quoted path.text
  | .config fault => fault.message
  | .settings fault => fault.message
  | .job failure => failure.message

/-- The configuration for a directory and where it lies; none set and nowhere if there is none. -/
def loadConfig (disk : Disk) (start : PathName) : Except RunFailure (Config × Option PathName) :=
  match disk.findConfig start with
  | none => .ok ({}, none)
  | some path =>
    match disk.read? path with
    | none => .error (.unreadableConfig path)
    | some text =>
      match Config.ofString? text with
      | none => .error (.malformedConfig path)
      | some config =>
        match config.fault? with
        | some fault => .error (.config fault)
        | none => .ok (config, some path)

/-! ## The run -/

/-- The job that settings ask for. -/
def Settings.toJob (settings : Settings) : Job where
  inputs := settings.inputs
  outputs := settings.outputs
  patterns := settings.patterns
  replace := settings.replace
  strategies := Strategy.all settings.keyNames
  postProcessors := settings.postProcessors
  format := settings.format
  indentation := settings.indentation

/-- The settings that the command line makes together with what has been loaded for a directory. What a
configuration says is seen from where it lies. -/
def Settings.ofLoaded (arguments : Arguments) (start : PathName) (loaded : Config × Option PathName) :
    Settings :=
  Settings.resolve arguments loaded.1 ((loaded.2.bind (·.parent?)).getD start)

/-- Carries out settings, if nothing is wrong with them. -/
def Settings.execute (settings : Settings) (disk : Disk) : Disk × Except RunFailure Job.Summary :=
  match settings.fault? disk with
  | some fault => (disk, .error (.settings fault))
  | none =>
    let (disk, result) := settings.toJob.execute disk
    (disk, result.mapError .job)

/-- What a run leaves behind: the disk, what it tells and warns of, and why it failed if it did. -/
structure Outcome where
  disk : Disk
  report : String
  warnings : String
  failure : Option RunFailure

/-- What is noted where there is no configuration. -/
def noConfigNote : String :=
  "Note: No " ++ configFileName ++ " found, using command-line options\n"

/-- A run with these arguments in the working directory. -/
def run (arguments : Arguments) (disk : Disk) : Outcome :=
  let start := disk.currentPath
  match loadConfig disk start with
  | .error failure => ⟨disk, "", "", some failure⟩
  | .ok (config, place) =>
    let note := if arguments.verbose && place.isNone then noConfigNote else ""
    match (Settings.ofLoaded arguments start (config, place)).execute disk with
    | (disk, .error failure) => ⟨disk, "", note, some failure⟩
    | (disk, .ok summary) =>
      ⟨disk, Report.text summary arguments.verbose, note ++ Report.warnings summary, none⟩

end MessageKeys
