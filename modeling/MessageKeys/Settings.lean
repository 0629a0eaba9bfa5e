import MessageKeys.Extraction
import MessageKeys.PostProcessor
import MessageKeys.Settings.Arguments
import MessageKeys.Settings.Config
/-!
# Settings — what a run is to do

For every setting the command line counts first, then the configuration, then a default; flags of both
are joined. Paths of the configuration are seen from its directory. `Settings.fault?` looks for what
keeps a run from starting, before anything is read.
-/
namespace MessageKeys
open Files (PathName Disk)

/-- What a run is to do. -/
structure Settings where
  inputs : List PathName
  outputs : List PathName
  patterns : List String
  format : Format
  indentation : String
  replace : Bool
  sort : Bool
  clean : Bool
  keyAsDefaultValue : Bool
  nullAsDefaultValue : Bool
  serviceName : Option String
  methodName : Option String
  pipeName : Option String
  markerName : Option String
deriving DecidableEq, Repr

namespace Settings

/-- A path of a configuration, seen from its directory. -/
def configPath (directory : PathName) (text : String) : PathName :=
  let path : PathName := ⟨text⟩
  if path.isAbsolute then path else directory.join path.withoutCurrent

/-- The inputs of the command line or of the configuration. Without any it is the working directory. -/
def inputsOf (arguments : Arguments) (config : Config) (directory : PathName) : List PathName :=
  if !arguments.input.isEmpty then arguments.input.map PathName.mk
  else if !config.input.isEmpty then config.input.map (configPath directory)
  else [⟨"."⟩]

/-- The outputs of the command line or of the configuration. -/
def outputsOf (arguments : Arguments) (config : Config) (directory : PathName) : List PathName :=
  if !arguments.output.isEmpty then arguments.output.map PathName.mk
  else config.output.map (configPath directory)

/-- The patterns of the command line or of the configuration, or the usual ones. -/
def patternsOf (arguments : Arguments) (config : Config) : List String :=
  if !arguments.patterns.isEmpty then arguments.patterns
  else config.patterns.getD Files.defaultPatterns

/-- The settings that the command line and a configuration in this directory make together. -/
def resolve (arguments : Arguments) (config : Config) (directory : PathName) : Settings where
  inputs := inputsOf arguments config directory
  outputs := outputsOf arguments config directory
  patterns := patternsOf arguments config
  format := (arguments.format.or config.format).getD .json
  indentation :=
    (arguments.formatIndentation.or config.formatIndentation).getD Format.defaultIndentation
  replace := arguments.replace || config.replace
  sort := arguments.sort || config.sort
  clean := arguments.clean || config.clean
  keyAsDefaultValue := arguments.keyAsDefaultValue || config.keyAsDefaultValue
  nullAsDefaultValue := arguments.nullAsDefaultValue || config.nullAsDefaultValue
  serviceName := arguments.serviceName.or config.serviceName
  methodName := arguments.methodName.or config.methodName
  pipeName := config.pipeName
  markerName := config.markerName

/-- What is done to the keys: dropping, then a wording for keys without one, then sorting. -/
def postProcessors (settings : Settings) : List PostProcessor :=
  (if settings.clean then [.purgeObsoleteKeys] else []) ++
  (if settings.keyAsDefaultValue then [.keyAsDefaultValue]
    else if settings.nullAsDefaultValue then [.nullAsDefaultValue] else []) ++
  (if settings.sort then [.sortByKey] else [])

/-- The names that mark keys. -/
def keyNames (settings : Settings) : KeyNames :=
  KeyNames.ofOptions settings.pipeName settings.markerName settings.serviceName settings.methodName

/-- Why settings cannot be carried out. -/
inductive Fault where
  | inputMissing (path : PathName)
  | inputNotDirectory (path : PathName)
  | noOutput
  | bothDefaults
  | invalidPattern (pattern : String)
deriving DecidableEq, Repr

def Fault.message : Fault → String
  | .inputMissing path => "The path you supplied was not found: '" ++ path.text ++ "'"
  | .inputNotDirectory path => "The path you supplied is not a directory: '" ++ path.text ++ "'"
  | .noOutput => "No output path given. Use --output or set 'output' in " ++ configFileName
  | .bothDefaults =>
    "--key-as-default-value and --null-as-default-value cannot be used together"
  | .invalidPattern pattern => (Files.InvalidPattern.mk pattern).message

/-- What is wrong with an input, if anything is. -/
def inputFault? (disk : Disk) (path : PathName) : Option Fault :=
  if !disk.exists? path then some (.inputMissing path)
  else if !disk.isDirectory path then some (.inputNotDirectory path)
  else none

/-- The first fault of the settings: an input, no output, both ways of treating keys without a
wording, an invalid pattern. -/
def fault? (settings : Settings) (disk : Disk) : Option Fault :=
  match settings.inputs.findSome? (inputFault? disk) with
  | some fault => some fault
  | none =>
    if settings.outputs.isEmpty then some .noOutput
    else if settings.keyAsDefaultValue && settings.nullAsDefaultValue then some .bothDefaults
    else (settings.patterns.find? (!Config.isValidPattern ·)).map .invalidPattern

end Settings
end MessageKeys
