import MessageKeys.Files.Resolve
import MessageKeys.Format
/-!
# Settings.Config — the configuration file

A configuration is a JSON object with one field for each setting, all of them optional, or an array
with the settings in the order of `Config.Field`. Unknown fields are passed over, whatever they hold; a
known one may come once and has to hold what it is for. `Config.fault?` looks for settings that cannot
be meant.
-/
namespace MessageKeys

/-- The name of the configuration file. -/
def configFileName : String := ".extractrc.json"

/-- What a configuration file sets. -/
structure Config where
  input : List String := []
  output : List String := []
  patterns : Option (List String) := none
  format : Option Format := none
  formatIndentation : Option String := none
  replace : Bool := false
  sort : Bool := false
  clean : Bool := false
  keyAsDefaultValue : Bool := false
  nullAsDefaultValue : Bool := false
  serviceName : Option String := none
  methodName : Option String := none
  pipeName : Option String := none
  markerName : Option String := none
deriving DecidableEq, Repr

namespace Config

/-- The fields of a configuration in their order. -/
inductive Field where
  | input
  | output
  | patterns
  | format
  | formatIndentation
  | replace
  | sort
  | clean
  | keyAsDefaultValue
  | nullAsDefaultValue
  | serviceName
  | methodName
  | pipeName
  | markerName
deriving DecidableEq, Repr

namespace Field

def all : List Field :=
  [.input, .output, .patterns, .format, .formatIndentation, .replace, .sort, .clean,
    .keyAsDefaultValue, .nullAsDefaultValue, .serviceName, .methodName, .pipeName, .markerName]

def name : Field → String
  | .input => "input"
  | .output => "output"
  | .patterns => "patterns"
  | .format => "format"
  | .formatIndentation => "formatIndentation"
  | .replace => "replace"
  | .sort => "sort"
  | .clean => "clean"
  | .keyAsDefaultValue => "keyAsDefaultValue"
  | .nullAsDefaultValue => "nullAsDefaultValue"
  | .serviceName => "serviceName"
  | .methodName => "methodName"
  | .pipeName => "pipeName"
  | .markerName => "markerName"

def ofName? (name : String) : Option Field := all.find? (·.name == name)

end Field

/-! ## Reading -/

open Json (Raw)

/-- A text. -/
def text? : Raw → Option String
  | .string text => text
  | _ => none

/-- A list of texts. -/
def texts? : Raw → Option (List String)
  | .array items => items.mapM text?
  | _ => none

/-- A yes or no. -/
def bool? : Raw → Option Bool
  | .bool value => some value
  | _ => none

/-- The name of a format, by itself or as the one field of an object that holds nothing in it. -/
def format? : Raw → Option Format
  | .string text => text.bind Format.ofName?
  | .object [(name, .null)] => name.bind Format.ofName?
  | _ => none

/-- Something that may be left out by writing `null`. -/
def optional? {α : Type} (read? : Raw → Option α) : Raw → Option (Option α)
  | .null => some none
  | value => (read? value).map some

/-- Sets a field to what a value says. -/
def put? (config : Config) (field : Field) (value : Raw) : Option Config :=
  match field with
  | .input => (texts? value).map ({ config with input := · })
  | .output => (texts? value).map ({ config with output := · })
  | .patterns => (optional? texts? value).map ({ config with patterns := · })
  | .format => (optional? format? value).map ({ config with format := · })
  | .formatIndentation => (optional? text? value).map ({ config with formatIndentation := · })
  | .replace => (bool? value).map ({ config with replace := · })
  | .sort => (bool? value).map ({ config with sort := · })
  | .clean => (bool? value).map ({ config with clean := · })
  | .keyAsDefaultValue => (bool? value).map ({ config with keyAsDefaultValue := · })
  | .nullAsDefaultValue => (bool? value).map ({ config with nullAsDefaultValue := · })
  | .serviceName => (optional? text? value).map ({ config with serviceName := · })
  | .methodName => (optional? text? value).map ({ config with methodName := · })
  | .pipeName => (optional? text? value).map ({ config with pipeName := · })
  | .markerName => (optional? text? value).map ({ config with markerName := · })

/-- Sets the fields of an object. `seen` are those that have been set. -/
def putFields? (config : Config) (seen : List Field) : List (Option String × Raw) → Option Config
  | [] => some config
  | (none, _) :: _ => none
  | (some name, value) :: rest =>
    match Field.ofName? name with
    | none => putFields? config seen rest
    | some field =>
      if seen.contains field then none
      else
        match config.put? field value with
        | none => none
        | some config => putFields? config (field :: seen) rest

/-- Sets fields in their order to the items of an array. Later fields may be missing. -/
def putItems? (config : Config) : List Field → List Raw → Option Config
  | _, [] => some config
  | [], _ => none
  | field :: fields, value :: values =>
    match config.put? field value with
    | none => none
    | some config => putItems? config fields values

/-- The configuration that a JSON text holds. -/
def ofString? (text : String) : Option Config :=
  match Raw.ofString? text with
  | some (.object fields) => putFields? {} [] fields
  | some (.array items) => putItems? {} Field.all items
  | _ => none

/-! ## Writing -/

/-- A field with a list of texts. -/
private def listField (field : Field) (texts : List String) : String × Json :=
  (field.name, .array (texts.map .string))

/-- A field with a text, if there is one. -/
private def textField (field : Field) (text : Option String) : List (String × Json) :=
  text.toList.map fun text => (field.name, .string text)

private def boolField (field : Field) (value : Bool) : String × Json := (field.name, .bool value)

/-- The configuration as an object, without what is empty or missing. -/
def toJson (config : Config) : Json :=
  .object (
    (if config.input.isEmpty then [] else [listField .input config.input]) ++
    (if config.output.isEmpty then [] else [listField .output config.output]) ++
    (config.patterns.toList.map (listField .patterns)) ++
    textField .format (config.format.map Format.name) ++
    textField .formatIndentation config.formatIndentation ++
    [boolField .replace config.replace, boolField .sort config.sort,
      boolField .clean config.clean,
      boolField .keyAsDefaultValue config.keyAsDefaultValue,
      boolField .nullAsDefaultValue config.nullAsDefaultValue] ++
    textField .serviceName config.serviceName ++
    textField .methodName config.methodName ++
    textField .pipeName config.pipeName ++
    textField .markerName config.markerName)

/-! ## Faults -/

/-- Why a configuration cannot be used. -/
inductive Fault where
  | invalidPattern (pattern : String)
  | bothDefaults
  | emptyName (field : Field)
deriving DecidableEq, Repr

def Fault.message : Fault → String
  | .invalidPattern pattern => "Invalid glob pattern in 'patterns': \"" ++ pattern ++ "\""
  | .bothDefaults => "'keyAsDefaultValue' and 'nullAsDefaultValue' cannot both be enabled"
  | .emptyName field => "'" ++ field.name ++ "' must not be empty"

/-- A pattern that is valid as a whole, slashes in front aside. -/
def isValidPattern (pattern : String) : Bool :=
  (Files.Pattern.ofChars? (Files.relativePattern pattern)).isSome

/-- The names a configuration sets. -/
def names (config : Config) : List (Field × Option String) :=
  [(.serviceName, config.serviceName), (.methodName, config.methodName),
    (.pipeName, config.pipeName), (.markerName, config.markerName)]

/-- The first fault of a configuration: an invalid pattern, both ways of treating keys without a
wording, a blank name. -/
def fault? (config : Config) : Option Fault :=
  match (config.patterns.getD []).find? (!isValidPattern ·) with
  | some pattern => some (.invalidPattern pattern)
  | none =>
    if config.keyAsDefaultValue && config.nullAsDefaultValue then some .bothDefaults
    else
      (config.names.find? fun (_, name) => name.any fun name => (Text.trim name).isEmpty).map
        fun (field, _) => .emptyName field

end Config
end MessageKeys
