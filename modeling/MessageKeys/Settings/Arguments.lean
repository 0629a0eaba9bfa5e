import MessageKeys.Format
/-!
# Settings.Arguments — the command line

Options that take values may be written long or short, with the value attached or following. Of the
following arguments an option takes one, or all up to the next option if it takes several. What follows
is kept until the option is complete, and is looked at only then; flags, attached values and the end of
the arguments complete it. There are no arguments besides options and flags.
-/
namespace MessageKeys

/-- What the command line says. -/
structure Arguments where
  input : List String := []
  output : List String := []
  patterns : List String := []
  format : Option Format := none
  formatIndentation : Option String := none
  replace : Bool := false
  sort : Bool := false
  clean : Bool := false
  keyAsDefaultValue : Bool := false
  nullAsDefaultValue : Bool := false
  serviceName : Option String := none
  methodName : Option String := none
  verbose : Bool := false
deriving DecidableEq, Repr

namespace Arguments

/-- Options that take values. -/
inductive ValueOption where
  | input
  | output
  | patterns
  | format
  | formatIndentation
  | serviceName
  | methodName
deriving DecidableEq, Repr

/-- Options that take no value. -/
inductive Flag where
  | replace
  | sort
  | clean
  | keyAsDefaultValue
  | nullAsDefaultValue
  | verbose
deriving DecidableEq, Repr

/-- What an argument can stand for. -/
inductive Switch where
  | value (option : ValueOption)
  | flag (flag : Flag)
  | help
  | version
deriving DecidableEq, Repr

/-- Why the arguments are not carried out. -/
inductive Fault where
  /-- Something is given twice, or together with what excludes it. -/
  | conflict
  /-- A value is missing or not one of those allowed. -/
  | invalidValue
  | unknownArgument
  /-- A flag has a value. -/
  | tooManyValues
  | helpAsked
  | versionAsked
deriving DecidableEq, Repr

/-- What a long name stands for. -/
def Switch.ofLong? (name : String) : Option Switch :=
  match name with
  | "input" => some (.value .input)
  | "output" => some (.value .output)
  | "patterns" => some (.value .patterns)
  | "format" => some (.value .format)
  | "format-indentation" | "fi" => some (.value .formatIndentation)
  | "service-name" | "sn" => some (.value .serviceName)
  | "method-name" | "mn" => some (.value .methodName)
  | "replace" => some (.flag .replace)
  | "sort" => some (.flag .sort)
  | "clean" => some (.flag .clean)
  | "key-as-default-value" => some (.flag .keyAsDefaultValue)
  | "null-as-default-value" => some (.flag .nullAsDefaultValue)
  | "verbose" => some (.flag .verbose)
  | "help" => some .help
  | "version" => some .version
  | _ => none

/-- What a short name stands for. -/
def Switch.ofShort? (name : Char) : Option Switch :=
  match name with
  | 'i' => some (.value .input)
  | 'o' => some (.value .output)
  | 'p' => some (.value .patterns)
  | 'f' => some (.value .format)
  | 'r' => some (.flag .replace)
  | 's' => some (.flag .sort)
  | 'c' => some (.flag .clean)
  | 'k' => some (.flag .keyAsDefaultValue)
  | 'n' => some (.flag .nullAsDefaultValue)
  | 'v' => some (.flag .verbose)
  | 'h' => some .help
  | 'V' => some .version
  | _ => none

/-- The option may be given again and takes several values. -/
def ValueOption.isRepeatable : ValueOption → Bool
  | .input | .output | .patterns => true
  | _ => false

/-- A path may not be empty. -/
def path? (value : String) : Option String := if value.isEmpty then none else some value

/-- Adds a value of an option. -/
def put? (arguments : Arguments) (option : ValueOption) (value : String) : Option Arguments :=
  match option with
  | .input => (path? value).map fun path => { arguments with input := arguments.input ++ [path] }
  | .output => (path? value).map fun path => { arguments with output := arguments.output ++ [path] }
  | .patterns => some { arguments with patterns := arguments.patterns ++ [value] }
  | .format => (Format.ofName? value).map fun format => { arguments with format := some format }
  | .formatIndentation => some { arguments with formatIndentation := some value }
  | .serviceName => some { arguments with serviceName := some value }
  | .methodName => some { arguments with methodName := some value }

/-- Raises a flag. -/
def raise (arguments : Arguments) : Flag → Arguments
  | .replace => { arguments with replace := true }
  | .sort => { arguments with sort := true }
  | .clean => { arguments with clean := true }
  | .keyAsDefaultValue => { arguments with keyAsDefaultValue := true }
  | .nullAsDefaultValue => { arguments with nullAsDefaultValue := true }
  | .verbose => { arguments with verbose := true }

/-- The reading of a command line: what it has said, which options and flags were given, the option
that is not complete yet with its values, and whether that takes more of them. -/
structure Reading where
  said : Arguments := {}
  given : List Switch := []
  pending : Option (ValueOption × List String) := none
  isOpen : Bool := false
deriving DecidableEq, Repr

namespace Reading

/-- Notes that a switch was given. Only options that take several values may be given again. -/
def note (reading : Reading) (switch : Switch) : Except Fault Reading :=
  let isRepeatable := match switch with
    | .value option => option.isRepeatable
    | _ => false
  if reading.given.contains switch && !isRepeatable then .error .conflict
  else .ok { reading with given := switch :: reading.given }

/-- Gives an option its values. -/
def supply (reading : Reading) (option : ValueOption) (values : List String) :
    Except Fault Reading :=
  if values.isEmpty then .error .invalidValue
  else do
    let reading ← reading.note (.value option)
    match values.foldlM (fun said value => said.put? option value) reading.said with
    | some said => return { reading with said }
    | none => .error .invalidValue

/-- Completes the option that is not complete yet. -/
def settle (reading : Reading) : Except Fault Reading :=
  match reading.pending with
  | none => .ok { reading with isOpen := false }
  | some (option, values) =>
    { reading with pending := none, isOpen := false }.supply option values

/-- Carries out a switch without a value. -/
def carryOut (reading : Reading) : Switch → Except Fault Reading
  | .help => do discard reading.settle; .error .helpAsked
  | .version => do discard reading.settle; .error .versionAsked
  | .flag flag => do
    let reading ← (← reading.settle).note (.flag flag)
    return { reading with said := reading.said.raise flag }
  | .value option => do
    let reading ← reading.settle
    return { reading with pending := some (option, []), isOpen := true }

/-- An option with its value attached. -/
def attach (reading : Reading) (option : ValueOption) (value : String) : Except Fault Reading := do
  (← reading.settle).supply option [value]

/-- An argument that is no switch: a value of the open option. -/
def take (reading : Reading) (value : String) : Except Fault Reading :=
  match reading.isOpen, reading.pending with
  | true, some (option, values) =>
    .ok { reading with
      pending := some (option, values ++ [value]), isOpen := option.isRepeatable }
  | _, _ => .error .unknownArgument

/-- An argument that starts with two dashes, without them. -/
def takeLong (reading : Reading) (text : List Char) : Except Fault Reading :=
  let name := text.takeWhile (· != '=')
  let value := (text.dropWhile (· != '=')).tail?.map String.ofList
  match Switch.ofLong? (String.ofList name), value with
  | none, _ => .error .unknownArgument
  | some switch, none => reading.carryOut switch
  | some (.value option), some value => reading.attach option value
  | some _, some _ => .error .tooManyValues

/-- An argument that starts with one dash, without it: flags, and an option at the end, maybe with its
value. -/
def takeShort (reading : Reading) : List Char → Except Fault Reading
  | [] => .ok reading
  | c :: rest =>
    match Switch.ofShort? c with
    | none => .error .unknownArgument
    | some (.value option) =>
      match rest with
      | [] => reading.carryOut (.value option)
      | '=' :: value => reading.attach option (String.ofList value)
      | value => reading.attach option (String.ofList value)
    | some switch => do (← reading.carryOut switch).takeShort rest

/-- Takes the next argument. -/
def step (reading : Reading) (argument : String) : Except Fault Reading :=
  match argument.toList with
  | '-' :: '-' :: text => reading.takeLong text
  | '-' :: c :: rest => reading.takeShort (c :: rest)
  | _ => reading.take argument

/-- Reads arguments. After `--` there is nothing but values that nobody takes. -/
def run (reading : Reading) : List String → Except Fault Reading
  | [] => reading.settle
  | "--" :: rest => if rest.isEmpty then reading.settle else .error .unknownArgument
  | argument :: rest => do (← reading.step argument).run rest

end Reading

/-- Reads the arguments of a command line. Both ways of treating keys without a wording exclude each
other. -/
def ofList (arguments : List String) : Except Fault Arguments := do
  let reading ← ({} : Reading).run arguments
  if reading.said.keyAsDefaultValue && reading.said.nullAsDefaultValue then .error .conflict
  else return reading.said

end Arguments
end MessageKeys
