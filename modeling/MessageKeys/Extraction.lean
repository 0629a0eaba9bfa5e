import MessageKeys.KeyTable
import MessageKeys.Source
import MessageKeys.Template.Directive
import MessageKeys.Template.PipeChain
/-!
# Extraction — the keys that files hold

A `Strategy` knows one way in which a file names message keys. It gives no table where a file is
nothing it looks at, and an empty one where it found nothing. `extract` merges what the strategies find
in a file, in their order, and `extractAll` what is found in the files, in theirs. The first file that
is no program stops it.
-/
namespace MessageKeys

/-- The names that mark keys. -/
structure KeyNames where
  /-- The pipe of template expressions. -/
  pipe : String
  /-- The function that marks a key and does nothing else. -/
  marker : String
  /-- The type of the service that looks messages up. -/
  service : String
  /-- A method of the service besides the usual ones. -/
  method : Option String
deriving DecidableEq, Repr

namespace KeyNames

/-- The given names, and the usual ones where none is given. -/
def ofOptions (pipe marker service method : Option String) : KeyNames :=
  ⟨pipe.getD "translate", marker.getD "marker", service.getD "TranslateService", method⟩

end KeyNames

/-- A way in which a file names keys. -/
inductive Strategy where
  /-- Operands of the pipe in the expressions of a template. -/
  | pipe (name : String)
  /-- Elements of a template that are marked by the directive. -/
  | directive
  /-- Calls of the message service in classes that hold one. -/
  | service (type : String) (method : Option String)
  /-- Calls of the marker function under any name it is imported as. -/
  | marker (name : String)
deriving DecidableEq, Repr

namespace Strategy

/-- All strategies in the order in which their keys count. -/
def all (names : KeyNames) : List Strategy :=
  [.pipe names.pipe, .directive, .service names.service names.method, .marker names.marker]

/-- The keys in an expression of a template. -/
def pipeKeys (name expression : String) : List String :=
  (Template.pipedOperands expression.toList name.toList).flatMap fun operand =>
    match Script.readExpression? (String.ofList operand.text) with
    | some node => node.strings.filter (!·.isEmpty)
    | none => []

/-- The keys in the first argument of a call. -/
def argumentKeys : List Script.Node → List String
  | [] => []
  | first :: _ => if first.isSpread then [] else first.strings

/-- The methods of the service that take keys. -/
def serviceMethods (method : Option String) : List String :=
  ["get", "instant", "stream"] ++ method.toList

/-- The keys that a class hands to the service it holds. -/
def serviceKeys (type : String) (method : Option String) (node : Script.Node) : List String :=
  match node.propertyOfType type with
  | none => []
  | some property => (node.methodCalls property (serviceMethods method)).flatMap argumentKeys

/-- The keys that a program hands to the marker function. -/
def markerKeys (name : String) (code : Script.Module) : List String :=
  (code.functionCalls (name :: code.aliases name)).flatMap argumentKeys

/-- The keys a strategy finds in a file, in order and maybe more than once; none if the file is
nothing it looks at. -/
def keys? (strategy : Strategy) (source : Source) : Option (List String) :=
  match strategy with
  | .pipe name => source.templates?.map fun templates =>
      (templates.flatMap (·.expressions)).flatMap (pipeKeys name)
  | .directive => source.templates?.map fun templates =>
      (templates.flatMap (·.elements)).flatMap (·.directiveKeys)
  | .service type method => source.program?.bind fun code =>
      match code.classes with
      | [] => none
      | classes => some (classes.flatMap (serviceKeys type method))
  | .marker name => source.program?.map (markerKeys name)

/-- The table of the keys a strategy finds in a file. -/
def find? (strategy : Strategy) (source : Source) : Option KeyTable :=
  (strategy.keys? source).map KeyTable.ofKeys

end Strategy

/-- What the strategies find in a file, merged in their order. -/
def Source.keyTable (strategies : List Strategy) (source : Source) : KeyTable :=
  (strategies.filterMap (·.find? source)).foldl KeyTable.merge ∅

/-- The keys of a file. -/
def extract (strategies : List Strategy) (path text : String) : Except SyntaxError KeyTable :=
  (Source.read path text).map (·.keyTable strategies)

/-- The keys of files, given as paths with their texts. -/
def extractAll (strategies : List Strategy) (files : List (String × String)) :
    Except SyntaxError KeyTable := do
  let tables ← files.mapM fun file => extract strategies file.1 file.2
  return tables.foldl KeyTable.merge ∅

end MessageKeys
