import MessageKeys.Script.Strings
/-!
# Script.Search — calls, classes and templates of a program

All searches are walks in visiting order. A class holds a service in the property that
`propertyOfType` names; its calls are those of `methodCalls`, made through `this` or, inside the
constructor that declares the property as a parameter, through the bare name.
-/
namespace MessageKeys.Script
namespace Node

/-- The name an expression consists of, apart from wrappers. -/
def plainName? (node : Node) : Option String :=
  match node.unwrap with
  | .identifier name => some name
  | _ => none

/-- An argument without the dots in front of it. -/
def withoutSpread : Node → Node
  | .spread inner => inner
  | node => node

def isSpread : Node → Bool
  | .spread _ => true
  | _ => false

def isClass : Node → Bool
  | .classBody _ _ _ => true
  | _ => false

/-- The members of a class. -/
def members : Node → List Node
  | .classBody _ members _ => members
  | _ => []

/-- `inject(Type, ...)`. -/
def isInjectionOf (type : String) (node : Node) : Bool :=
  match node.unwrap with
  | .call callee (first :: _) _ =>
    callee.plainName? == some "inject" && first.withoutSpread.plainName? == some type
  | _ => false

/-- The property a constructor parameter declares if it has this type. A parameter with a default
declares none here. -/
def parameterOfType (type : String) : Node → Option String
  | .parameterProperty (some name) (some declared) _ _ [] =>
    if declared == type then some name else none
  | _ => none

/-- The property a class member declares if it has this type or is made by injecting it. -/
def propertyOfMember (type : String) : Node → Option String
  | .constructor parameters _ => parameters.findSome? (parameterOfType type)
  | .field name declared _ value _ =>
    if declared == some type || value.any (isInjectionOf type) then name else none
  | _ => none

/-- The first property of a class that holds this type. -/
def propertyOfType (type : String) (node : Node) : Option String :=
  node.members.findSome? (propertyOfMember type)

/-- The constructor of the class declares this property as a parameter without a default. -/
def declaresParameterProperty (property : String) (node : Node) : Bool :=
  node.members.any fun
    | .constructor parameters _ => parameters.any fun
      | .parameterProperty name _ _ _ [] => name == some property
      | _ => false
    | _ => false

/-- Inside a constructor of some class, with no function or class in between. -/
def enterConstructor (inside : Bool) : Node → Bool
  | .constructor _ _ => true
  | .function _ | .classBody _ _ _ => false
  | _ => inside

/-- `this.property`, or the bare name where that is the property. -/
def isPropertyAccess (property : String) (bareName : Bool) (node : Node) : Bool :=
  match node.unwrap with
  | .member .thisValue name => name == property
  | .identifier name => bareName && name == property
  | _ => false

/-- The arguments of a call of one of the methods on the property. -/
def methodCall? (property : String) (methods : List String) (bareName : Bool) (node : Node) :
    Option (List Node) :=
  match node with
  | .call callee arguments _ =>
    match callee.unwrap with
    | .member receiver method =>
      if methods.contains method && receiver.isPropertyAccess property bareName then some arguments
      else none
    | _ => none
  | _ => none

/-- The arguments of all calls of the methods on the property below a class, in visiting order. -/
def methodCalls (property : String) (methods : List String) (node : Node) : List (List Node) :=
  let declared := node.declaresParameterProperty property
  (node.walk enterConstructor false).filterMap fun (inside, node) =>
    node.methodCall? property methods (declared && inside)

/-- The arguments of a call of a plain function with one of the names. -/
def functionCall? (names : List String) : Node → Option (List Node)
  | .call callee arguments _ =>
    if callee.plainName?.any names.contains then some arguments else none
  | _ => none

/-- The templates in the argument of a `Component` decorator. -/
def componentTemplates : Node → List String
  | .decorator expression =>
    match expression.unwrap with
    | .call callee (first :: _) _ =>
      if callee.plainName? == some "Component" then
        match first.withoutSpread.unwrap with
        | .object properties => properties.flatMap fun
          | .property (some "template") _ value => value.strings
          | _ => []
        | _ => []
      else []
    | _ => []
  | _ => []

end Node

namespace Module

/-- Every node of a program in visiting order. -/
def nodes (program : Module) : List Node := program.body.flatMap Node.preorder

/-- Every class, nested ones included. -/
def classes (program : Module) : List Node := program.nodes.filter Node.isClass

/-- The arguments of every call of a plain function with one of the names. -/
def functionCalls (program : Module) (names : List String) : List (List Node) :=
  program.nodes.filterMap (Node.functionCall? names)

/-- The local names of everything imported under this name. -/
def aliases (program : Module) (imported : String) : List String :=
  program.imports.filterMap fun entry =>
    if entry.imported == imported then some entry.bound else none

/-- The inline templates of the components of a program. -/
def componentTemplates (program : Module) : List String :=
  program.nodes.flatMap Node.componentTemplates

end Module
end MessageKeys.Script
