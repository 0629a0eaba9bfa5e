/-!
# Script.Node — the tree of a program

A tree keeps what decides which strings a program hands to which call: literals and the operators
that join them, names, property accesses, calls, classes with their members, functions and
decorators. Everything else (statements, patterns, declarations, types) is a `group` of the parts
it holds, in the order in which they are visited.

`Node.children` lists the parts of a node in visiting order; every search of a program is a walk
over it. `Node.unwrap` removes the wrappers that leave a value as it is.
-/
namespace MessageKeys.Script

/-- Ways to write an expression around another one without changing its value. -/
inductive Wrapper where
  | parentheses
  | typeCast
  | constCast
  | satisfies
  | nonNull
deriving DecidableEq, Repr

/-- The two-operand operators: joining, choosing the first truthy operand, any other one. -/
inductive BinaryOp where
  | add
  | or
  | other
deriving DecidableEq, Repr

/-- A part of a program.

* `str` holds the text of a string literal, `none` when the literal is no text (a lone surrogate);
* `template` holds the texts between the substitutions, `none` for a text with a bad escape;
* `hole` is a place of an array literal that is left out, `spread` is `...inner`;
* `wrapped` and `call` list, last, what stands in the type they name, if they name one;
* `member` is a property access by a plain name, `property` an object entry `key: value`, named
  unless the key is computed or a number;
* `field` is a class property with its name and the last name of its type, `value` its initialiser
  if it has one, `rest` what its type and decorators hold;
* `parameterProperty` is a constructor parameter that declares a property as well, `fallback` its
  default if it has one;
* `function` has its own meaning of bare names: a declaration, an expression or a method, but not
  an arrow. -/
inductive Node where
  | str (value : Option String)
  | template (texts : List (Option String)) (substitutions : List Node)
  | array (elements : List Node)
  | binary (op : BinaryOp) (left right : Node)
  | conditional (test yes no : Node)
  | wrapped (wrapper : Wrapper) (inner : Node) (types : List Node)
  | hole
  | spread (inner : Node)
  | identifier (name : String)
  | thisValue
  | member (object : Node) (property : String)
  | call (callee : Node) (arguments types : List Node)
  | object (properties : List Node)
  | property (name : Option String) (key : List Node) (value : Node)
  | classBody (decorators members heritage : List Node)
  | constructor (parameters body : List Node)
  | parameterProperty (name type : Option String) (decorators pattern fallback : List Node)
  | field (name type : Option String) (key value rest : List Node)
  | function (parts : List Node)
  | decorator (expression : Node)
  | group (parts : List Node)
deriving Repr

namespace Node

instance : Inhabited Node := ⟨.group []⟩

/-- The parts of a node in visiting order. -/
def children : Node → List Node
  | .str _ | .hole | .identifier _ | .thisValue => []
  | .template _ substitutions => substitutions
  | .array elements => elements
  | .binary _ left right => [left, right]
  | .conditional test yes no => [test, yes, no]
  | .wrapped _ inner types => inner :: types
  | .spread inner | .decorator inner | .member inner _ => [inner]
  | .call callee arguments types => callee :: arguments ++ types
  | .object properties => properties
  | .property _ key value => key ++ [value]
  | .classBody decorators members heritage => decorators ++ members ++ heritage
  | .constructor parameters body => parameters ++ body
  | .parameterProperty _ _ decorators pattern fallback => decorators ++ pattern ++ fallback
  | .field _ _ key value rest => key ++ value ++ rest
  | .function parts | .group parts => parts

/-- The expression below every wrapper. -/
def unwrap : Node → Node
  | .wrapped _ inner _ => inner.unwrap
  | node => node

mutual

/-- The node and everything below it, each node before its parts and with the state it is reached
in; `enter` gives the state in which the parts of a node are reached. -/
def walk {σ : Type} (enter : σ → Node → σ) (state : σ) : Node → List (σ × Node)
  | .str value => [(state, .str value)]
  | .hole => [(state, .hole)]
  | .identifier name => [(state, .identifier name)]
  | .thisValue => [(state, .thisValue)]
  | .template texts substitutions =>
    let node := .template texts substitutions
    (state, node) :: walkAll enter (enter state node) substitutions
  | .array elements =>
    let node := .array elements
    (state, node) :: walkAll enter (enter state node) elements
  | .binary op left right =>
    let node := .binary op left right
    (state, node) :: (walk enter (enter state node) left ++ walk enter (enter state node) right)
  | .conditional test yes no =>
    let node := .conditional test yes no
    (state, node) :: (walk enter (enter state node) test ++ walk enter (enter state node) yes ++
      walk enter (enter state node) no)
  | .wrapped wrapper inner types =>
    let node := .wrapped wrapper inner types
    (state, node) :: (walk enter (enter state node) inner ++ walkAll enter (enter state node) types)
  | .spread inner =>
    let node := .spread inner
    (state, node) :: walk enter (enter state node) inner
  | .decorator inner =>
    let node := .decorator inner
    (state, node) :: walk enter (enter state node) inner
  | .member inner name =>
    let node := .member inner name
    (state, node) :: walk enter (enter state node) inner
  | .call callee arguments types =>
    let node := .call callee arguments types
    (state, node) :: (walk enter (enter state node) callee ++
      walkAll enter (enter state node) arguments ++ walkAll enter (enter state node) types)
  | .object properties =>
    let node := .object properties
    (state, node) :: walkAll enter (enter state node) properties
  | .property name key value =>
    let node := .property name key value
    (state, node) :: (walkAll enter (enter state node) key ++ walk enter (enter state node) value)
  | .classBody decorators members heritage =>
    let node := .classBody decorators members heritage
    (state, node) :: (walkAll enter (enter state node) decorators ++
      walkAll enter (enter state node) members ++ walkAll enter (enter state node) heritage)
  | .constructor parameters body =>
    let node := .constructor parameters body
    (state, node) ::
      (walkAll enter (enter state node) parameters ++ walkAll enter (enter state node) body)
  | .parameterProperty name type decorators pattern fallback =>
    let node := .parameterProperty name type decorators pattern fallback
    (state, node) :: (walkAll enter (enter state node) decorators ++
      walkAll enter (enter state node) pattern ++ walkAll enter (enter state node) fallback)
  | .field name type key value rest =>
    let node := .field name type key value rest
    (state, node) :: (walkAll enter (enter state node) key ++
      walkAll enter (enter state node) value ++ walkAll enter (enter state node) rest)
  | .function parts =>
    let node := .function parts
    (state, node) :: walkAll enter (enter state node) parts
  | .group parts =>
    let node := .group parts
    (state, node) :: walkAll enter (enter state node) parts

/-- The walks through several nodes, one after the other. -/
def walkAll {σ : Type} (enter : σ → Node → σ) (state : σ) : List Node → List (σ × Node)
  | [] => []
  | part :: parts => walk enter state part ++ walkAll enter state parts

end

theorem walkAll_append {σ : Type} (enter : σ → Node → σ) (state : σ) (left right : List Node) :
    walkAll enter state (left ++ right) = walkAll enter state left ++ walkAll enter state right := by
  induction left with
  | nil => simp [walkAll]
  | cons part parts ih => simp [walkAll, ih]

/-- A node comes first, then everything below its parts in visiting order. -/
theorem walk_eq {σ : Type} (enter : σ → Node → σ) (state : σ) (node : Node) :
    node.walk enter state = (state, node) :: walkAll enter (enter state node) node.children := by
  cases node <;> simp [walk, children, walkAll, walkAll_append]

/-- The node and everything below it, each node before its parts. -/
def preorder (node : Node) : List Node :=
  (node.walk (fun _ _ => ()) ()).map Prod.snd

end Node

/-- A name brought in by an import clause: what it is called where it comes from, and here. -/
structure NamedImport where
  imported : String
  bound : String
deriving Repr, DecidableEq

/-- A program: its named imports in order, and its statements. -/
structure Module where
  imports : List NamedImport
  body : List Node
deriving Repr

end MessageKeys.Script
