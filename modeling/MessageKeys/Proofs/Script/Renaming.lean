import MessageKeys.Proofs.Script.Places
import MessageKeys.Script.Search
/-!
# Proofs.Script.Renaming — programs with other names

A `Renaming` gives every name in a program another one. The renamed program has the same shape: the same parts in
the same order (`preorder_rename`), around the same literals (`strings_rename`).
-/
namespace MessageKeys.Script

/-- Other names, for values and for everything else: properties, members and types. -/
structure Renaming where
  value : String → String
  other : String → String

namespace Node

mutual

/-- The same tree with other names. -/
def rename (names : Renaming) : Node → Node
  | .str value => .str value
  | .hole => .hole
  | .thisValue => .thisValue
  | .identifier name => .identifier (names.value name)
  | .template texts substitutions => .template texts (renameAll names substitutions)
  | .array elements => .array (renameAll names elements)
  | .binary op left right => .binary op (left.rename names) (right.rename names)
  | .conditional test yes no => .conditional (test.rename names) (yes.rename names) (no.rename names)
  | .wrapped wrapper inner types => .wrapped wrapper (inner.rename names) (renameAll names types)
  | .spread inner => .spread (inner.rename names)
  | .member owner accessed => .member (owner.rename names) (names.other accessed)
  | .call callee arguments types => .call (callee.rename names) (renameAll names arguments) (renameAll names types)
  | .object properties => .object (renameAll names properties)
  | .property name key value => .property (name.map names.other) (renameAll names key) (value.rename names)
  | .classBody decorators members heritage =>
    .classBody (renameAll names decorators) (renameAll names members) (renameAll names heritage)
  | .constructor parameters body => .constructor (renameAll names parameters) (renameAll names body)
  | .parameterProperty name type decorators pattern fallback =>
    .parameterProperty (name.map names.value) (type.map names.other) (renameAll names decorators)
      (renameAll names pattern) (renameAll names fallback)
  | .field name type key value rest =>
    .field (name.map names.other) (type.map names.other) (renameAll names key) (renameAll names value)
      (renameAll names rest)
  | .function parts => .function (renameAll names parts)
  | .decorator expression => .decorator (expression.rename names)
  | .group parts => .group (renameAll names parts)

def renameAll (names : Renaming) : List Node → List Node
  | [] => []
  | node :: nodes => node.rename names :: renameAll names nodes

end

variable (names : Renaming)

theorem renameAll_eq_map (nodes : List Node) : renameAll names nodes = nodes.map (rename names) := by
  induction nodes with
  | nil => rfl
  | cons node nodes ih => rw [renameAll, ih, List.map_cons]

theorem children_rename (node : Node) : (node.rename names).children = node.children.map (rename names) := by
  cases node <;> simp [rename, children, renameAll_eq_map]

theorem preorder_rename (node : Node) : (node.rename names).preorder = node.preorder.map (rename names) := by
  induction node using induction_on_children with
  | step node ih =>
      rw [preorder_eq, preorder_eq, children_rename, List.map_cons, List.flatMap_map, List.map_flatMap]
      congr 1
      exact List.flatMap_congr ih

theorem unwrap_rename (node : Node) : (node.rename names).unwrap = node.unwrap.rename names := by
  fun_induction unwrap node with
  | case1 wrapper inner types ih => rw [rename, unwrap, ih]
  | case2 node plain =>
      cases node with
      | wrapped wrapper inner types => exact (plain wrapper inner types rfl).elim
      | _ => rfl

theorem isSpread_rename (node : Node) : (node.rename names).isSpread = node.isSpread := by
  cases node <;> rfl

/-- Names are no part of what an expression is known to give. -/
theorem strings_rename (node : Node) : (node.rename names).strings = node.strings := by
  induction node using induction_on_children with
  | step node ih =>
      cases node with
      | wrapped wrapper inner types =>
          rw [rename, strings, strings]
          exact ih inner List.mem_cons_self
      | template texts substitutions => cases substitutions <;> rfl
      | array elements =>
          rw [rename, strings, strings, stringsAll_eq_flatMap, stringsAll_eq_flatMap, renameAll_eq_map,
            List.flatMap_map]
          exact List.flatMap_congr ih
      | binary op left right =>
          have first := ih left (List.mem_cons_self ..)
          have second := ih right (List.mem_cons_of_mem _ List.mem_cons_self)
          cases op with
          | add | or => rw [rename, strings, strings, first, second]
          | other => rfl
      | conditional test yes no =>
          have first := ih yes (List.mem_cons_of_mem _ List.mem_cons_self)
          have second := ih no (List.mem_cons_of_mem _ (List.mem_cons_of_mem _ List.mem_cons_self))
          rw [rename, strings, strings, first, second]
      | _ => rfl

end Node

namespace Module

/-- The same program with other names; what is imported keeps its name where it comes from. -/
def rename (names : Renaming) (program : Module) : Module where
  imports := program.imports.map fun entry => { entry with bound := names.value entry.bound }
  body := program.body.map (Node.rename names)

theorem nodes_rename (names : Renaming) (program : Module) :
    (program.rename names).nodes = program.nodes.map (Node.rename names) := by
  rw [nodes, rename, List.flatMap_map, nodes, List.map_flatMap]
  exact List.flatMap_congr fun node _ => node.preorder_rename names

theorem aliases_rename (names : Renaming) (program : Module) (imported : String) :
    (program.rename names).aliases imported = (program.aliases imported).map names.value := by
  rw [aliases, rename, List.filterMap_map, aliases, List.map_filterMap]
  congr 1
  funext entry
  simp only [Function.comp_apply]
  split <;> rfl

end Module
end MessageKeys.Script
