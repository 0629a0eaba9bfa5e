import MessageKeys.Extraction
import MessageKeys.Proofs.KeyTable.Algebra
import MessageKeys.Proofs.Script.Properties
import MessageKeys.Proofs.Script.Renaming
/-!
# Proofs.MarkerCalls — the keys that are marked in a program

A program marks keys by calling the marker function, under its own name or one that it is imported as
(`Script.Module.MarksAt`). Wherever such a call stands, the strings of its first argument become keys, in the
order of the places. The names themselves are no part of that: a program in which an imported name has been
replaced by one that is not in use has the same keys (`markerKeys_rename`).
-/
namespace MessageKeys

open Script (Node Place)

namespace Script.Module

/-- A name of the marker function in the program: its own, or one that it is imported as. -/
def IsMarker (program : Module) (name called : String) : Prop :=
  called = name ∨ ⟨name, called⟩ ∈ program.imports

/-- At this place of the program the marker function is called. The place begins with the number of a statement. -/
def MarksAt (program : Module) (name : String) (place : Place) (arguments : List Node) : Prop :=
  ∃ callee types called, (Node.group program.body).at? place = some (.call callee arguments types) ∧
    callee.unwrap = .identifier called ∧ program.IsMarker name called

theorem mem_aliases_iff {program : Module} {name called : String} :
    called ∈ program.aliases name ↔ ⟨name, called⟩ ∈ program.imports := by
  rw [aliases, List.mem_filterMap]
  constructor
  · rintro ⟨⟨imported, bound⟩, listed, found⟩
    obtain ⟨same, given⟩ := Option.ite_none_right_eq_some.1 found
    cases eq_of_beq same
    cases given
    exact listed
  · intro listed
    exact ⟨_, listed, if_pos (beq_self_eq_true name)⟩

theorem mem_markers_iff {program : Module} {name called : String} :
    called ∈ name :: program.aliases name ↔ program.IsMarker name called := by
  rw [List.mem_cons, mem_aliases_iff, IsMarker]

end Script.Module

theorem Script.Node.functionCall?_eq_some_iff {names : List String} {node : Node} {arguments : List Node} :
    node.functionCall? names = some arguments ↔ ∃ callee types called, node = .call callee arguments types ∧
      callee.unwrap = .identifier called ∧ called ∈ names := by
  constructor
  · intro found
    unfold functionCall? at found
    split at found
    · rename_i callee others types
      obtain ⟨among, found⟩ := Option.ite_none_right_eq_some.1 found
      cases found
      obtain ⟨called, plain, listed⟩ := (Option.any_eq_true _ _).1 among
      exact ⟨callee, types, called, rfl, plainName?_eq_some_iff.1 plain, List.contains_iff_mem.1 listed⟩
    · cases found
  · rintro ⟨callee, types, called, rfl, plain, listed⟩
    rw [functionCall?, plainName?_eq_some_iff.2 plain]
    exact if_pos (List.contains_iff_mem.2 listed)

namespace Strategy

variable (name : String) (program : Script.Module)

/-! ## Where keys are marked -/

/-- The calls of the marker function with their places. -/
def markerCalls : List (Place × List Node) :=
  (Node.group program.body).withPlaces fun _ => Node.functionCall? (name :: program.aliases name)

theorem mem_markerCalls_iff {place : Place} {arguments : List Node} :
    (place, arguments) ∈ markerCalls name program ↔ program.MarksAt name place arguments := by
  rw [markerCalls, Node.mem_withPlaces_iff]
  constructor
  · rintro ⟨node, here, found⟩
    obtain ⟨callee, types, called, rfl, plain, listed⟩ := Node.functionCall?_eq_some_iff.1 found
    exact ⟨callee, types, called, here, plain, Script.Module.mem_markers_iff.1 listed⟩
  · rintro ⟨callee, types, called, here, plain, marker⟩
    exact ⟨_, here, Node.functionCall?_eq_some_iff.2
      ⟨callee, types, called, rfl, plain, Script.Module.mem_markers_iff.2 marker⟩⟩

/-- The keys are those of these calls, one after the other. -/
theorem markerKeys_eq_flatMap :
    markerKeys name program = (markerCalls name program).flatMap fun call => argumentKeys call.2 := by
  have calls : program.functionCalls (name :: program.aliases name) = (markerCalls name program).map Prod.snd := by
    rw [markerCalls, Node.map_snd_withPlaces, Node.preorder_eq]
    rfl
  rw [markerKeys, calls, List.flatMap_map]

/-! ## Other names -/

theorem argumentKeys_rename (names : Script.Renaming) (arguments : List Node) :
    argumentKeys (arguments.map (Node.rename names)) = argumentKeys arguments := by
  cases arguments with
  | nil => rfl
  | cons first others => rw [List.map_cons, argumentKeys, argumentKeys, Node.isSpread_rename, Node.strings_rename]

theorem plainName?_rename (names : Script.Renaming) (node : Node) :
    (node.rename names).plainName? = node.plainName?.map names.value := by
  rw [Node.plainName?, Node.plainName?, Node.unwrap_rename]
  cases node.unwrap <;> rfl

/-- A call is found under its other name if that is looked for just where the name was. -/
theorem functionCall?_rename (names : Script.Renaming) {markers markers' : List String} {node : Node}
    (same : ∀ called, .identifier called ∈ node.preorder → (names.value called ∈ markers' ↔ called ∈ markers)) :
    (node.rename names).functionCall? markers' =
      (node.functionCall? markers).map (List.map (Node.rename names)) := by
  cases node with
  | call callee arguments types =>
      rw [Node.rename, Node.functionCall?, Node.functionCall?, plainName?_rename, Node.renameAll_eq_map]
      cases plain : callee.plainName? with
      | none => rfl
      | some called =>
          have below : .identifier called ∈ (Node.call callee arguments types).preorder := by
            rw [← Node.plainName?_eq_some_iff.1 plain]
            exact Node.mem_preorder_of_mem_children _ List.mem_cons_self callee.unwrap_mem_preorder
          simp only [Option.map_some, Option.any_some, List.contains_iff_mem, same called below]
          split <;> rfl
  | _ => rfl

/-- One name for another one, and any names for what is no value. -/
def replacing (old new : String) (other : String → String) : Script.Renaming where
  value name := if name = old then new else name
  other := other

/-- No value in the program has this name. -/
def Unused (program : Script.Module) (new : String) : Prop := ∀ node ∈ program.nodes, node ≠ .identifier new

variable {name program}

/-- Just the names of the marker function become names of it. -/
theorem mem_markers_rename_iff {old new called : String} (other : String → String)
    (imported : ⟨name, old⟩ ∈ program.imports) (unused : Unused program new)
    (listed : .identifier called ∈ program.nodes) :
    (replacing old new other).value called ∈ name :: (program.rename (replacing old new other)).aliases name ↔
      called ∈ name :: program.aliases name := by
  rw [Script.Module.aliases_rename]
  by_cases here : called = old
  · subst here
    have aliased := Script.Module.mem_aliases_iff.2 imported
    exact iff_of_true (List.mem_cons_of_mem _ (List.mem_map_of_mem aliased)) (List.mem_cons_of_mem _ aliased)
  · have kept : (replacing old new other).value called = called := if_neg here
    rw [kept, List.mem_cons, List.mem_cons, List.mem_map]
    refine or_congr_right ⟨?_, fun aliased => ⟨called, aliased, kept⟩⟩
    rintro ⟨bound, aliased, same⟩
    by_cases replaced : bound = old
    · have becomes : (replacing old new other).value bound = new := if_pos replaced
      exact (unused _ listed (by rw [← same, becomes])).elim
    · have stays : (replacing old new other).value bound = bound := if_neg replaced
      rwa [← same, stays]

/-- **An imported name can be replaced by one that is not in use.**  The keys stay the same. -/
theorem markerKeys_rename {old new : String} (other : String → String) (imported : ⟨name, old⟩ ∈ program.imports)
    (unused : Unused program new) :
    markerKeys name (program.rename (replacing old new other)) = markerKeys name program := by
  have calls : (program.rename (replacing old new other)).functionCalls
      (name :: (program.rename (replacing old new other)).aliases name) =
      (program.functionCalls (name :: program.aliases name)).map
        (List.map (Node.rename (replacing old new other))) := by
    rw [Script.Module.functionCalls, Script.Module.nodes_rename, List.filterMap_map, Script.Module.functionCalls,
      List.map_filterMap]
    refine List.filterMap_congr fun node member => functionCall?_rename _ fun called below => ?_
    obtain ⟨statement, among, inside⟩ := List.mem_flatMap.1 member
    exact mem_markers_rename_iff other imported unused
      (List.mem_flatMap.2 ⟨statement, among, Node.mem_preorder_trans inside below⟩)
  rw [markerKeys, calls, markerKeys, List.flatMap_map]
  simp only [argumentKeys_rename]

/-- **The keys that are marked in a program, exactly.**  The table of the marker function has the keys in the
first argument of its calls, wherever they stand and under whatever name, in the order of the places and each
where it comes first; a spread argument gives none. And the names are no part of it: if a name that the function
is imported as is replaced by one that no value in the program has, wherever it stands, the table is the same. -/
theorem find?_marker_exact (name : String) (program : Script.Module) (templates : List Template.Document) :
    (∃ calls : List (Place × List Node), calls.Pairwise (·.1 < ·.1) ∧
      (∀ place arguments, (place, arguments) ∈ calls ↔ program.MarksAt name place arguments) ∧
      ∃ table, (Strategy.marker name).find? (.program program templates) = some table ∧
        table.keys = (calls.flatMap fun call => argumentKeys call.2).eraseDups ∧
        ∀ key ∈ table.keys, table.get? key = some none) ∧
    ∀ old new other templates', ⟨name, old⟩ ∈ program.imports → Unused program new →
      (Strategy.marker name).find? (.program (program.rename (replacing old new other)) templates') =
        (Strategy.marker name).find? (.program program templates) := by
  refine ⟨⟨markerCalls name program, Node.pairwise_withPlaces _, fun _ _ => mem_markerCalls_iff name program,
    KeyTable.ofKeys (markerKeys name program), rfl, ?_, fun key => KeyTable.get?_ofKeys⟩, ?_⟩
  · rw [KeyTable.keys_ofKeys, markerKeys_eq_flatMap]
  · intro old new other templates' imported unused
    have same := markerKeys_rename other imported unused
    simp only [find?, keys?, Source.program?, Option.map_some, same]

/-- `import { marker as _ } from 'm'; (_)('B', [_('A')]); marker('B');` -/
def marked : Script.Module where
  imports := [⟨"marker", "_"⟩]
  body :=
    [.group [], .group [.call (.wrapped .parentheses (.identifier "_") [])
        [.str (some "B"), .array [.call (.identifier "_") [.str (some "A")] []]] []],
      .group [.call (.identifier "marker") [.str (some "B")] []]]

/-- The same keys under another name. -/
theorem find?_marker_exact_replaced :
    ⟨"marker", "_"⟩ ∈ marked.imports ∧ Unused marked "tag" ∧
      ((Strategy.marker "marker").find? (.program (marked.rename (replacing "_" "tag" id)) [])).map KeyTable.keys =
        some ["B", "A"] := by
  have imported : ⟨"marker", "_"⟩ ∈ marked.imports := List.mem_singleton_self _
  have unused : Unused marked "tag" := by
    unfold Unused
    simp [marked, Script.Module.nodes, Node.preorder, Node.walk, Node.walkAll]
  refine ⟨imported, unused, ?_⟩
  obtain ⟨-, replaced⟩ := find?_marker_exact "marker" marked []
  have keys : markerKeys "marker" marked = ["B", "A", "B"] := by decide +kernel
  rw [replaced "_" "tag" id [] imported unused]
  show some (KeyTable.ofKeys (markerKeys "marker" marked)).keys = some ["B", "A"]
  rw [KeyTable.keys_ofKeys, keys]
  decide

end Strategy
end MessageKeys
