import Mathlib.Data.List.Basic
import MessageKeys.Script.Node
/-!
# Proofs.Script.Places — where the nodes of a program stand

A `Place` below a node is the way down to it, each part by its number. The places of a tree in their order
(`Node.places`) are those of its nodes, each once, a node before its parts and the parts from left to right:
this is the order of lists of numbers (`pairwise_places`). A walk meets the nodes in this order, each in the
state that the nodes above it leave (`walk_eq_places`). What a search that carries a state finds at a node is
therefore decided by the node and by what stands above it.
-/
namespace MessageKeys.Script

/-- A place below a node: the way down to it, each part by its number. -/
abbrev Place := List Nat

namespace Node

/-- The node at a place. -/
def at? : Node → Place → Option Node
  | node, [] => some node
  | node, number :: place => node.children[number]?.bind (·.at? place)

/-- The nodes above a place, from the top down. -/
def above : Node → Place → List Node
  | _, [] => []
  | node, number :: place => node :: (node.children[number]?.map (·.above place)).getD []

theorem sizeOf_lt_of_mem_children {part node : Node} (member : part ∈ node.children) :
    sizeOf part < sizeOf node := by
  have below : ∀ parts : List Node, part ∈ parts → sizeOf part < sizeOf parts :=
    fun _ member => List.sizeOf_lt_of_mem member
  cases node <;> grind [children]

/-- Induction over the parts of a node. -/
theorem induction_on_children {motive : Node → Prop}
    (step : ∀ node, (∀ part ∈ node.children, motive part) → motive node) (node : Node) : motive node :=
  step node fun part _ => induction_on_children step part
termination_by sizeOf node
decreasing_by exact sizeOf_lt_of_mem_children ‹_›

/-- The places of the nodes of a tree, each node before its parts and the parts from left to right. -/
def places (node : Node) : List Place :=
  [] :: (List.range node.children.length).flatMap fun number =>
    match _found : node.children[number]? with
    | none => []
    | some part => part.places.map (number :: ·)
termination_by sizeOf node
decreasing_by exact sizeOf_lt_of_mem_children (List.mem_of_getElem? ‹_›)

variable (node : Node)

theorem places_eq :
    node.places = [] :: (List.range node.children.length).flatMap fun number =>
      (node.children[number]?.elim [] places).map (number :: ·) := by
  rw [places]
  congr 2
  funext number
  split <;> simp_all

theorem at?_append (first second : Place) :
    node.at? (first ++ second) = (node.at? first).bind (·.at? second) := by
  induction first generalizing node with
  | nil => rfl
  | cons number first ih =>
      rw [List.cons_append, at?, at?]
      cases node.children[number]? with
      | none => rfl
      | some part => exact ih part

theorem above_append {first : Place} {inner : Node} (found : node.at? first = some inner) (second : Place) :
    node.above (first ++ second) = node.above first ++ inner.above second := by
  induction first generalizing node with
  | nil =>
      cases found
      rfl
  | cons number first ih =>
      obtain ⟨part, listed, found⟩ := Option.bind_eq_some_iff.1 found
      simp only [List.cons_append, above, listed, Option.map_some, Option.getD_some, ih part found]

theorem mem_places_iff {place : Place} : place ∈ node.places ↔ ∃ found, node.at? place = some found := by
  induction place generalizing node with
  | nil => simp [places_eq, at?]
  | cons number place ih =>
      cases listed : node.children[number]? with
      | none => simp [places_eq, at?, listed]
      | some part =>
          have bound := (List.getElem?_eq_some_iff.1 listed).1
          simp [places_eq, at?, bound, ← ih]

/-- The order of the places is that of lists of numbers. -/
theorem pairwise_places : node.places.Pairwise (· < ·) := by
  induction node using induction_on_children with
  | step node ih =>
      rw [places_eq, List.pairwise_cons, List.pairwise_flatMap]
      refine ⟨?_, ?_, ?_⟩
      · intro place member
        obtain ⟨number, -, below⟩ := List.mem_flatMap.1 member
        obtain ⟨way, -, rfl⟩ := List.mem_map.1 below
        exact List.nil_lt_cons number way
      · intro number _
        cases listed : node.children[number]? with
        | none => exact List.Pairwise.nil
        | some part =>
            refine List.pairwise_map.2 ((ih part (List.mem_of_getElem? listed)).imp fun less => ?_)
            exact List.cons_lt_cons_iff.2 (.inr ⟨rfl, less⟩)
      · refine List.pairwise_lt_range.imp fun less place below other behind => ?_
        obtain ⟨way, -, rfl⟩ := List.mem_map.1 below
        obtain ⟨way', -, rfl⟩ := List.mem_map.1 behind
        exact List.cons_lt_cons_iff.2 (.inl less)

/-- What is collected from a list, taken number by number. -/
theorem flatMap_eq_range {α β : Type} (collect : α → List β) (items : List α) :
    items.flatMap collect = (List.range items.length).flatMap fun number =>
      items[number]?.elim [] collect := by
  induction items with
  | nil => rfl
  | cons item items ih =>
      rw [List.flatMap_cons, ih, List.length_cons, List.range_succ_eq_map, List.flatMap_cons,
        List.flatMap_map]
      rfl

theorem walkAll_eq_flatMap {σ : Type} (enter : σ → Node → σ) (state : σ) (parts : List Node) :
    walkAll enter state parts = parts.flatMap (walk enter state) := by
  induction parts with
  | nil => rfl
  | cons part parts ih => rw [walkAll, ih, List.flatMap_cons]

/-- **A walk meets the nodes in the order of their places**, each in the state that the nodes above it
leave. -/
theorem walk_eq_places {σ : Type} (enter : σ → Node → σ) (state : σ) :
    node.walk enter state = node.places.filterMap fun place =>
      (node.at? place).map fun found => ((node.above place).foldl enter state, found) := by
  induction node using induction_on_children generalizing state with
  | step node ih =>
      rw [walk_eq, walkAll_eq_flatMap, flatMap_eq_range, places_eq, List.filterMap_cons]
      simp only [at?, above, Option.map_some, List.foldl_nil, List.filterMap_flatMap]
      congr 2
      funext number
      cases listed : node.children[number]? with
      | none => rfl
      | some part =>
          simp only [Option.elim_some, List.filterMap_map]
          rw [ih part (List.mem_of_getElem? listed)]
          congr 1
          funext place
          simp [at?, above, listed]

/-- Whatever state is carried along, a walk meets the same nodes. -/
theorem map_snd_walk {σ : Type} (enter : σ → Node → σ) (state : σ) :
    (node.walk enter state).map Prod.snd = node.preorder := by
  rw [preorder, walk_eq_places, walk_eq_places, List.map_filterMap, List.map_filterMap]
  simp only [Option.map_map, Function.comp_def]

/-! ## What a search finds -/

/-- What a search finds at the nodes of a tree, with their places. -/
def withPlaces {α : Type} (search : Place → Node → Option α) : List (Place × α) :=
  node.places.filterMap fun place => (node.at? place).bind fun found => (search place found).map (place, ·)

section WithPlaces

variable {α : Type} {search : Place → Node → Option α}

theorem mem_withPlaces_iff {place : Place} {what : α} :
    (place, what) ∈ node.withPlaces search ↔
      ∃ found, node.at? place = some found ∧ search place found = some what := by
  rw [withPlaces, List.mem_filterMap]
  constructor
  · rintro ⟨way, -, given⟩
    obtain ⟨found, here, given⟩ := Option.bind_eq_some_iff.1 given
    obtain ⟨other, finds, same⟩ := Option.map_eq_some_iff.1 given
    cases same
    exact ⟨found, here, finds⟩
  · rintro ⟨found, here, finds⟩
    exact ⟨place, node.mem_places_iff.2 ⟨found, here⟩, by rw [here, Option.bind_some, finds, Option.map_some]⟩

theorem pairwise_withPlaces : (node.withPlaces search).Pairwise (·.1 < ·.1) := by
  refine node.pairwise_places.filterMap _ fun first second less one found other found' => ?_
  obtain ⟨_, -, found⟩ := Option.bind_eq_some_iff.1 found
  obtain ⟨_, -, found'⟩ := Option.bind_eq_some_iff.1 found'
  obtain ⟨_, -, rfl⟩ := Option.map_eq_some_iff.1 found
  obtain ⟨_, -, rfl⟩ := Option.map_eq_some_iff.1 found'
  exact less

/-- A search that asks for the node alone finds the same, in the same order, without places. -/
theorem map_snd_withPlaces (search : Node → Option α) :
    (node.withPlaces fun _ => search).map Prod.snd = node.preorder.filterMap search := by
  rw [withPlaces, List.map_filterMap, preorder, walk_eq_places, List.map_filterMap, List.filterMap_filterMap]
  congr 1
  funext place
  cases node.at? place <;> simp [Function.comp_def]

end WithPlaces

/-! ## Below a node -/

/-- A node comes first, then all that is below its parts, from left to right. -/
theorem preorder_eq : node.preorder = node :: node.children.flatMap preorder := by
  rw [preorder, walk_eq, walkAll_eq_flatMap, List.map_cons, List.map_flatMap]
  rfl

theorem mem_preorder_self : node ∈ node.preorder := by
  rw [preorder_eq]
  exact List.mem_cons_self

/-- What is below a part of a node is below the node. -/
theorem mem_preorder_of_mem_children {part found : Node} (member : part ∈ node.children)
    (below : found ∈ part.preorder) : found ∈ node.preorder := by
  rw [preorder_eq]
  exact List.mem_cons_of_mem _ (List.mem_flatMap.2 ⟨part, member, below⟩)

theorem mem_preorder_trans {outer inner found : Node} (inside : inner ∈ outer.preorder)
    (below : found ∈ inner.preorder) : found ∈ outer.preorder := by
  induction outer using induction_on_children with
  | step outer ih =>
      rw [preorder_eq] at inside
      rcases List.mem_cons.1 inside with rfl | deeper
      · exact below
      · obtain ⟨part, member, inside⟩ := List.mem_flatMap.1 deeper
        exact outer.mem_preorder_of_mem_children member (ih part member inside)

/-- What wrappers stand around is below them. -/
theorem unwrap_mem_preorder : node.unwrap ∈ node.preorder := by
  induction node using induction_on_children with
  | step node ih =>
      cases node with
      | wrapped wrapper inner types =>
          exact mem_preorder_of_mem_children _ List.mem_cons_self (ih inner List.mem_cons_self)
      | _ => exact mem_preorder_self _

end Node
end MessageKeys.Script
