import Mathlib.Data.List.Induction
import MessageKeys.Proofs.Script.Places
import MessageKeys.Script.Search
/-!
# Proofs.Script.MethodCalls — the calls that are collected for a class

The search of a class for the calls on its property carries a flag down the tree. Told without the flag
(`CallsAt`), a call is collected by what it looks like and, where it uses the bare name of the property, by
the nearest constructor, function or class above it. `methodCalls_of_places` says that both agree, in order
and each call once. Two consequences are worth knowing before relying on the search:

* a constructor parameter with a default declares a property in the language, but not here
  (`methodCalls_of_defaulted`);
* a class inside another one is searched for both, so the outer class gets the calls through `this` of the
  inner one (`methodCalls_of_inner`).
-/
namespace MessageKeys.Script
namespace Node

/-! ## The nearest scope -/

/-- A constructor, a function or a class: what decides which property a bare name may be. Arrows and the
accessors of object literals do not. -/
def isScope : Node → Bool
  | .constructor _ _ | .function _ | .classBody _ _ _ => true
  | _ => false

/-- The nearest scope above a place, given what stands above it from the top down. -/
def nearestScope? (above : List Node) : Option Node := above.reverse.find? isScope

/-- The nearest scope is a constructor. -/
def InConstructor (above : List Node) : Prop :=
  ∃ parameters body, nearestScope? above = some (.constructor parameters body)

theorem nearestScope?_append (outer inner : List Node) :
    nearestScope? (outer ++ inner) = (nearestScope? inner).or (nearestScope? outer) := by
  rw [nearestScope?, List.reverse_append, List.find?_append]
  rfl

/-- What stands outside a scope does not count inside. -/
theorem inConstructor_append {outer inner : List Node} {scope : Node} (member : scope ∈ inner)
    (opens : scope.isScope) : InConstructor (outer ++ inner) ↔ InConstructor inner := by
  have found : (nearestScope? inner).isSome := by
    rw [nearestScope?, List.find?_isSome]
    exact ⟨scope, List.mem_reverse.2 member, opens⟩
  rw [InConstructor, InConstructor, nearestScope?_append, Option.or_of_isSome found]

/-- The flag that the search carries down tells whether the nearest scope is a constructor. -/
theorem foldl_enterConstructor (above : List Node) :
    above.foldl enterConstructor false = true ↔ InConstructor above := by
  induction above using List.reverseRecOn with
  | nil => simp [InConstructor, nearestScope?]
  | append_singleton above node ih =>
      rw [List.foldl_append, List.foldl_cons, List.foldl_nil, InConstructor, nearestScope?_append]
      cases node <;> simp [enterConstructor, nearestScope?, isScope, ih, InConstructor]

/-! ## One call -/

/-- A constructor of this class declares the property as a parameter with this default, or without one. -/
def IsParameterProperty (property : String) (fallback : List Node) (outer : Node) : Prop :=
  ∃ parameters body type decorators pattern, .constructor parameters body ∈ outer.members ∧
    .parameterProperty (some property) type decorators pattern fallback ∈ parameters

theorem declaresParameterProperty_iff (property : String) (node : Node) :
    node.declaresParameterProperty property = true ↔ node.IsParameterProperty property [] := by
  rw [declaresParameterProperty, List.any_eq_true]
  constructor
  · rintro ⟨member, listed, found⟩
    split at found
    · obtain ⟨parameter, among, declares⟩ := List.any_eq_true.1 found
      split at declares
      · cases eq_of_beq declares
        exact ⟨_, _, _, _, _, listed, among⟩
      · cases declares
    · cases found
  · rintro ⟨parameters, body, type, decorators, pattern, listed, among⟩
    exact ⟨_, listed, List.any_eq_true.2 ⟨_, among, beq_self_eq_true _⟩⟩

/-- A call of one of the methods on the property, which is `this.property`, or the bare name where that may
be the property. -/
def IsMethodCall (property : String) (methods : List String) (bare : Prop) (node : Node)
    (arguments : List Node) : Prop :=
  ∃ callee types receiver method, node = .call callee arguments types ∧
    callee.unwrap = .member receiver method ∧ method ∈ methods ∧
    (receiver.unwrap = .member .thisValue property ∨ bare ∧ receiver.unwrap = .identifier property)

theorem isPropertyAccess_iff (property : String) (bareName : Bool) (node : Node) :
    node.isPropertyAccess property bareName = true ↔
      node.unwrap = .member .thisValue property ∨ bareName = true ∧ node.unwrap = .identifier property := by
  rw [isPropertyAccess]
  split <;> simp_all

theorem methodCall?_eq_some_iff (property : String) (methods : List String) (bareName : Bool) (node : Node)
    (arguments : List Node) :
    node.methodCall? property methods bareName = some arguments ↔
      node.IsMethodCall property methods (bareName = true) arguments := by
  constructor
  · intro found
    rw [methodCall?.eq_def] at found
    split at found
    · rename_i callee listed types
      split at found
      · rename_i receiver method inside
        split at found
        · rename_i both
          cases found
          rw [Bool.and_eq_true, isPropertyAccess_iff] at both
          exact ⟨callee, types, receiver, method, rfl, inside, List.contains_iff_mem.1 both.1, both.2⟩
        · cases found
      · cases found
    · cases found
  · rintro ⟨callee, types, receiver, method, rfl, inside, listed, access⟩
    have both : (methods.contains method && receiver.isPropertyAccess property bareName) = true := by
      rw [Bool.and_eq_true, isPropertyAccess_iff]
      exact ⟨List.contains_iff_mem.2 listed, access⟩
    simp only [methodCall?, inside, both, if_true]

/-! ## All calls -/

/-- At this place below a class stands a call of one of the methods on the property. The bare name is the
property if the class declares it, whatever that takes, and the nearest scope is a constructor. -/
def CallsAt (declares : Prop) (property : String) (methods : List String) (outer : Node) (place : Place)
    (arguments : List Node) : Prop :=
  ∃ node, outer.at? place = some node ∧
    node.IsMethodCall property methods (declares ∧ InConstructor (outer.above place)) arguments

/-- The calls that are collected for a class, with their places. -/
def callsWithPlaces (property : String) (methods : List String) (outer : Node) : List (Place × List Node) :=
  outer.places.filterMap fun place =>
    (outer.at? place).bind fun node =>
      (node.methodCall? property methods (outer.declaresParameterProperty property &&
        (outer.above place).foldl enterConstructor false)).map (place, ·)

variable (property : String) (methods : List String) (outer : Node)

theorem methodCalls_eq_callsWithPlaces :
    outer.methodCalls property methods = (outer.callsWithPlaces property methods).map Prod.snd := by
  rw [methodCalls, walk_eq_places, List.filterMap_filterMap, callsWithPlaces, List.map_filterMap]
  congr 1
  funext place
  cases outer.at? place <;> simp [Function.comp_def]

theorem mem_callsWithPlaces_iff {place : Place} {arguments : List Node} :
    (place, arguments) ∈ outer.callsWithPlaces property methods ↔
      outer.CallsAt (outer.IsParameterProperty property []) property methods place arguments := by
  have flags : (outer.declaresParameterProperty property &&
      (outer.above place).foldl enterConstructor false) = true ↔
        outer.IsParameterProperty property [] ∧ InConstructor (outer.above place) := by
    rw [Bool.and_eq_true, declaresParameterProperty_iff, foldl_enterConstructor]
  refine (outer.mem_withPlaces_iff).trans ?_
  simp only [methodCall?_eq_some_iff, flags, CallsAt]

theorem pairwise_callsWithPlaces : (outer.callsWithPlaces property methods).Pairwise (·.1 < ·.1) :=
  outer.pairwise_withPlaces

/-- **The calls collected for a class, by where they stand.**  They are the calls of the methods through
`this.property` anywhere below the class, and through the bare name wherever the nearest scope is a
constructor, if a constructor of the class declares the property as a parameter without a default. Each is
listed once, in the order of the places. -/
theorem methodCalls_of_places :
    ∃ calls : List (Place × List Node), calls.Pairwise (·.1 < ·.1) ∧
      (∀ place arguments, (place, arguments) ∈ calls ↔
        outer.CallsAt (outer.IsParameterProperty property []) property methods place arguments) ∧
      outer.methodCalls property methods = calls.map Prod.snd :=
  ⟨outer.callsWithPlaces property methods, outer.pairwise_callsWithPlaces property methods,
    fun _ _ => outer.mem_callsWithPlaces_iff property methods,
    outer.methodCalls_eq_callsWithPlaces property methods⟩

/-- `class C { constructor(private t: T = m()) { t.get('K'); } }` -/
def defaulted : Node :=
  .classBody []
    [.constructor
      [.parameterProperty (some "t") (some "T") [] [.identifier "t"] [.call (.identifier "m") [] []]]
      [.call (.member (.identifier "t") "get") [.str (some "K")] []]] []

/-- **A default hides a parameter property.**  The class declares the property and calls a method on it in
the constructor that declares it; the call is not collected. -/
theorem methodCalls_of_defaulted :
    (∃ fallback, defaulted.IsParameterProperty "t" fallback) ∧
      defaulted.CallsAt (∃ fallback, defaulted.IsParameterProperty "t" fallback) "t" ["get"] [0, 1]
        [.str (some "K")] ∧
      defaulted.methodCalls "t" ["get"] = [] := by
  have declares : ∃ fallback, defaulted.IsParameterProperty "t" fallback :=
    ⟨_, _, _, _, _, _, List.mem_singleton.2 rfl, List.mem_singleton.2 rfl⟩
  have constructing : InConstructor (defaulted.above [0, 1]) := ⟨_, _, rfl⟩
  refine ⟨declares, ⟨_, rfl, _, _, _, _, rfl, rfl, List.mem_singleton.2 rfl, ?_⟩, rfl⟩
  exact .inr ⟨⟨declares, constructing⟩, rfl⟩

/-! ## Classes inside classes -/

theorem exists_of_isClass {node : Node} (opens : node.isClass) :
    ∃ decorators members heritage, node = .classBody decorators members heritage := by
  unfold isClass at opens
  split at opens
  · exact ⟨_, _, _, rfl⟩
  · cases opens

/-- Below a class the nearest scope is the same whatever the class stands in. -/
theorem callsAt_inner {declares : Prop} {place : Place} {inner : Node} (found : outer.at? place = some inner)
    (opens : inner.isClass) (below : Place) (arguments : List Node) :
    outer.CallsAt declares property methods (place ++ below) arguments ↔
      inner.CallsAt declares property methods below arguments := by
  have same : outer.at? (place ++ below) = inner.at? below := by
    rw [at?_append, found, Option.bind_some]
  obtain ⟨decorators, members, heritage, rfl⟩ := exists_of_isClass opens
  rw [CallsAt, CallsAt, same, above_append outer found]
  cases below with
  | nil =>
      -- A class is no call.
      constructor
      all_goals
        rintro ⟨node, here, callee, types, receiver, method, rfl, -⟩
        cases here
  | cons number below =>
      have scope : classBody decorators members heritage ∈
          (classBody decorators members heritage).above (number :: below) := List.mem_cons_self ..
      rw [inConstructor_append scope rfl]

/-- **A class inside another one is searched for both.**  Of the calls below an inner class, the outer class
gets those that the inner class would get if it declared the property the way the outer class does: all
calls through `this.property`, though `this` is the inner class there, and the calls through the bare name
in constructors of the inner class, if the outer class declares the property. -/
theorem methodCalls_of_inner :
    ∃ calls : List (Place × List Node), calls.Pairwise (·.1 < ·.1) ∧
      outer.methodCalls property methods = calls.map Prod.snd ∧
      ∀ place inner, outer.at? place = some inner → inner.isClass →
        ∀ below arguments, (place ++ below, arguments) ∈ calls ↔
          inner.CallsAt (outer.IsParameterProperty property []) property methods below arguments := by
  refine ⟨outer.callsWithPlaces property methods, outer.pairwise_callsWithPlaces property methods,
    outer.methodCalls_eq_callsWithPlaces property methods, ?_⟩
  intro place inner found opens below arguments
  rw [mem_callsWithPlaces_iff, callsAt_inner property methods outer found opens]

/-- `class D { constructor() { t.get('BARE'); } go() { this.t.get('THIS'); } }` -/
def enclosed : Node :=
  .classBody []
    [.constructor [] [.call (.member (.identifier "t") "get") [.str (some "BARE")] []],
      .group [.function [.call (.member (.member .thisValue "t") "get") [.str (some "THIS")] []]]] []

/-- `class C { constructor(private t: T) {} run() { class D … } }` with the class above. -/
def enclosing : Node :=
  .classBody []
    [.constructor [.parameterProperty (some "t") (some "T") [] [.identifier "t"] []] [],
      .group [.function [enclosed]]] []

/-- The call through `this` of the inner class is among those of the outer one. -/
theorem methodCalls_of_inner_enclosed :
    enclosing.at? [1, 0, 0] = some enclosed ∧ enclosed.isClass ∧
      ∃ calls : List (Place × List Node), enclosing.methodCalls "t" ["get"] = calls.map Prod.snd ∧
        ([1, 0, 0] ++ [1, 0, 0], [.str (some "THIS")]) ∈ calls := by
  obtain ⟨calls, -, same, inner⟩ := methodCalls_of_inner "t" ["get"] enclosing
  refine ⟨rfl, rfl, calls, same, (inner [1, 0, 0] enclosed rfl rfl [1, 0, 0] _).2 ?_⟩
  exact ⟨_, rfl, _, _, _, _, rfl, rfl, List.mem_singleton.2 rfl, .inl rfl⟩

/-- **A class gets calls that are not its own.**  The inner class holds no service, and neither of its calls
is one of the outer class; both are collected for it. -/
theorem methodCalls_of_enclosing :
    enclosing.propertyOfType "T" = some "t" ∧ enclosed.propertyOfType "T" = none ∧
      enclosing.methodCalls "t" ["get"] = [[.str (some "BARE")], [.str (some "THIS")]] :=
  ⟨rfl, rfl, rfl⟩

end Node
end MessageKeys.Script
