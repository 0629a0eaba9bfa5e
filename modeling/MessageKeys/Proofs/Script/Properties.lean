import Mathlib.Data.List.Basic
import MessageKeys.Script.Search
/-!
# Proofs.Script.Properties — the property that holds a service

A class declares properties in its fields and in the parameters of its constructors. `DeclaresAt` says where one
of them holds a service of some type: by its annotation, or, for a field, by what it is initialised with. The
property that `propertyOfType` names is the one declared first, and if it names none, there is none
(`propertyOfType_exact`), where a parameter counts only if it has no default. In the language a parameter with a
default declares a property as well; the search does not find that (`propertyOfType_of_default`).
-/
namespace MessageKeys.Script

/-! ## What is found first -/

section First

variable {α β : Type}

/-- Of all that there is, by its place, the first is found, and nothing only if there is nothing. -/
structure IsFirst (There : List Nat → α → Prop) (found : Option α) : Prop where
  some_iff : ∀ what, found = some what ↔
    ∃ place, There place what ∧ ∀ other what', There other what' → ¬ other < place
  none_iff : found = none ↔ ∀ place what, ¬ There place what

/-- What there is in the items of a list: its place begins with the number of the item. -/
def InItems (There : β → List Nat → α → Prop) (items : List β) (place : List Nat) (what : α) : Prop :=
  ∃ number below item, place = number :: below ∧ items[number]? = some item ∧ There item below what

variable {There : β → List Nat → α → Prop} {search : β → Option α}

theorem IsFirst.congr {There' : List Nat → α → Prop} {There : List Nat → α → Prop} {found : Option α}
    (first : IsFirst There found) (same : ∀ place what, There' place what ↔ There place what) :
    IsFirst There' found := by
  obtain rfl : There' = There := by
    funext place what
    exact propext (same place what)
  exact first

/-- What can be in one place only is first. -/
theorem IsFirst.ofAlone {There : List Nat → α → Prop} {found : Option α}
    (alone : ∀ place what, There place what → place = []) (found_iff : ∀ what, found = some what ↔ There [] what) :
    IsFirst There found where
  some_iff what := by
    rw [found_iff]
    refine ⟨fun there => ⟨[], there, fun _ _ _ => List.not_lt_nil _⟩, fun ⟨place, there, _⟩ => ?_⟩
    rwa [← alone place what there]
  none_iff := by
    rw [Option.eq_none_iff_forall_ne_some]
    refine ⟨fun nothing place what there => ?_, fun nothing what same => nothing [] what ((found_iff what).1 same)⟩
    rw [alone place what there] at there
    exact nothing what ((found_iff what).2 there)

/-- **The first of the first.**  What is found is what is found first in the first item that has anything. -/
theorem isFirst_findSome? {items : List β} (each : ∀ item, IsFirst (There item) (search item)) :
    IsFirst (InItems There items) (items.findSome? search) := by
  cases found : items.findSome? search with
  | none =>
      have nothing : ∀ place what, ¬ InItems There items place what := by
        rintro _ what ⟨number, below, item, -, here, there⟩
        have empty := List.findSome?_eq_none_iff.1 found item (List.mem_of_getElem? here)
        exact (each item).none_iff.1 empty below what there
      exact ⟨fun what => iff_of_false nofun fun ⟨place, there, _⟩ => nothing place what there,
        iff_of_true rfl nothing⟩
  | some what =>
      obtain ⟨front, item, behind, rfl, gives, empty⟩ := List.findSome?_eq_some_iff.1 found
      obtain ⟨below, there, least⟩ := ((each item).some_iff what).1 gives
      have here : (front ++ item :: behind)[front.length]? = some item := by simp
      -- Nothing is in front of the item, and in the item nothing in front of what is found.
      have first : ∀ other what', InItems There (front ++ item :: behind) other what' →
          ¬ other < front.length :: below := by
        rintro _ what' ⟨number, below', item', rfl, here', there'⟩ less
        rcases List.cons_lt_cons_iff.1 less with before | ⟨rfl, lower⟩
        · rw [List.getElem?_append_left before] at here'
          exact (each item').none_iff.1 (empty item' (List.mem_of_getElem? here')) below' what' there'
        · cases here.symm.trans here'
          exact least below' what' there' lower
      have inItems : InItems There (front ++ item :: behind) (front.length :: below) what :=
        ⟨_, below, item, rfl, here, there⟩
      refine ⟨fun what' => ⟨fun same => ?_, ?_⟩, iff_of_false nofun fun nothing => nothing _ what inItems⟩
      · cases same
        exact ⟨_, inItems, first⟩
      · rintro ⟨_, ⟨number, below', item', rfl, here', there'⟩, least'⟩
        obtain ⟨rfl, rfl⟩ : front.length = number ∧ below = below' := by
          have same := List.le_antisymm (first _ what' ⟨number, below', item', rfl, here', there'⟩)
            (least' _ what inItems)
          exact List.cons.inj same
        cases here.symm.trans here'
        rw [← gives]
        exact ((each item).some_iff what').2 ⟨below, there', least⟩

end First

namespace Node

/-! ## What a member declares -/

/-- A call of `inject` with the type first. A spread of the type counts as well. -/
def Injects (type : String) (node : Node) : Prop :=
  ∃ callee first others types, node.unwrap = .call callee (first :: others) types ∧
    callee.unwrap = .identifier "inject" ∧ first.withoutSpread.unwrap = .identifier type

/-- The parameter declares the property with this type, and its default is `allowed`. -/
inductive ParameterDeclares (allowed : List Node → Prop) (type : String) : Node → List Nat → String → Prop
  | typed {name decorators pattern fallback} : allowed fallback →
    ParameterDeclares allowed type
      (.parameterProperty (some name) (some type) decorators pattern fallback) [] name

/-- The member declares a property that holds the type: a constructor in the parameter with this number, a field
itself, by its annotation or by what it is initialised with. -/
inductive MemberDeclares (allowed : List Node → Prop) (type : String) : Node → List Nat → String → Prop
  | parameter {parameters body place name} : InItems (ParameterDeclares allowed type) parameters place name →
    MemberDeclares allowed type (.constructor parameters body) place name
  | typed {name key value rest} :
    MemberDeclares allowed type (.field (some name) (some type) key value rest) [] name
  | injected {name declared key value rest given} : given ∈ value → Injects type given →
    MemberDeclares allowed type (.field (some name) declared key value rest) [] name

/-- At this place the class declares a property that holds the type. The place is the number of a member and, in a
constructor, that of a parameter. -/
def DeclaresAt (allowed : List Node → Prop) (type : String) (outer : Node) : List Nat → String → Prop :=
  InItems (MemberDeclares allowed type) outer.members

theorem plainName?_eq_some_iff {node : Node} {name : String} :
    node.plainName? = some name ↔ node.unwrap = .identifier name := by
  rw [plainName?]
  split <;> simp_all

theorem isInjectionOf_iff (type : String) (node : Node) : node.isInjectionOf type = true ↔ node.Injects type := by
  rw [isInjectionOf]
  constructor
  · intro injects
    split at injects
    · rename_i callee first others types shape
      rw [Bool.and_eq_true, beq_iff_eq, beq_iff_eq, plainName?_eq_some_iff, plainName?_eq_some_iff] at injects
      exact ⟨callee, first, others, types, shape, injects⟩
    · cases injects
  · rintro ⟨callee, first, others, types, shape, both⟩
    simp only [shape]
    rwa [Bool.and_eq_true, beq_iff_eq, beq_iff_eq, plainName?_eq_some_iff, plainName?_eq_some_iff]

variable (type : String)

theorem isFirst_parameterOfType (parameter : Node) :
    IsFirst (ParameterDeclares (· = []) type parameter) (parameterOfType type parameter) := by
  refine .ofAlone (fun place name declares => by cases declares; rfl) fun name => ⟨fun found => ?_, ?_⟩
  · unfold parameterOfType at found
    split at found
    · obtain ⟨same, found⟩ := Option.ite_none_right_eq_some.1 found
      cases found
      cases eq_of_beq same
      exact .typed rfl
    · cases found
  · rintro ⟨rfl⟩
    exact if_pos (beq_self_eq_true type)

theorem memberDeclares_field_iff {allowed : List Node → Prop} {declared : Option String} {name : Option String}
    {key value rest : List Node} {place : List Nat} {called : String} :
    MemberDeclares allowed type (.field name declared key value rest) place called ↔
      place = [] ∧ name = some called ∧ (declared = some type ∨ ∃ given ∈ value, Injects type given) := by
  constructor
  · intro declares
    cases declares with
    | typed => exact ⟨rfl, rfl, .inl rfl⟩
    | injected member injects => exact ⟨rfl, rfl, .inr ⟨_, member, injects⟩⟩
  · rintro ⟨rfl, rfl, rfl | ⟨given, member, injects⟩⟩
    · exact .typed
    · exact .injected member injects

theorem memberDeclares_constructor_iff {allowed : List Node → Prop} {parameters body : List Node}
    {place : List Nat} {name : String} : MemberDeclares allowed type (.constructor parameters body) place name ↔
      InItems (ParameterDeclares allowed type) parameters place name :=
  ⟨fun declares => by cases declares; assumption, .parameter⟩

theorem isFirst_propertyOfMember (member : Node) :
    IsFirst (MemberDeclares (· = []) type member) (propertyOfMember type member) := by
  unfold propertyOfMember
  split
  · exact (isFirst_findSome? (isFirst_parameterOfType type)).congr fun _ _ => memberDeclares_constructor_iff type
  · refine .ofAlone (fun _ _ declares => ((memberDeclares_field_iff type).1 declares).1) fun name => ?_
    simp only [memberDeclares_field_iff, true_and, Option.ite_none_right_eq_some, Bool.or_eq_true, beq_iff_eq,
      List.any_eq_true, isInjectionOf_iff]
    exact And.comm
  · rename_i noConstructor noField
    have nothing : ∀ place name, ¬ MemberDeclares (· = []) type member place name := by
      intro place name declares
      cases declares with
      | parameter => exact noConstructor _ _ rfl
      | typed | injected => exact noField _ _ _ _ _ rfl
    exact .ofAlone (fun place name declares => (nothing place name declares).elim) fun name =>
      iff_of_false nofun (nothing [] name)

/-- **The property that is found is the one declared first.**  A parameter of a constructor counts if it has the
type and no default, a field if it has the type or is initialised by injecting it; and nothing is found only if
the class declares no such property. -/
theorem propertyOfType_exact (outer : Node) :
    (∀ name, outer.propertyOfType type = some name ↔
      ∃ place, outer.DeclaresAt (· = []) type place name ∧
        ∀ other name', outer.DeclaresAt (· = []) type other name' → ¬ other < place) ∧
    (outer.propertyOfType type = none ↔ ∀ place name, ¬ outer.DeclaresAt (· = []) type place name) := by
  have first : IsFirst (outer.DeclaresAt (· = []) type) (outer.propertyOfType type) :=
    isFirst_findSome? (isFirst_propertyOfMember type)
  exact ⟨first.some_iff, first.none_iff⟩

/-- `class C { constructor(private t: T = m()) {} }` -/
def withDefault : Node :=
  .classBody []
    [.constructor
      [.parameterProperty (some "t") (some "T") [] [.identifier "t"] [.call (.identifier "m") [] []]] []] []

/-- **A default hides a parameter property.**  It is all that the class declares, and nothing is found. -/
theorem propertyOfType_of_default :
    withDefault.DeclaresAt (fun _ => True) "T" [0, 0] "t" ∧ withDefault.propertyOfType "T" = none :=
  ⟨⟨0, [0], _, rfl, rfl, .parameter ⟨0, [], _, rfl, rfl, .typed trivial⟩⟩, rfl⟩

end Node
end MessageKeys.Script
