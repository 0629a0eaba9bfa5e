import Mathlib.Data.List.Forall2
import MessageKeys.Extraction
import MessageKeys.Proofs.Script.Places
/-!
# Proofs.Script.Wrappers — wrappers around the expressions of a program

Parentheses, casts and `!` leave the value of an expression as it is. `Wraps` says that one tree is another
one with wrappers put around some of its expressions, wherever they stand. The searches look through them:
what is known of an expression (`Wraps.strings_eq`, `Wraps.plainName?_eq`) and of a class
(`propertyOfType_eq`) stays the same. A walk meets the same calls and classes in the same order, so whatever
is known of these, one by one, is known of all that is found (`rel_filterMap_walk`), and of the keys
(`Module.keys?_of_wraps`).

One place is overlooked: `this` in front of a property is known only where it is bare. A wrapper there hides
the calls through it, so what is left is a part of the keys (`Module.keys?_of_hiddenCall`).
-/
namespace MessageKeys.Script
namespace Node

/-! ## Wrapping -/

/-- What a wrapper may be put around. The other nodes are no expressions but parts of a literal, a call, a
class or a list of parameters. -/
def isExpression : Node → Bool
  | .hole | .spread _ | .property _ _ _ | .constructor _ _ | .parameterProperty _ _ _ _ _
  | .field _ _ _ _ _ | .decorator _ => false
  | _ => true

/-- Calls and classes: all that the searches look for. -/
def isHeard : Node → Bool
  | .call _ _ _ | .classBody _ _ _ => true
  | _ => false

/-- There are no calls or classes in these parts. -/
def Silent (parts : List Node) : Prop :=
  ∀ part ∈ parts, ∀ node ∈ part.preorder, node.isHeard = false

mutual

/-- `Wraps thisToo node other`: `other` is `node` with wrappers put around some of the expressions in it. The
types that the new wrappers name hold no calls, as no valid type does. Only if `thisToo` is set may `this` be
wrapped in front of a property. -/
inductive Wraps (thisToo : Bool) : Node → Node → Prop
  | same (node : Node) : Wraps thisToo node node
  | wrap {node other : Node} {types : List Node} (wrapper : Wrapper) (expression : node.isExpression)
      (silent : Silent types) (inner : Wraps thisToo node other) :
      Wraps thisToo node (.wrapped wrapper other types)
  | template {texts : List (Option String)} {parts parts' : List Node} (each : WrapsAll thisToo parts parts') :
      Wraps thisToo (.template texts parts) (.template texts parts')
  | array {parts parts' : List Node} (each : WrapsAll thisToo parts parts') :
      Wraps thisToo (.array parts) (.array parts')
  | binary {op : BinaryOp} {left left' right right' : Node} (first : Wraps thisToo left left')
      (second : Wraps thisToo right right') : Wraps thisToo (.binary op left right) (.binary op left' right')
  | conditional {test test' yes yes' no no' : Node} (first : Wraps thisToo test test')
      (second : Wraps thisToo yes yes') (third : Wraps thisToo no no') :
      Wraps thisToo (.conditional test yes no) (.conditional test' yes' no')
  | wrapped {wrapper : Wrapper} {inner inner' : Node} {types types' : List Node}
      (first : Wraps thisToo inner inner') (each : WrapsAll thisToo types types') :
      Wraps thisToo (.wrapped wrapper inner types) (.wrapped wrapper inner' types')
  | spread {inner inner' : Node} (first : Wraps thisToo inner inner') :
      Wraps thisToo (.spread inner) (.spread inner')
  | member {object object' : Node} {name : String} (first : Wraps thisToo object object')
      (kept : thisToo = false → object = .thisValue → object' = .thisValue) :
      Wraps thisToo (.member object name) (.member object' name)
  | call {callee callee' : Node} {arguments arguments' types types' : List Node}
      (first : Wraps thisToo callee callee') (each : WrapsAll thisToo arguments arguments')
      (typed : WrapsAll thisToo types types') :
      Wraps thisToo (.call callee arguments types) (.call callee' arguments' types')
  | object {parts parts' : List Node} (each : WrapsAll thisToo parts parts') :
      Wraps thisToo (.object parts) (.object parts')
  | property {name : Option String} {key key' : List Node} {value value' : Node}
      (each : WrapsAll thisToo key key') (last : Wraps thisToo value value') :
      Wraps thisToo (.property name key value) (.property name key' value')
  | classBody {decorators decorators' members members' heritage heritage' : List Node}
      (first : WrapsAll thisToo decorators decorators') (each : WrapsAll thisToo members members')
      (last : WrapsAll thisToo heritage heritage') :
      Wraps thisToo (.classBody decorators members heritage) (.classBody decorators' members' heritage')
  | constructor {parameters parameters' body body' : List Node}
      (first : WrapsAll thisToo parameters parameters') (last : WrapsAll thisToo body body') :
      Wraps thisToo (.constructor parameters body) (.constructor parameters' body')
  | parameterProperty {name type : Option String}
      {decorators decorators' pattern pattern' fallback fallback' : List Node}
      (first : WrapsAll thisToo decorators decorators') (second : WrapsAll thisToo pattern pattern')
      (third : WrapsAll thisToo fallback fallback') :
      Wraps thisToo (.parameterProperty name type decorators pattern fallback)
        (.parameterProperty name type decorators' pattern' fallback')
  | field {name type : Option String} {key key' value value' rest rest' : List Node}
      (first : WrapsAll thisToo key key') (second : WrapsAll thisToo value value')
      (third : WrapsAll thisToo rest rest') :
      Wraps thisToo (.field name type key value rest) (.field name type key' value' rest')
  | function {parts parts' : List Node} (each : WrapsAll thisToo parts parts') :
      Wraps thisToo (.function parts) (.function parts')
  | decorator {inner inner' : Node} (first : Wraps thisToo inner inner') :
      Wraps thisToo (.decorator inner) (.decorator inner')
  | group {parts parts' : List Node} (each : WrapsAll thisToo parts parts') :
      Wraps thisToo (.group parts) (.group parts')

/-- The same for the nodes of two lists, one by one. -/
inductive WrapsAll (thisToo : Bool) : List Node → List Node → Prop
  | nil : WrapsAll thisToo [] []
  | cons {node other : Node} {nodes others : List Node} (first : Wraps thisToo node other)
      (each : WrapsAll thisToo nodes others) : WrapsAll thisToo (node :: nodes) (other :: others)

end

variable {thisToo : Bool}

/-! ## Single nodes -/

mutual

theorem Wraps.strings_eq {node other : Node} : Wraps thisToo node other → other.strings = node.strings
  | .same _ => rfl
  | .wrap _ _ _ inner => inner.strings_eq
  | .wrapped first _ => first.strings_eq
  | .template .nil => rfl
  | .template (.cons _ _) => rfl
  | .array each => each.strings_eq
  | @Wraps.binary _ op _ _ _ _ first second => by
      cases op with
      | add => rw [strings, strings, first.strings_eq, second.strings_eq]
      | or => rw [strings, strings, first.strings_eq, second.strings_eq]
      | other => rfl
  | .conditional _ second third => by rw [strings, strings, second.strings_eq, third.strings_eq]
  | .spread _ | .member _ _ | .call _ _ _ | .object _ | .property _ _ | .classBody _ _ _
  | .constructor _ _ | .parameterProperty _ _ _ | .field _ _ _ | .function _ | .decorator _ | .group _ => rfl

theorem WrapsAll.strings_eq {nodes others : List Node} :
    WrapsAll thisToo nodes others → stringsAll others = stringsAll nodes
  | .nil => rfl
  | .cons first each => by rw [stringsAll, stringsAll, first.strings_eq, each.strings_eq]

end

theorem Wraps.plainName?_eq {node other : Node} : Wraps thisToo node other →
    other.plainName? = node.plainName?
  | .same _ => rfl
  | .wrap _ _ _ inner => inner.plainName?_eq
  | .wrapped first _ => first.plainName?_eq
  | .template _ | .array _ | .binary _ _ | .conditional _ _ _ | .spread _ | .member _ _ | .call _ _ _
  | .object _ | .property _ _ | .classBody _ _ _ | .constructor _ _ | .parameterProperty _ _ _
  | .field _ _ _ | .function _ | .decorator _ | .group _ => rfl

theorem Wraps.unwrap {node other : Node} : Wraps thisToo node other → Wraps thisToo node.unwrap other.unwrap
  | .same _ => .same _
  | .wrap _ _ _ inner => inner.unwrap
  | .wrapped first _ => first.unwrap
  | .template each => .template each
  | .array each => .array each
  | .binary first second => .binary first second
  | .conditional first second third => .conditional first second third
  | .spread first => .spread first
  | .member first kept => .member first kept
  | .call first each typed => .call first each typed
  | .object each => .object each
  | .property each last => .property each last
  | .classBody first each last => .classBody first each last
  | .constructor first last => .constructor first last
  | .parameterProperty first second third => .parameterProperty first second third
  | .field first second third => .field first second third
  | .function each => .function each
  | .decorator first => .decorator first
  | .group each => .group each

theorem unwrap_ne_wrapped (node : Node) (wrapper : Wrapper) (inner : Node) (types : List Node) :
    node.unwrap ≠ .wrapped wrapper inner types := by
  fun_induction unwrap node with
  | case1 _ _ _ ih => exact ih
  | case2 node plain => exact plain wrapper inner types

theorem Wraps.isSpread_eq {node other : Node} (wraps : Wraps thisToo node other) :
    other.isSpread = node.isSpread := by
  cases wraps with
  | wrap _ expression _ _ =>
      -- A wrapper is no spread, and neither is what it stands around.
      cases node <;> trivial
  | _ => rfl

theorem Wraps.plainName?_withoutSpread {node other : Node} (wraps : Wraps thisToo node other) :
    other.withoutSpread.plainName? = node.withoutSpread.plainName? := by
  cases wraps with
  | spread first => exact first.plainName?_eq
  | wrap wrapper expression silent inner =>
      have bare : node.withoutSpread = node := by cases node <;> trivial
      rw [bare]
      exact inner.plainName?_eq
  | same => rfl
  | wrapped first _ => exact first.plainName?_eq
  | _ => rfl

theorem argumentKeys_eq {nodes others : List Node} :
    WrapsAll thisToo nodes others → Strategy.argumentKeys others = Strategy.argumentKeys nodes
  | .nil => rfl
  | .cons first _ => by rw [Strategy.argumentKeys, Strategy.argumentKeys, first.isSpread_eq, first.strings_eq]

theorem WrapsAll.findSome?_eq {α : Type} {read : Node → Option α}
    (same : ∀ node other, Wraps thisToo node other → read other = read node) {nodes others : List Node} :
    WrapsAll thisToo nodes others → others.findSome? read = nodes.findSome? read
  | .nil => rfl
  | .cons first each => by rw [List.findSome?_cons, List.findSome?_cons, same _ _ first, each.findSome?_eq same]

theorem WrapsAll.any_eq {test : Node → Bool}
    (same : ∀ node other, Wraps thisToo node other → test other = test node) {nodes others : List Node} :
    WrapsAll thisToo nodes others → others.any test = nodes.any test
  | .nil => rfl
  | .cons first each => by rw [List.any_cons, List.any_cons, same _ _ first, each.any_eq same]

/-! ## Classes -/

theorem Wraps.isInjectionOf_eq (type : String) {node other : Node} :
    Wraps thisToo node other → other.isInjectionOf type = node.isInjectionOf type
  | .same _ => rfl
  | .wrap _ _ _ inner => inner.isInjectionOf_eq type
  | .wrapped first _ => first.isInjectionOf_eq type
  | .call _ .nil _ => rfl
  | .call first (.cons head _) _ => by
      simp only [isInjectionOf, Node.unwrap, first.plainName?_eq, head.plainName?_withoutSpread]
  | .template _ | .array _ | .binary _ _ | .conditional _ _ _ | .spread _ | .member _ _ | .object _
  | .property _ _ | .classBody _ _ _ | .constructor _ _ | .parameterProperty _ _ _ | .field _ _ _
  | .function _ | .decorator _ | .group _ => rfl

theorem Wraps.parameterOfType_eq (type : String) {node other : Node} (wraps : Wraps thisToo node other) :
    other.parameterOfType type = node.parameterOfType type := by
  cases wraps with
  | wrap _ expression _ _ => cases node <;> trivial
  | @parameterProperty name declared _ _ _ _ _ _ first second third =>
      cases third with
      | nil => cases name <;> cases declared <;> rfl
      | cons _ _ => simp only [parameterOfType]
  | _ => rfl

theorem Wraps.propertyOfMember_eq (type : String) {node other : Node} (wraps : Wraps thisToo node other) :
    other.propertyOfMember type = node.propertyOfMember type := by
  cases wraps with
  | wrap _ expression _ _ => cases node <;> trivial
  | constructor first last => exact first.findSome?_eq fun _ _ => Wraps.parameterOfType_eq type
  | field first second third =>
      have same := second.any_eq fun _ _ => Wraps.isInjectionOf_eq type
      rw [propertyOfMember, propertyOfMember, same]
  | _ => rfl

theorem propertyOfType_eq (type : String) {decorators decorators' members members' heritage heritage' : List Node}
    (each : WrapsAll thisToo members members') :
    (classBody decorators' members' heritage').propertyOfType type =
      (classBody decorators members heritage).propertyOfType type :=
  each.findSome?_eq fun _ _ => Wraps.propertyOfMember_eq type

theorem declaresParameterProperty_eq (property : String)
    {decorators decorators' members members' heritage heritage' : List Node}
    (each : WrapsAll thisToo members members') :
    (classBody decorators' members' heritage').declaresParameterProperty property =
      (classBody decorators members heritage).declaresParameterProperty property := by
  refine each.any_eq fun member member' wraps => ?_
  cases wraps with
  | constructor first last =>
      refine first.any_eq fun parameter parameter' wraps => ?_
      cases wraps with
      | parameterProperty first second third => cases third <;> rfl
      | wrap _ expression _ _ => cases parameter <;> trivial
      | _ => rfl
  | wrap _ expression _ _ => cases member <;> trivial
  | _ => rfl

/-! ## Walks -/

/-- A comparison of what is found in two trees. It is known for single calls and classes, and nothing is
found elsewhere. -/
structure Lifting (thisToo : Bool) {α : Type} (found? : Bool × Node → Option α)
    (Rel : List α → List α → Prop) : Prop where
  refl (items : List α) : Rel items items
  append {others others' items items' : List α} (first : Rel others items) (second : Rel others' items') :
    Rel (others ++ others') (items ++ items')
  call (inside : Bool) {callee callee' : Node} {arguments arguments' : List Node} (types types' : List Node)
    (first : Wraps thisToo callee callee') (each : WrapsAll thisToo arguments arguments') :
    Rel (found? (inside, .call callee' arguments' types')).toList
      (found? (inside, .call callee arguments types)).toList
  classBody (inside : Bool) {decorators decorators' members members' heritage heritage' : List Node}
    (first : WrapsAll thisToo decorators decorators') (each : WrapsAll thisToo members members')
    (last : WrapsAll thisToo heritage heritage') :
    Rel (found? (inside, .classBody decorators' members' heritage')).toList
      (found? (inside, .classBody decorators members heritage)).toList
  unheard (inside : Bool) {node : Node} (silent : node.isHeard = false) : found? (inside, node) = none

theorem WrapsAll.append {nodes others nodes' others' : List Node} : WrapsAll thisToo nodes others →
    WrapsAll thisToo nodes' others' → WrapsAll thisToo (nodes ++ nodes') (others ++ others')
  | .nil, second => second
  | .cons first each, second => .cons first (each.append second)

theorem WrapsAll.forall₂ {nodes others : List Node} :
    WrapsAll thisToo nodes others → List.Forall₂ (Wraps thisToo) nodes others
  | .nil => .nil
  | .cons first each => .cons first each.forall₂

theorem WrapsAll.refl : ∀ nodes : List Node, WrapsAll thisToo nodes nodes
  | [] => .nil
  | node :: nodes => .cons (.same node) (refl nodes)

/-- A new wrapper around the whole node, or the same node over parts with wrappers around them. -/
theorem Wraps.children {node other : Node} (wraps : Wraps thisToo node other) :
    (∃ wrapper inner types, other = .wrapped wrapper inner types ∧ Wraps thisToo node inner ∧ Silent types) ∨
      (WrapsAll thisToo node.children other.children ∧ other.isHeard = node.isHeard ∧
        ∀ inside, enterConstructor inside other = enterConstructor inside node) := by
  cases wraps with
  | wrap wrapper expression silent inner => exact .inl ⟨_, _, _, rfl, inner, silent⟩
  | same => exact .inr ⟨.refl _, rfl, fun _ => rfl⟩
  | template each => exact .inr ⟨each, rfl, fun _ => rfl⟩
  | array each => exact .inr ⟨each, rfl, fun _ => rfl⟩
  | binary first second => exact .inr ⟨.cons first (.cons second .nil), rfl, fun _ => rfl⟩
  | conditional first second third =>
      exact .inr ⟨.cons first (.cons second (.cons third .nil)), rfl, fun _ => rfl⟩
  | wrapped first each => exact .inr ⟨.cons first each, rfl, fun _ => rfl⟩
  | spread first => exact .inr ⟨.cons first .nil, rfl, fun _ => rfl⟩
  | member first _ => exact .inr ⟨.cons first .nil, rfl, fun _ => rfl⟩
  | call first each typed => exact .inr ⟨.cons first (each.append typed), rfl, fun _ => rfl⟩
  | object each => exact .inr ⟨each, rfl, fun _ => rfl⟩
  | property each last => exact .inr ⟨each.append (.cons last .nil), rfl, fun _ => rfl⟩
  | classBody first each last => exact .inr ⟨(first.append each).append last, rfl, fun _ => rfl⟩
  | constructor first last => exact .inr ⟨first.append last, rfl, fun _ => rfl⟩
  | parameterProperty first second third => exact .inr ⟨(first.append second).append third, rfl, fun _ => rfl⟩
  | field first second third => exact .inr ⟨(first.append second).append third, rfl, fun _ => rfl⟩
  | function each => exact .inr ⟨each, rfl, fun _ => rfl⟩
  | decorator first => exact .inr ⟨.cons first .nil, rfl, fun _ => rfl⟩
  | group each => exact .inr ⟨each, rfl, fun _ => rfl⟩

section Walks

variable {α : Type} {found? : Bool × Node → Option α} {Rel : List α → List α → Prop}

theorem filterMap_cons_eq (step : Bool × Node) (steps : List (Bool × Node)) :
    (step :: steps).filterMap found? = (found? step).toList ++ steps.filterMap found? := by
  rw [List.filterMap_eq_flatMap_toList, List.flatMap_cons, ← List.filterMap_eq_flatMap_toList]

/-- A node and the same node over parts with wrappers around them. -/
theorem Lifting.one (lifting : Lifting thisToo found? Rel) (inside : Bool) {node other : Node}
    (wraps : Wraps thisToo node other) (kind : other.isHeard = node.isHeard) :
    Rel (found? (inside, other)).toList (found? (inside, node)).toList := by
  cases heard : node.isHeard with
  | false =>
      rw [lifting.unheard inside heard, lifting.unheard inside (kind.trans heard)]
      exact lifting.refl []
  | true =>
      cases wraps with
      | same => exact lifting.refl _
      | call first each typed => exact lifting.call inside _ _ first each
      | classBody first each last => exact lifting.classBody inside first each last
      | wrap => exact absurd (kind.trans heard) Bool.false_ne_true
      | _ => exact absurd heard Bool.false_ne_true

/-- Nothing is found in what holds no calls and classes. -/
theorem Silent.filterMap_walkAll (lifting : Lifting thisToo found? Rel) {parts : List Node}
    (silent : Silent parts) (inside : Bool) : (walkAll enterConstructor inside parts).filterMap found? = [] := by
  rw [List.filterMap_eq_nil_iff, walkAll_eq_flatMap]
  rintro ⟨state, node⟩ met
  obtain ⟨part, member, met⟩ := List.mem_flatMap.1 met
  refine lifting.unheard state (silent part member node ?_)
  rw [← map_snd_walk part enterConstructor inside]
  exact List.mem_map_of_mem met

/-- What holds of each of some nodes holds of all of them together. -/
theorem rel_filterMap_walkAll (lifting : Lifting thisToo found? Rel) (inside : Bool)
    {nodes others : List Node} (each : List.Forall₂ (Wraps thisToo) nodes others)
    (known : ∀ other ∈ others, ∀ {node}, Wraps thisToo node other →
      Rel ((other.walk enterConstructor inside).filterMap found?)
        ((node.walk enterConstructor inside).filterMap found?)) :
    Rel ((walkAll enterConstructor inside others).filterMap found?)
      ((walkAll enterConstructor inside nodes).filterMap found?) := by
  induction each with
  | nil => exact lifting.refl []
  | cons first _ ih =>
      rw [walkAll, walkAll, List.filterMap_append, List.filterMap_append]
      refine lifting.append (known _ List.mem_cons_self first) (ih ?_)
      exact fun other member => known other (List.mem_cons_of_mem _ member)

/-- **Wrappers around expressions of a tree do not change what is found in it.** -/
theorem rel_filterMap_walk (lifting : Lifting thisToo found? Rel) {node other : Node}
    (wraps : Wraps thisToo node other) (inside : Bool) :
    Rel ((other.walk enterConstructor inside).filterMap found?)
      ((node.walk enterConstructor inside).filterMap found?) := by
  induction other using induction_on_children generalizing node inside with
  | step other ih =>
      obtain ⟨wrapper, inner, types, rfl, below, silent⟩ | ⟨each, kind, enter⟩ := wraps.children
      · -- Nothing is found at the wrapper and in its types.
        have around : ((wrapped wrapper inner types).walk enterConstructor inside).filterMap found? =
            (inner.walk enterConstructor inside).filterMap found? := by
          rw [walk_eq, filterMap_cons_eq, lifting.unheard inside rfl, Option.toList_none, List.nil_append,
            children, walkAll, List.filterMap_append, silent.filterMap_walkAll lifting, List.append_nil]
          rfl
        rw [around]
        exact ih inner List.mem_cons_self below inside
      · rw [walk_eq _ _ other, walk_eq _ _ node, filterMap_cons_eq, filterMap_cons_eq, enter]
        refine lifting.append (lifting.one inside wraps kind) ?_
        exact rel_filterMap_walkAll lifting _ each.forall₂ fun other member _ wraps => ih other member wraps _

/-- The same for the trees of a whole program. -/
theorem WrapsAll.rel_filterMap (lifting : Lifting thisToo found? Rel) {nodes others : List Node}
    (each : WrapsAll thisToo nodes others) :
    Rel ((walkAll enterConstructor false others).filterMap found?)
      ((walkAll enterConstructor false nodes).filterMap found?) :=
  rel_filterMap_walkAll lifting false each.forall₂ fun _ _ _ wraps => rel_filterMap_walk lifting wraps false

end Walks

/-! ## Calls -/

/-- What a search keeps of some keys: all of them, unless a wrapped `this` hides a call. -/
def Keeps (thisToo : Bool) (kept keys : List String) : Prop :=
  kept.Sublist keys ∧ (thisToo = false → kept = keys)

theorem Keeps.refl (keys : List String) : Keeps thisToo keys keys :=
  ⟨List.Sublist.refl keys, fun _ => rfl⟩

theorem Keeps.append {kept kept' keys keys' : List String} (first : Keeps thisToo kept keys)
    (second : Keeps thisToo kept' keys') : Keeps thisToo (kept ++ kept') (keys ++ keys') :=
  ⟨first.1.append second.1, fun bare => by rw [first.2 bare, second.2 bare]⟩

theorem isPropertyAccess_member (property : String) (bareName : Bool) {owner : Node}
    (other : owner ≠ .thisValue) (name : String) :
    (Node.member owner name).isPropertyAccess property bareName = false := by
  cases owner <;> trivial

theorem Wraps.isPropertyAccess (property : String) (bareName : Bool) {node other : Node} :
    Wraps thisToo node other →
      (other.isPropertyAccess property bareName → node.isPropertyAccess property bareName) ∧
        (thisToo = false →
          other.isPropertyAccess property bareName = node.isPropertyAccess property bareName)
  | .same _ => ⟨id, fun _ => rfl⟩
  | .wrap _ _ _ inner => inner.isPropertyAccess property bareName
  | .wrapped first _ => first.isPropertyAccess property bareName
  | @Wraps.member _ owner owner' name first kept => by
      by_cases bare : owner' = .thisValue
      · -- Nothing but `this` itself becomes a bare `this`.
        subst bare
        cases first
        exact ⟨id, fun _ => rfl⟩
      · have missed := isPropertyAccess_member property bareName bare name
        refine ⟨fun found => absurd found (by rw [missed]; exact Bool.false_ne_true), fun never => ?_⟩
        have bare' : owner ≠ .thisValue := fun this => bare (kept never this)
        rw [missed, isPropertyAccess_member property bareName bare']
  | .template _ | .array _ | .binary _ _ | .conditional _ _ _ | .spread _ | .call _ _ _ | .object _
  | .property _ _ | .classBody _ _ _ | .constructor _ _ | .parameterProperty _ _ _ | .field _ _ _
  | .function _ | .decorator _ | .group _ => ⟨id, fun _ => rfl⟩

/-- The keys in the call found at a node, if one is found. -/
def foundKeys (found : Option (List Node)) : List String := found.toList.flatMap Strategy.argumentKeys

/-- A call through a receiver: the keys stay if the receiver is still known. -/
theorem Keeps.foundKeys_ite {known known' : Bool} {arguments arguments' : List Node}
    (fewer : known' → known) (same : thisToo = false → known' = known)
    (each : WrapsAll thisToo arguments arguments') :
    Keeps thisToo (foundKeys (if known' then some arguments' else none))
      (foundKeys (if known then some arguments else none)) := by
  have keys : foundKeys (some arguments') = foundKeys (some arguments) := by
    simp only [foundKeys, Option.toList_some, List.flatMap_singleton, argumentKeys_eq each]
  cases known' with
  | true =>
      rw [fewer rfl, if_pos rfl, if_pos rfl, keys]
      exact Keeps.refl _
  | false =>
      refine ⟨List.nil_sublist _, fun never => ?_⟩
      rw [← same never]
      rfl

theorem Keeps.receiver (property method : String) (methods : List String) (bareName : Bool)
    {receiver receiver' : Node} {arguments arguments' : List Node} (wraps : Wraps thisToo receiver receiver')
    (each : WrapsAll thisToo arguments arguments') :
    Keeps thisToo
      (foundKeys (if methods.contains method && receiver'.isPropertyAccess property bareName
        then some arguments' else none))
      (foundKeys (if methods.contains method && receiver.isPropertyAccess property bareName
        then some arguments else none)) := by
  obtain ⟨fewer, same⟩ := wraps.isPropertyAccess property bareName
  refine Keeps.foundKeys_ite (fun found => ?_) (fun never => by rw [same never]) each
  rw [Bool.and_eq_true] at found ⊢
  exact found.imp_right fewer

/-- The keys in a call of a method on the property. -/
theorem Keeps.methodCall? (property : String) (methods : List String) (bareName : Bool)
    {callee callee' : Node} {arguments arguments' : List Node} (types types' : List Node)
    (first : Wraps thisToo callee callee') (each : WrapsAll thisToo arguments arguments') :
    Keeps thisToo (foundKeys ((call callee' arguments' types').methodCall? property methods bareName))
      (foundKeys ((call callee arguments types).methodCall? property methods bareName)) := by
  have reached := first.unwrap
  have plain := unwrap_ne_wrapped callee'
  simp only [Node.methodCall?]
  generalize callee.unwrap = inner, callee'.unwrap = inner' at reached plain
  cases reached with
  | wrap => exact absurd rfl (plain _ _ _)
  | member wraps _ => exact Keeps.receiver property _ methods bareName wraps each
  | same =>
      cases inner with
      | member receiver _ => exact Keeps.receiver property _ methods bareName (.same receiver) each
      | _ => exact Keeps.refl _
  | _ => exact Keeps.refl _

theorem foundKeys_functionCall? (names : List String) {callee callee' : Node} {arguments arguments' : List Node}
    (types types' : List Node) (first : Wraps thisToo callee callee')
    (each : WrapsAll thisToo arguments arguments') :
    foundKeys ((call callee' arguments' types').functionCall? names) =
      foundKeys ((call callee arguments types).functionCall? names) := by
  rw [functionCall?, functionCall?, first.plainName?_eq]
  split
  · simp only [foundKeys, Option.toList_some, List.flatMap_singleton, argumentKeys_eq each]
  · rfl

theorem methodCall?_of_unheard (property : String) (methods : List String) (bareName : Bool) {node : Node}
    (silent : node.isHeard = false) : node.methodCall? property methods bareName = none := by
  cases node <;> trivial

theorem functionCall?_of_unheard (names : List String) {node : Node} (silent : node.isHeard = false) :
    node.functionCall? names = none := by
  cases node <;> trivial

/-! ## Programs -/

theorem lifting_methodCall? (property : String) (methods : List String) (declared : Bool) :
    Lifting thisToo (fun step => step.2.methodCall? property methods (declared && step.1))
      fun others nodes => Keeps thisToo (others.flatMap Strategy.argumentKeys)
        (nodes.flatMap Strategy.argumentKeys) where
  refl _ := Keeps.refl _
  append first second := by
    rw [List.flatMap_append, List.flatMap_append]
    exact first.append second
  call inside _ _ _ _ types types' first each :=
    Keeps.methodCall? property methods (declared && inside) types types' first each
  classBody _ _ _ _ _ _ _ _ _ _ := Keeps.refl _
  unheard inside _ silent := methodCall?_of_unheard property methods (declared && inside) silent

theorem lifting_functionCall? (names : List String) :
    Lifting thisToo (fun step => step.2.functionCall? names) fun others nodes =>
      others.flatMap Strategy.argumentKeys = nodes.flatMap Strategy.argumentKeys where
  refl _ := rfl
  append first second := by rw [List.flatMap_append, List.flatMap_append, first, second]
  call _ _ _ _ _ types types' first each := foundKeys_functionCall? names types types' first each
  classBody _ _ _ _ _ _ _ _ _ _ := rfl
  unheard _ _ silent := functionCall?_of_unheard names silent

/-- The keys of a class. -/
theorem Keeps.serviceKeys (type : String) (method : Option String)
    {decorators decorators' members members' heritage heritage' : List Node}
    (first : WrapsAll thisToo decorators decorators') (each : WrapsAll thisToo members members')
    (last : WrapsAll thisToo heritage heritage') :
    Keeps thisToo (Strategy.serviceKeys type method (classBody decorators' members' heritage'))
      (Strategy.serviceKeys type method (classBody decorators members heritage)) := by
  have held : (classBody decorators' members' heritage').propertyOfType type =
      (classBody decorators members heritage).propertyOfType type := propertyOfType_eq type each
  rw [Strategy.serviceKeys, Strategy.serviceKeys, held]
  cases (classBody decorators members heritage).propertyOfType type with
  | none => exact Keeps.refl _
  | some property =>
      have declared : (classBody decorators' members' heritage').declaresParameterProperty property =
          (classBody decorators members heritage).declaresParameterProperty property :=
        declaresParameterProperty_eq property each
      simp only [methodCalls, declared]
      exact rel_filterMap_walk (lifting_methodCall? property _ _) (.classBody first each last) false

theorem lifting_isClass (type : String) (method : Option String) :
    Lifting thisToo (fun step => Option.guard Node.isClass step.2) <| List.Forall₂ fun other node =>
      Keeps thisToo (Strategy.serviceKeys type method other) (Strategy.serviceKeys type method node) where
  refl _ := List.forall₂_same.2 fun _ _ => Keeps.refl _
  append first second := List.rel_append first second
  call _ _ _ _ _ _ _ _ _ := .nil
  classBody _ _ _ _ _ _ _ first each last := .cons (Keeps.serviceKeys type method first each last) .nil
  unheard _ node silent := by cases node <;> trivial

theorem Keeps.flatMap_serviceKeys (type : String) (method : Option String) {others nodes : List Node}
    (each : List.Forall₂ (fun other node =>
      Keeps thisToo (Strategy.serviceKeys type method other) (Strategy.serviceKeys type method node))
      others nodes) :
    Keeps thisToo (others.flatMap (Strategy.serviceKeys type method))
      (nodes.flatMap (Strategy.serviceKeys type method)) := by
  induction each with
  | nil => exact Keeps.refl []
  | cons first _ ih => exact first.append ih

end Node

namespace Module

/-- The same program with wrappers put around some of its expressions. -/
def Wraps (thisToo : Bool) (program wrapped : Module) : Prop :=
  wrapped.imports = program.imports ∧ Node.WrapsAll thisToo program.body wrapped.body

theorem nodes_eq (program : Module) :
    program.nodes = (Node.walkAll Node.enterConstructor false program.body).map Prod.snd := by
  rw [nodes, Node.walkAll_eq_flatMap, List.map_flatMap]
  exact List.flatMap_congr fun node _ => (node.map_snd_walk Node.enterConstructor false).symm

theorem functionCalls_eq (program : Module) (names : List String) :
    program.functionCalls names = (Node.walkAll Node.enterConstructor false program.body).filterMap
      fun step => step.2.functionCall? names := by
  rw [functionCalls, nodes_eq, List.filterMap_map]
  rfl

theorem classes_eq (program : Module) :
    program.classes = (Node.walkAll Node.enterConstructor false program.body).filterMap
      fun step => Option.guard Node.isClass step.2 := by
  rw [classes, nodes_eq, ← List.filterMap_eq_filter, List.filterMap_map]
  rfl

variable {program wrapped : Module}

theorem Wraps.markerKeys_eq (wraps : program.Wraps thisToo wrapped) (name : String) :
    Strategy.markerKeys name wrapped = Strategy.markerKeys name program := by
  have names : wrapped.aliases name = program.aliases name := by rw [aliases, aliases, wraps.1]
  rw [Strategy.markerKeys, Strategy.markerKeys, names, functionCalls_eq, functionCalls_eq]
  exact wraps.2.rel_filterMap (Node.lifting_functionCall? _)

theorem Wraps.classes (wraps : program.Wraps thisToo wrapped) (type : String) (method : Option String) :
    List.Forall₂ (fun other node =>
      Node.Keeps thisToo (Strategy.serviceKeys type method other) (Strategy.serviceKeys type method node))
      wrapped.classes program.classes := by
  rw [classes_eq, classes_eq]
  exact wraps.2.rel_filterMap (Node.lifting_isClass type method)

/-- **Wrappers do not hide keys, except around `this`.**  Put parentheses, casts or `!` around any
expressions of a program: the marker strategy finds the same keys in the same order. So does the service
strategy as long as no `this` in front of a property is wrapped, and with a wrapped one it finds no other
keys. -/
theorem keys?_of_wraps (wraps : program.Wraps thisToo wrapped) (templates templates' : List Template.Document)
    (name type : String) (method : Option String) :
    (Strategy.marker name).keys? (.program wrapped templates') =
        (Strategy.marker name).keys? (.program program templates) ∧
      Option.Rel List.Sublist ((Strategy.service type method).keys? (.program wrapped templates'))
        ((Strategy.service type method).keys? (.program program templates)) ∧
      (thisToo = false → (Strategy.service type method).keys? (.program wrapped templates') =
        (Strategy.service type method).keys? (.program program templates)) := by
  refine ⟨?_, ?_⟩
  · simp only [Strategy.keys?, Source.program?, Option.map_some, wraps.markerKeys_eq]
  · have each := wraps.classes type method
    simp only [Strategy.keys?, Source.program?, Option.bind_some]
    generalize wrapped.classes = others, program.classes = nodes at each
    cases each with
    | nil => exact ⟨.none, fun _ => rfl⟩
    | cons first rest =>
        have kept := Node.Keeps.flatMap_serviceKeys type method (.cons first rest)
        exact ⟨.some kept.1, fun never => congrArg some (kept.2 never)⟩

/-- `class C { constructor(private t: T) {} run() { … } }` -/
def calling (call : Node) : Module :=
  ⟨[], [.classBody []
    [.constructor [.parameterProperty (some "t") (some "T") [] [.identifier "t"] []] [],
      .group [.function [call]]] []]⟩

theorem wraps_calling {call call' : Node} (wraps : Node.Wraps thisToo call call') :
    (calling call).Wraps thisToo (calling call') := by
  have run : Node.Wraps thisToo (.group [.function [call]]) (.group [.function [call']]) :=
    .group (.cons (.function (.cons wraps .nil)) .nil)
  exact ⟨rfl, .cons (.classBody .nil (.cons (.same _) (.cons run .nil)) .nil) .nil⟩

/-- `this.t.get('K')` -/
def plainCall : Node := .call (.member (.member .thisValue "t") "get") [.str (some "K")] []

/-- `((this.t)!.get as F)(('K'))` -/
def castCall : Node :=
  .call (.wrapped .typeCast
      (.member (.wrapped .nonNull (.wrapped .parentheses (.member .thisValue "t") []) []) "get") [])
    [.wrapped .parentheses (.str (some "K")) []] []

/-- `(this).t.get('K')` -/
def hiddenCall : Node :=
  .call (.member (.member (.wrapped .parentheses .thisValue []) "t") "get") [.str (some "K")] []

theorem keys?_of_wraps_castCall :
    (calling plainCall).Wraps false (calling castCall) ∧
      (Strategy.service "T" none).keys? (.program (calling castCall) []) =
        (Strategy.service "T" none).keys? (.program (calling plainCall) []) ∧
      (Strategy.service "T" none).keys? (.program (calling plainCall) []) = some ["K"] := by
  have silent : Node.Silent [] := nofun
  have wraps : (calling plainCall).Wraps false (calling castCall) := by
    refine wraps_calling (.call ?_ (.cons (.wrap .parentheses rfl silent (.same _)) .nil) .nil)
    refine .wrap .typeCast rfl silent (.member ?_ nofun)
    exact .wrap .nonNull rfl silent (.wrap .parentheses rfl silent (.same _))
  exact ⟨wraps, (keys?_of_wraps wraps [] [] "marker" "T" none).2.2 rfl, rfl⟩

/-- **A wrapped `this` hides a call.**  The two programs differ in the parentheses alone. -/
theorem keys?_of_hiddenCall :
    (calling plainCall).Wraps true (calling hiddenCall) ∧
      (Strategy.service "T" none).keys? (.program (calling plainCall) []) = some ["K"] ∧
      (Strategy.service "T" none).keys? (.program (calling hiddenCall) []) = some [] := by
  have this : Node.Wraps true .thisValue (.wrapped .parentheses .thisValue []) :=
    .wrap .parentheses rfl nofun (.same _)
  refine ⟨wraps_calling ?_, rfl, rfl⟩
  exact .call (.member (.member this nofun) nofun) (.cons (.same _) .nil) .nil

/-- Calls in a type count as well, so a cast to `{ [m('B')]: any }` adds a key to those of `m('A')`. -/
example : Strategy.markerKeys "m" ⟨[], [.call (.identifier "m") [.wrapped .typeCast (.str (some "A"))
    [.call (.identifier "m") [.str (some "B")] []]] []]⟩ = ["A", "B"] := rfl

end Module
end MessageKeys.Script
