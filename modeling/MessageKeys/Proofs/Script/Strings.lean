import MessageKeys.Proofs.Script.Wrappers
import MessageKeys.Script.Strings
/-!
# Proofs.Script.Strings — the strings of an expression follow its structure

Three ways to take an expression apart say which strings it is known to give. Without its wrappers, at any
depth, it gives the same (`strings_bare`). A sum, however its operands are grouped, joins the strings of its
operands from left to right if each of them gives exactly one, and gives nothing else (`strings_of_addends`,
`strings_of_uncertain`). And what `||`, the conditional and array literals leave to choose from are the
strings of what they choose between, in order (`strings_alternatives`).
-/
namespace MessageKeys.Script.Node

/-! ## Without wrappers -/

mutual

/-- The same expression without any wrappers, also below it. -/
def bare : Node → Node
  | .wrapped _ inner _ => inner.bare
  | .str value => .str value
  | .hole => .hole
  | .identifier name => .identifier name
  | .thisValue => .thisValue
  | .template texts substitutions => .template texts (bareAll substitutions)
  | .array elements => .array (bareAll elements)
  | .binary op left right => .binary op left.bare right.bare
  | .conditional test yes no => .conditional test.bare yes.bare no.bare
  | .spread inner => .spread inner.bare
  | .member owner name => .member owner.bare name
  | .call callee arguments types => .call callee.bare (bareAll arguments) (bareAll types)
  | .object properties => .object (bareAll properties)
  | .property name key value => .property name (bareAll key) value.bare
  | .classBody decorators members heritage =>
    .classBody (bareAll decorators) (bareAll members) (bareAll heritage)
  | .constructor parameters body => .constructor (bareAll parameters) (bareAll body)
  | .parameterProperty name type decorators pattern fallback =>
    .parameterProperty name type (bareAll decorators) (bareAll pattern) (bareAll fallback)
  | .field name type key value rest => .field name type (bareAll key) (bareAll value) (bareAll rest)
  | .function parts => .function (bareAll parts)
  | .decorator expression => .decorator expression.bare
  | .group parts => .group (bareAll parts)

def bareAll : List Node → List Node
  | [] => []
  | node :: nodes => node.bare :: bareAll nodes

end

mutual

theorem strings_bare : (node : Node) → node.bare.strings = node.strings
  | .wrapped _ inner _ => inner.strings_bare
  | .array elements => stringsAll_bareAll elements
  | .binary .add left right => by
      rw [bare, strings, strings, left.strings_bare, right.strings_bare]
  | .binary .or left right => by
      rw [bare, strings, strings, left.strings_bare, right.strings_bare]
  | .conditional _ yes no => by
      rw [bare, strings, strings, yes.strings_bare, no.strings_bare]
  | .template _ [] | .template _ (_ :: _) | .binary .other _ _ | .str _ | .hole | .identifier _ | .thisValue
  | .spread _ | .member _ _ | .call _ _ _ | .object _ | .property _ _ _ | .classBody _ _ _ | .constructor _ _
  | .parameterProperty _ _ _ _ _ | .field _ _ _ _ _ | .function _ | .decorator _ | .group _ => rfl

theorem stringsAll_bareAll : (nodes : List Node) → stringsAll (bareAll nodes) = stringsAll nodes
  | [] => rfl
  | node :: nodes => by
      rw [bareAll, stringsAll, stringsAll, node.strings_bare, stringsAll_bareAll nodes]

end

theorem bareAll_append (nodes others : List Node) :
    bareAll (nodes ++ others) = bareAll nodes ++ bareAll others := by
  induction nodes with
  | nil => rfl
  | cons node nodes ih => rw [List.cons_append, bareAll, bareAll, ih, List.cons_append]

theorem mem_bareAll {nodes : List Node} {part : Node} (member : part ∈ bareAll nodes) :
    ∃ node ∈ nodes, part = node.bare := by
  induction nodes with
  | nil => cases member
  | cons node nodes ih =>
      rcases List.mem_cons.1 member with rfl | later
      · exact ⟨node, List.mem_cons_self, rfl⟩
      · obtain ⟨found, listed, same⟩ := ih later
        exact ⟨found, List.mem_cons_of_mem _ listed, same⟩

def isWrapped : Node → Bool
  | .wrapped _ _ _ => true
  | _ => false

/-- What is no wrapper stays what it is, over bare parts. -/
theorem bare_of_plain {node : Node} (plain : node.isWrapped = false) :
    node.bare.isWrapped = false ∧ node.bare.children = bareAll node.children := by
  cases node with
  | wrapped => cases plain
  | _ => simp [bare, isWrapped, children, bareAll, bareAll_append]

theorem isWrapped_of_mem_bare (node : Node) : ∀ part ∈ node.bare.preorder, part.isWrapped = false := by
  induction node using induction_on_children with
  | step node ih =>
      cases wrapper : node.isWrapped with
      | true =>
          cases node with
          | wrapped _ inner _ => exact ih inner List.mem_cons_self
          | _ => cases wrapper
      | false =>
          obtain ⟨same, parts⟩ := bare_of_plain wrapper
          intro part member
          rw [preorder, walk_eq, List.map_cons, parts, walkAll_eq_flatMap, List.map_flatMap] at member
          rcases List.mem_cons.1 member with rfl | below
          · exact same
          · obtain ⟨child, listed, within⟩ := List.mem_flatMap.1 below
            obtain ⟨original, among, rfl⟩ := mem_bareAll listed
            exact ih original among part within

/-! ## Sums -/

/-- A sum, apart from wrappers. -/
def isSum (node : Node) : Bool :=
  match node.unwrap with
  | .binary .add _ _ => true
  | _ => false

/-- The operands of a sum from left to right, however they are grouped. What is no sum stands for itself. -/
def addends : Node → List Node
  | .wrapped _ inner _ => inner.addends
  | .binary .add left right => left.addends ++ right.addends
  | node => [node]

theorem isSum_of_mem_addends {node operand : Node} (member : operand ∈ node.addends) :
    operand.isSum = false := by
  fun_induction addends node with
  | case1 _ _ _ ih => exact ih member
  | case2 left right first second => exact (List.mem_append.1 member).elim first second
  | case3 node plain noSum =>
      cases List.mem_singleton.1 member
      cases operand <;> grind [isSum, unwrap]

theorem strings_add_of_single {left right : Node} {first second : String} (one : left.strings = [first])
    (other : right.strings = [second]) : (binary .add left right).strings = [first ++ second] := by
  rw [strings, one, other]

theorem strings_add_of_uncertain {left right : Node}
    (uncertain : left.strings.length ≠ 1 ∨ right.strings.length ≠ 1) :
    (binary .add left right).strings = [] := by
  rw [strings]
  split
  · simp_all
  · rfl

/-- Operands that give one string each give these together. -/
theorem strings_of_addends {node : Node} (single : ∀ operand ∈ node.addends, operand.strings.length = 1) :
    node.strings = [String.join (node.addends.flatMap strings)] := by
  fun_induction addends node with
  | case1 _ inner _ ih => exact ih single
  | case2 left right first second =>
      rw [List.forall_mem_append] at single
      rw [strings_add_of_single (first single.1) (second single.2), List.flatMap_append, String.join_append]
  | case3 node plain noSum =>
      obtain ⟨text, only⟩ := List.length_eq_one_iff.1 (single node List.mem_cons_self)
      simp [only]

/-- An operand that gives none or several leaves no certain sum. -/
theorem length_strings_of_addends {node operand : Node} (member : operand ∈ node.addends)
    (uncertain : operand.strings.length ≠ 1) : node.strings.length ≠ 1 := by
  fun_induction addends node with
  | case1 _ inner _ ih => exact ih member
  | case2 left right first second =>
      rw [strings_add_of_uncertain ((List.mem_append.1 member).imp first second)]
      exact Nat.zero_ne_one
  | case3 node plain noSum =>
      cases List.mem_singleton.1 member
      exact uncertain

theorem length_strings_of_isSum {node : Node} (sum : node.isSum) : node.strings.length ≤ 1 := by
  rw [← strings_unwrap]
  unfold isSum at sum
  split at sum
  · rename_i left right found
    rw [found, strings]
    split <;> simp
  · cases sum

theorem strings_of_isSum {node : Node} (sum : node.isSum) :
    node.strings = if ∀ operand ∈ node.addends, operand.strings.length = 1
      then [String.join (node.addends.flatMap strings)] else [] := by
  split
  · rename_i single
    exact strings_of_addends single
  · rename_i uncertain
    push Not at uncertain
    obtain ⟨operand, member, several⟩ := uncertain
    have atMost := length_strings_of_isSum sum
    have notOne := length_strings_of_addends member several
    exact List.eq_nil_of_length_eq_zero (by omega)

/-! ## Choices -/

/-- `||`, the conditional and array literals, apart from wrappers, and the parts of an array literal that are
no expressions. -/
def isChoice (node : Node) : Bool :=
  match node.unwrap with
  | .array _ | .binary .or _ _ | .conditional _ _ _ | .hole | .spread _ => true
  | _ => false

mutual

/-- What an expression chooses between, from left to right: both sides of `||`, both branches of a
conditional, and the elements of an array literal other than holes and spread ones. -/
def alternatives : Node → List Node
  | .wrapped _ inner _ => inner.alternatives
  | .array elements => alternativesAll elements
  | .binary .or left right => left.alternatives ++ right.alternatives
  | .conditional _ yes no => yes.alternatives ++ no.alternatives
  | .hole | .spread _ => []
  | node => [node]

def alternativesAll : List Node → List Node
  | [] => []
  | element :: elements => element.alternatives ++ alternativesAll elements

end

mutual

theorem strings_alternatives : (node : Node) → node.alternatives.flatMap strings = node.strings
  | .wrapped _ inner _ => inner.strings_alternatives
  | .array elements => strings_alternativesAll elements
  | .binary .or left right => by
      rw [alternatives, List.flatMap_append, left.strings_alternatives, right.strings_alternatives, strings]
  | .conditional _ yes no => by
      rw [alternatives, List.flatMap_append, yes.strings_alternatives, no.strings_alternatives, strings]
  | .hole | .spread _ => rfl
  | .binary .add _ _ | .binary .other _ _ | .template _ _ | .str _ | .identifier _ | .thisValue | .member _ _
  | .call _ _ _ | .object _ | .property _ _ _ | .classBody _ _ _ | .constructor _ _
  | .parameterProperty _ _ _ _ _ | .field _ _ _ _ _ | .function _ | .decorator _ | .group _ =>
      List.flatMap_singleton strings _

theorem strings_alternativesAll :
    (nodes : List Node) → (alternativesAll nodes).flatMap strings = stringsAll nodes
  | [] => rfl
  | node :: nodes => by
      rw [alternativesAll, List.flatMap_append, node.strings_alternatives, strings_alternativesAll nodes,
        stringsAll]

end

mutual

theorem isChoice_of_mem_alternatives {operand : Node} :
    (node : Node) → operand ∈ node.alternatives → operand.isChoice = false
  | .wrapped _ inner _, listed => isChoice_of_mem_alternatives inner listed
  | .array elements, listed => isChoice_of_mem_alternativesAll elements listed
  | .binary .or left right, listed =>
      (List.mem_append.1 listed).elim (isChoice_of_mem_alternatives left) (isChoice_of_mem_alternatives right)
  | .conditional _ yes no, listed =>
      (List.mem_append.1 listed).elim (isChoice_of_mem_alternatives yes) (isChoice_of_mem_alternatives no)
  | .hole, listed | .spread _, listed => nomatch listed
  | .binary .add _ _, listed | .binary .other _ _, listed | .template _ _, listed | .str _, listed
  | .identifier _, listed | .thisValue, listed | .member _ _, listed | .call _ _ _, listed | .object _, listed
  | .property _ _ _, listed | .classBody _ _ _, listed | .constructor _ _, listed
  | .parameterProperty _ _ _ _ _, listed | .field _ _ _ _ _, listed | .function _, listed
  | .decorator _, listed | .group _, listed => by
      cases List.mem_singleton.1 listed
      rfl

theorem isChoice_of_mem_alternativesAll {operand : Node} :
    (nodes : List Node) → operand ∈ alternativesAll nodes → operand.isChoice = false
  | [], listed => nomatch listed
  | node :: nodes, listed =>
      (List.mem_append.1 listed).elim (isChoice_of_mem_alternatives node)
        (isChoice_of_mem_alternativesAll nodes)

end

/-- **The strings of an expression follow its structure.**  They are those of the same expression without any
wrappers. The strings of a sum come from its operands, which are no sums and may be grouped in any way: these
together, from left to right, if each operand gives exactly one, and nothing otherwise. And the strings of any
expression are those of what it chooses between by `||`, conditionals and array literals, from left to
right. -/
theorem strings_structural (node : Node) :
    (node.bare.strings = node.strings ∧ ∀ part ∈ node.bare.preorder, part.isWrapped = false) ∧
    (node.isSum → (∀ operand ∈ node.addends, operand.isSum = false) ∧
      node.strings = if ∀ operand ∈ node.addends, operand.strings.length = 1
        then [String.join (node.addends.flatMap strings)] else []) ∧
    node.strings = node.alternatives.flatMap strings ∧
      ∀ operand ∈ node.alternatives, operand.isChoice = false :=
  ⟨⟨node.strings_bare, node.isWrapped_of_mem_bare⟩,
    fun sum => ⟨fun _ => isSum_of_mem_addends, strings_of_isSum sum⟩,
    node.strings_alternatives.symm, fun _ => isChoice_of_mem_alternatives node⟩

/-- `'A' + (('B' + (ok ? ['C'] : [, ...rest]))!)` -/
def groupedSum : Node :=
  .binary .add (.str (some "A")) (.wrapped .nonNull (.wrapped .parentheses (.binary .add (.str (some "B"))
    (.wrapped .parentheses (.conditional (.identifier "ok") (.array [.str (some "C")])
      (.array [.hole, .spread (.identifier "rest")])) [])) []) [])

theorem strings_structural_grouped :
    groupedSum.isSum = true ∧ groupedSum.addends.length = 3 ∧ groupedSum.strings = ["ABC"] := by
  have sum : groupedSum.isSum = true := rfl
  exact ⟨sum, rfl, ((strings_structural groupedSum).2.1 sum).2.trans (by decide)⟩

end MessageKeys.Script.Node
