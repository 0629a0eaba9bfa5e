import MessageKeys.Proofs.Script.Strings
import MessageKeys.Script.Search
import MessageKeys.Text.Split
/-!
# Proofs.Script.Values — which strings an expression may give

`MayGive` lists the texts that an expression may have as an operand of a sum, if all that is not known may be
anything and `||` and the conditional may take either side. An array literal there is the texts of its
elements with commas between them. What an expression hands on as an argument is such a text, or one of an
element of an array literal (`HandsOn`).

The strings that are found are among these, as long as an array literal that gives a sum its one string holds
nothing else but spread elements (`Whole`). Otherwise the elements that give no string are overlooked, commas
and all: the strings are those the expression might give without them (`mayGive_of_mem_strings`), and it may
be unable to give them (`mayGive_overlooked`).
-/
namespace MessageKeys.Script.Node

/-! ## Texts -/

/-- Expressions whose text is not known. -/
def isDynamic : Node → Bool
  | .wrapped _ _ _ | .str _ | .template _ [] | .array _ | .binary .add _ _ | .binary .or _ _
  | .conditional _ _ _ | .hole | .spread _ => false
  | _ => true

mutual

/-- The texts an expression may have as an operand. If `lenient` is set, elements of array literals in which
no string is found may be left out. -/
inductive MayGive (lenient : Bool) : Node → String → Prop
  | text (text : String) : MayGive lenient (.str (some text)) text
  | template (text : String) (texts : List (Option String)) :
      MayGive lenient (.template (some text :: texts) []) text
  | sum {left right : Node} {first second : String} (one : MayGive lenient left first)
      (other : MayGive lenient right second) : MayGive lenient (.binary .add left right) (first ++ second)
  | left {left : Node} (right : Node) {text : String} (one : MayGive lenient left text) :
      MayGive lenient (.binary .or left right) text
  | right (left : Node) {right : Node} {text : String} (other : MayGive lenient right text) :
      MayGive lenient (.binary .or left right) text
  | yes (test : Node) {yes : Node} (no : Node) {text : String} (one : MayGive lenient yes text) :
      MayGive lenient (.conditional test yes no) text
  | no (test yes : Node) {no : Node} {text : String} (other : MayGive lenient no text) :
      MayGive lenient (.conditional test yes no) text
  | array {elements : List Node} {pieces : List String} (each : MayHold lenient elements pieces) :
      MayGive lenient (.array elements) (Text.joinStrings ',' pieces)
  | wrapped (wrapper : Wrapper) {inner : Node} (types : List Node) {text : String}
      (below : MayGive lenient inner text) : MayGive lenient (.wrapped wrapper inner types) text
  | dynamic {node : Node} (unknown : node.isDynamic) (text : String) : MayGive lenient node text

/-- The texts of the elements of an array literal. A hole is empty, and a spread element stands for any number
of texts. -/
inductive MayHold (lenient : Bool) : List Node → List String → Prop
  | nil : MayHold lenient [] []
  | hole {elements : List Node} {pieces : List String} (rest : MayHold lenient elements pieces) :
      MayHold lenient (.hole :: elements) ("" :: pieces)
  | spread (inner : Node) (more : List String) {elements : List Node} {pieces : List String}
      (rest : MayHold lenient elements pieces) : MayHold lenient (.spread inner :: elements) (more ++ pieces)
  | element {element : Node} {piece : String} {elements : List Node} {pieces : List String}
      (first : MayGive lenient element piece) (rest : MayHold lenient elements pieces) :
      MayHold lenient (element :: elements) (piece :: pieces)
  | overlooked {element : Node} {elements : List Node} {pieces : List String} (allowed : lenient = true)
      (silent : element.strings = []) (rest : MayHold lenient elements pieces) :
      MayHold lenient (element :: elements) pieces

end

/-- What an expression may hand on as an argument: its own text, or that of an element of an array literal,
through any choices on the way. -/
inductive HandsOn (lenient : Bool) : Node → String → Prop
  | value {node : Node} {text : String} (given : MayGive lenient node text) : HandsOn lenient node text
  | element {element : Node} {elements : List Node} {text : String} (listed : element ∈ elements)
      (kept : element.isSpread = false) (below : HandsOn lenient element text) :
      HandsOn lenient (.array elements) text
  | left {left : Node} (right : Node) {text : String} (one : HandsOn lenient left text) :
      HandsOn lenient (.binary .or left right) text
  | right (left : Node) {right : Node} {text : String} (other : HandsOn lenient right text) :
      HandsOn lenient (.binary .or left right) text
  | yes (test : Node) {yes : Node} (no : Node) {text : String} (one : HandsOn lenient yes text) :
      HandsOn lenient (.conditional test yes no) text
  | no (test yes : Node) {no : Node} {text : String} (other : HandsOn lenient no text) :
      HandsOn lenient (.conditional test yes no) text
  | wrapped (wrapper : Wrapper) {inner : Node} (types : List Node) {text : String}
      (below : HandsOn lenient inner text) : HandsOn lenient (.wrapped wrapper inner types) text

/-! ## Arrays in sums -/

/-- If these elements give exactly one string, there is nothing else among them but spread ones. -/
def Alone (elements : List Node) : Prop :=
  (stringsAll elements).length = 1 → ∀ element ∈ elements, element.strings = [] → element.isSpread

mutual

/-- No array literal in an operand of a sum overlooks elements. `operand` tells that the expression is such
an operand itself. -/
def Whole (operand : Bool) : Node → Prop
  | .wrapped _ inner _ => inner.Whole operand
  | .array elements => (operand = true → Alone elements) ∧ WholeAll operand elements
  | .binary .add left right => left.Whole true ∧ right.Whole true
  | .binary .or left right => left.Whole operand ∧ right.Whole operand
  | .conditional _ yes no => yes.Whole operand ∧ no.Whole operand
  | _ => True

def WholeAll (operand : Bool) : List Node → Prop
  | [] => True
  | element :: elements => element.Whole operand ∧ WholeAll operand elements

end

variable {lenient : Bool}

/-- An element without a string adds nothing, if it is overlooked or a spread one. -/
theorem MayHold.skip {element : Node} {elements : List Node} {pieces : List String}
    (rest : MayHold lenient elements pieces) (silent : element.strings = [])
    (allowed : lenient = true ∨ element.isSpread) : MayHold lenient (element :: elements) pieces := by
  rcases allowed with allowed | dots
  · exact .overlooked allowed silent rest
  · cases element with
    | spread inner => exact .spread inner [] rest
    | _ => cases dots

theorem MayHold.of_silent {elements : List Node} (silent : stringsAll elements = [])
    (allowed : lenient = true ∨ ∀ element ∈ elements, element.strings = [] → element.isSpread) :
    MayHold lenient elements [] := by
  induction elements with
  | nil => exact .nil
  | cons element elements ih =>
      obtain ⟨first, others⟩ := List.append_eq_nil_iff.1 silent
      have rest := ih others (allowed.imp_right fun alone => (List.forall_mem_cons.1 alone).2)
      exact rest.skip first (allowed.imp_right fun alone => alone element List.mem_cons_self first)

mutual

/-- The only string of an operand is one that it may give. -/
theorem mayGive_of_single {text : String} : (node : Node) → node.strings = [text] →
    lenient = true ∨ node.Whole true → MayGive lenient node text
  | .wrapped wrapper inner types, single, whole =>
      .wrapped wrapper types (mayGive_of_single inner single whole)
  | .str (some _), single, _ => by
      cases single
      exact .text text
  | .template (some _ :: texts) [], single, _ => by
      cases single
      exact .template text texts
  | .template [] [], single, _ | .template (none :: _) [], single, _ => nomatch single
  | .array elements, single, whole => by
      have alone : lenient = true ∨
          WholeAll true elements ∧ ∀ element ∈ elements, element.strings = [] → element.isSpread := by
        refine whole.imp_right fun whole => ⟨whole.2, whole.1 rfl ?_⟩
        rw [show stringsAll elements = [text] from single]
        rfl
      have joined : Text.joinStrings ',' [text] = text := String.ofList_toList
      exact joined ▸ .array (mayHold_of_single elements single alone)
  | .binary .add left right, single, whole => by
      rw [strings] at single
      split at single
      · rename_i first second one other
        cases single
        exact .sum (mayGive_of_single left one (whole.imp_right And.left))
          (mayGive_of_single right other (whole.imp_right And.right))
      · cases single
  -- One side gives the only string and the other one none.
  | .binary .or left right, single, whole => by
      rcases List.append_eq_singleton_iff.1 single with ⟨-, other⟩ | ⟨one, -⟩
      · exact .right left (mayGive_of_single right other (whole.imp_right And.right))
      · exact .left right (mayGive_of_single left one (whole.imp_right And.left))
  | .conditional test yes no, single, whole => by
      rcases List.append_eq_singleton_iff.1 single with ⟨-, other⟩ | ⟨one, -⟩
      · exact .no test yes (mayGive_of_single no other (whole.imp_right And.right))
      · exact .yes test no (mayGive_of_single yes one (whole.imp_right And.left))

/-- The only string of some elements is that of one of them; the others give none. -/
theorem mayHold_of_single {text : String} : (elements : List Node) → stringsAll elements = [text] →
    (lenient = true ∨
      WholeAll true elements ∧ ∀ element ∈ elements, element.strings = [] → element.isSpread) →
    MayHold lenient elements [text]
  | element :: elements, single, allowed => by
      have later : lenient = true ∨ ∀ element ∈ elements, element.strings = [] → element.isSpread :=
        allowed.imp_right fun alone => (List.forall_mem_cons.1 alone.2).2
      rcases List.append_eq_singleton_iff.1 single with ⟨silent, others⟩ | ⟨first, others⟩
      · have rest := mayHold_of_single elements others
          (allowed.elim .inl fun alone => .inr ⟨alone.1.2, (List.forall_mem_cons.1 alone.2).2⟩)
        exact rest.skip silent (allowed.imp_right fun alone => alone.2 element List.mem_cons_self silent)
      · refine .element (mayGive_of_single element first (allowed.imp_right fun alone => alone.1.1)) ?_
        exact .of_silent others later

end

/-- A sum gives one string at most. -/
theorem eq_singleton_of_isSum {node : Node} (sum : node.isSum) {text : String} (found : text ∈ node.strings) :
    node.strings = [text] := by
  have atMost := length_strings_of_isSum sum
  match all : node.strings, found with
  | [only], found => rw [List.mem_singleton.1 found]
  | first :: second :: more, _ =>
      rw [all] at atMost
      simp at atMost

mutual

/-- Every string that is found is one that the expression may hand on. -/
theorem handsOn_of_mem_strings {text : String} : (node : Node) → text ∈ node.strings →
    lenient = true ∨ node.Whole false → HandsOn lenient node text
  | .wrapped wrapper inner types, found, whole =>
      .wrapped wrapper types (handsOn_of_mem_strings inner found whole)
  | .str (some _), found, _ => by
      cases List.mem_singleton.1 found
      exact .value (.text text)
  | .template (some _ :: texts) [], found, _ => by
      cases List.mem_singleton.1 found
      exact .value (.template text texts)
  | .template [] [], found, _ | .template (none :: _) [], found, _ => nomatch found
  | .array elements, found, whole => by
      obtain ⟨element, listed, kept, below⟩ :=
        handsOn_of_mem_stringsAll elements found (whole.imp_right And.right)
      exact .element listed kept below
  | .binary .add left right, found, whole =>
      .value (mayGive_of_single _ (eq_singleton_of_isSum rfl found) whole)
  | .binary .or left right, found, whole => by
      rcases List.mem_append.1 found with one | other
      · exact .left right (handsOn_of_mem_strings left one (whole.imp_right And.left))
      · exact .right left (handsOn_of_mem_strings right other (whole.imp_right And.right))
  | .conditional test yes no, found, whole => by
      rcases List.mem_append.1 found with one | other
      · exact .yes test no (handsOn_of_mem_strings yes one (whole.imp_right And.left))
      · exact .no test yes (handsOn_of_mem_strings no other (whole.imp_right And.right))

theorem handsOn_of_mem_stringsAll {text : String} : (elements : List Node) → text ∈ stringsAll elements →
    lenient = true ∨ WholeAll false elements →
      ∃ element ∈ elements, element.isSpread = false ∧ HandsOn lenient element text
  | element :: elements, found, whole => by
      rcases List.mem_append.1 found with here | later
      · refine ⟨element, List.mem_cons_self, ?_,
          handsOn_of_mem_strings element here (whole.imp_right And.left)⟩
        cases element with
        | spread inner => cases here
        | _ => rfl
      · obtain ⟨other, listed, handed⟩ :=
          handsOn_of_mem_stringsAll elements later (whole.imp_right And.right)
        exact ⟨other, List.mem_cons_of_mem _ listed, handed⟩

end

/-- Where a sum stands makes no difference to its operands. -/
theorem Whole.of_isSum {node : Node} (sum : node.isSum) (whole : node.Whole false) : node.Whole true := by
  unfold isSum at sum
  fun_induction unwrap node with
  | case1 _ inner _ ih => exact ih sum whole
  | case2 node plain =>
      split at sum
      · exact whole
      · cases sum

/-- **The strings that are found are strings an expression may give, except where elements of an array literal
are overlooked.**  Every string is one that the expression may hand on, and one that a sum may have, if
elements of array literals without a string may be left out of a sum. They need not be left out if every array
literal in an operand of a sum that gives one string holds nothing else but spread elements. -/
theorem mayGive_of_mem_strings (node : Node) {text : String} (found : text ∈ node.strings) :
    (node.HandsOn true text ∧ (node.isSum → node.MayGive true text)) ∧
    (node.Whole false → node.HandsOn false text ∧ (node.isSum → node.MayGive false text)) := by
  refine ⟨⟨handsOn_of_mem_strings node found (.inl rfl), fun sum => ?_⟩,
    fun whole => ⟨handsOn_of_mem_strings node found (.inr whole), fun sum => ?_⟩⟩
  · exact mayGive_of_single node (eq_singleton_of_isSum sum found) (.inl rfl)
  · exact mayGive_of_single node (eq_singleton_of_isSum sum found) (.inr (whole.of_isSum sum))

/-- `(ok ? ['A', ...rest] : x) + 'B'` -/
def wholeSum : Node :=
  .binary .add (.wrapped .parentheses (.conditional (.identifier "ok")
    (.array [.str (some "A"), .spread (.identifier "rest")]) (.identifier "x")) []) (.str (some "B"))

/-- The array literal may be `A` alone, as nothing need be spread into it. -/
theorem mayGive_of_mem_strings_spread :
    "AB" ∈ wholeSum.strings ∧ wholeSum.Whole false ∧ wholeSum.isSum = true ∧ wholeSum.MayGive false "AB" := by
  have found : "AB" ∈ wholeSum.strings := by decide
  have whole : wholeSum.Whole false := by
    simp [wholeSum, Whole, WholeAll, Alone, isSpread, strings]
  exact ⟨found, whole, rfl, ((mayGive_of_mem_strings wholeSum found).2 whole).2 rfl⟩

/-- `['A', x] + 'B'` -/
def overlookingSum : Node :=
  .binary .add (.array [.str (some "A"), .identifier "x"]) (.str (some "B"))

/-- **A string that no run can give.**  There is a comma behind the `A`, whatever `x` is. -/
theorem mayGive_overlooked :
    overlookingSum.isSum = true ∧ overlookingSum.strings = ["AB"] ∧ ¬ overlookingSum.MayGive false "AB" := by
  refine ⟨rfl, by decide, fun given => ?_⟩
  generalize same : "AB" = text at given
  cases given with
  | dynamic unknown => cases unknown
  | sum one other =>
      cases one with
      | dynamic unknown => cases unknown
      | array each =>
          cases each with
          | overlooked allowed => cases allowed
          | element first rest =>
              cases rest with
              | overlooked allowed => cases allowed
              | element _ rest =>
                  cases rest
                  cases first with
                  | dynamic unknown => cases unknown
                  | text =>
                      have spelled := congrArg String.toList same
                      simp [Text.joinStrings, Text.join] at spelled

end MessageKeys.Script.Node
