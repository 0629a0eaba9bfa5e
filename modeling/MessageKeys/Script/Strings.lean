import MessageKeys.Script.Node
/-!
# Script.Strings — the strings an expression is known to give

`Node.strings` lists the literal strings an expression can give without knowing anything about the
run: literals give their text, `+` joins two operands that are known to be one string each, and
`||`, the conditional and array literals give what their parts give, in order. Anything else gives
nothing.
-/
namespace MessageKeys.Script.Node

mutual

/-- The strings an expression is known to give. -/
def strings : Node → List String
  | .wrapped _ inner _ => inner.strings
  | .str value => value.toList
  | .template texts [] => (texts.head?.bind id).toList
  | .array elements => stringsAll elements
  | .binary .add left right =>
    match left.strings, right.strings with
    | [first], [second] => [first ++ second]
    | _, _ => []
  | .binary .or left right => left.strings ++ right.strings
  | .conditional _ yes no => yes.strings ++ no.strings
  | _ => []

/-- The strings of several expressions, one after the other. Spread elements and holes give none. -/
def stringsAll : List Node → List String
  | [] => []
  | element :: elements => element.strings ++ stringsAll elements

end

theorem stringsAll_eq_flatMap (elements : List Node) :
    stringsAll elements = elements.flatMap strings := by
  induction elements with
  | nil => rfl
  | cons element elements ih => simp [stringsAll, ih]

/-- Wrappers do not matter. -/
theorem strings_unwrap (node : Node) : node.unwrap.strings = node.strings := by
  fun_induction unwrap node <;> simp_all [strings]

end MessageKeys.Script.Node
