import Mathlib.Logic.Basic
import MessageKeys.Script.Grammar
import MessageKeys.Template.Directive
/-!
# Proofs.Script.Literals — a literal at the front of a text

`readExpression?` reads one expression off the front of a text. If the text begins with a quoted literal, the
expression is that literal, unless the token behind it goes on with the expression: a suffix, an operator, a
`?`, an assignment, a comma. Any other token `closes` it, and from there on nothing is read
(`readExpression?_literal`). Only a flaw that is noted in that token leaves nothing of the expression
(`readExpression?_of_flawed`).
-/
namespace MessageKeys.Script
open Reading

/-! ## Tokens behind an expression -/

/-- Marks that never go on with an expression. -/
def closingMarks : List String := ["...", "=>", "\x7b", "\x7d", ")", "]", ";", "~", ":", "@"]

theorem eq_of_mem_closingMarks {sign : String} (closing : sign ∈ closingMarks) :
    sign = "..." ∨ sign = "=>" ∨ sign = "\x7b" ∨ sign = "\x7d" ∨ sign = ")" ∨ sign = "]" ∨ sign = ";" ∨
      sign = "~" ∨ sign = ":" ∨ sign = "@" := by
  simpa [closingMarks] using closing

/-- The token does not go on with an expression in front of it. -/
def Token.ends : Token → Bool
  | .mark sign => closingMarks.contains sign
  | .word name escaped => escaped || !(["as", "satisfies", "instanceof"].contains name)
  | _ => true

/-- The token ends an expression in front of it and leaves it as it is. -/
def Token.closes (token : Token) : Bool := token.ends && token != .flawed

theorem ends_of_closes {token : Token} (closes : token.closes) : token.ends :=
  (Bool.and_eq_true_iff.1 closes).1

section Ending

variable {here : Cursor} (ends : here.token.ends)
include ends

theorem ends_cases :
    (∃ sign ∈ closingMarks, here.token = .mark sign) ∨ (∃ name escaped, here.token = .word name escaped) ∨
      (∀ sign, here.token ≠ .mark sign) ∧ ∀ name escaped, here.token ≠ .word name escaped := by
  cases token : here.token with
  | mark sign => simpa [Token.ends, token] using ends
  | word name escaped => exact .inr (.inl ⟨name, escaped, rfl⟩)
  | _ => exact .inr (.inr ⟨nofun, nofun⟩)

theorem mark_ne_of_ends (sign : String) (goesOn : sign ∉ closingMarks) :
    (here.token == .mark sign) = false := by
  rw [beq_eq_false_iff_ne]
  rintro token
  rw [token] at ends
  exact goesOn (by simpa [Token.ends] using ends)

theorem word_ne_of_ends (name : String) (goesOn : name ∈ ["as", "satisfies", "instanceof"]) :
    here.token ≠ .word name false := by
  intro token
  rw [token] at ends
  simp_all [Token.ends]

/-- Only the name `in` is an operator among the tokens that end an expression. -/
theorem operatorAt_of_ends :
    operatorAt here = none ∨ operatorAt here = some ("in", 7, here.rest) := by
  rcases ends_cases ends with ⟨sign, closing, token⟩ | ⟨name, escaped, token⟩ | ⟨noMark, noWord⟩
  · left
    rcases eq_of_mem_closingMarks closing with rfl | rfl | rfl | rfl | rfl | rfl | rfl | rfl | rfl | rfl <;>
      simp [operatorAt, token]
  · have noInstance := word_ne_of_ends ends "instanceof" (by decide)
    unfold operatorAt
    rw [token] at noInstance ⊢
    split <;> simp_all
  · left
    unfold operatorAt
    split <;> simp_all

end Ending

/-! ## The rules at a literal -/

section Rules

variable {rules : Rules} {scope : Scope} {here next : Cursor} {value : Option String}

theorem arrow?_of_text (literal : here.token = .text value) :
    rules.arrow? scope here = some (none, here) := by
  simp [Rules.arrow?, literal]

theorem primary_of_text (literal : here.token = .text value) :
    rules.primary scope here =
      some ({ node := .str value, simple := false, chain := false },
        Cursor.at scope.dialect.module false here.rest) := by
  simp [Rules.primary, literal]

theorem tryChainMark_of_ends (ends : here.token.ends) : tryChainMark scope here = some (false, here) := by
  have noChain := mark_ne_of_ends ends "?." (by decide)
  have noChoice := mark_ne_of_ends ends "?" (by decide)
  simp [tryChainMark, tryMark, noChain, noChoice]

theorem suffix_of_ends (calls computed : Bool) (subject : Subject) (ends : here.token.ends) :
    rules.suffix calls computed subject scope here = some (none, here) := by
  unfold Rules.suffix
  simp only [bind_apply, tryChainMark_of_ends ends, Bool.false_eq_true, if_false]
  cases token : here.token with
  | mark sign =>
      have closing : sign ∈ closingMarks := by simpa [token, Token.ends] using ends
      rcases eq_of_mem_closingMarks closing with rfl | rfl | rfl | rfl | rfl | rfl | rfl | rfl | rfl | rfl <;>
        simp [token]
  | _ => simp [token]

theorem suffixes_of_ends (calls computed : Bool) (subject : Subject) (bound : 0 < scope.bound)
    (ends : here.token.ends) :
    rules.suffixes calls computed subject scope here = some (subject, here) :=
  repeating_of_done bound (by simp only [bind_apply, suffix_of_ends calls computed subject ends, pure_apply])

theorem unaryRule_of_text (bound : 0 < scope.bound) (literal : here.token = .text value)
    (behind : Cursor.at scope.dialect.module false here.rest = next) (ends : next.token.ends) :
    unaryRule rules scope here = some (.plain (.str value), next) := by
  have noPlus := mark_ne_of_ends ends "++" (by decide)
  have noMinus := mark_ne_of_ends ends "--" (by decide)
  simp [unaryRule, Rules.postfixed, leftHandRule, literal, primary_of_text, behind, suffixes_of_ends, bound, ends, Subject.operand, Operand.plain, noPlus, noMinus]

theorem climbRule_of_ends {left : Operand} {least : Nat} (bound : 0 < scope.bound)
    (noIn : scope.allowIn = false) (ends : here.token.ends) :
    climbRule rules left least scope here = some (left, here) := by
  refine repeating_of_done bound ?_
  have noAs := word_ne_of_ends ends "as" (by decide)
  have noSatisfies := word_ne_of_ends ends "satisfies" (by decide)
  rcases operatorAt_of_ends ends with none_ | isIn
  · simp [noAs, noSatisfies, none_, ite_apply]
  · simp [noAs, noSatisfies, isIn, noIn, ite_apply]

theorem assignRule_of_text (noYield : scope.inGenerator = false) (literal : here.token = .text value)
    (ends : next.token.ends) (unary : rules.unary scope here = some (.plain (.str value), next))
    (climb : rules.climb (.plain (.str value)) 0 scope next = some (.plain (.str value), next)) :
    assignRule rules scope here = some (.plain (.str value), next) := by
  have conditional : rules.conditional scope here = some (.plain (.str value), next) := by
    have noChoice := mark_ne_of_ends ends "?" (by decide)
    simp [Rules.conditional, unary, climb, noChoice]
  have noArrow : (Operand.plain (.str value)).form = .plain := rfl
  have noAssignment := mark_ne_of_ends ends "=" (by decide)
  have noAngle := mark_ne_of_ends ends ">" (by decide)
  have noUpdate : ∀ sign ∈ closingMarks, sign ∉ updates := by decide
  cases token : next.token with
  | mark sign =>
      have closing : sign ∈ closingMarks := by simpa [token, Token.ends] using ends
      simp_all [assignRule, arrow?_of_text literal]
  | _ => simp [assignRule, noYield, arrow?_of_text literal, conditional, noArrow, token]

/-- The literal is the whole expression if the token behind it ends it. -/
theorem expression_of_text (depth : Nat) (bound : 0 < scope.bound) (noIn : scope.allowIn = false)
    (noYield : scope.inGenerator = false) (literal : here.token = .text value)
    (behind : Cursor.at scope.dialect.module false here.rest = next) (ends : next.token.ends) :
    (MessageKeys.Script.rules (depth + 2)).expression scope here = some (.str value, next) := by
  have assign : (MessageKeys.Script.rules (depth + 2)).assign scope here =
      some (.plain (.str value), next) :=
    assignRule_of_text noYield literal ends (unaryRule_of_text bound literal behind ends)
      (climbRule_of_ends bound noIn ends)
  have noComma := mark_ne_of_ends ends "," (by decide)
  simp [Rules.expression, Rules.value, assign, Operand.plain, noComma]

/-! A token that is spelled wrong begins no expression. -/

theorem unary_of_wrong (wrong : here.token = .bad ∨ here.token = .flawed) :
    ∀ depth, (MessageKeys.Script.rules depth).unary scope here = none
  | 0 => rfl
  | depth + 1 => by
      change unaryRule (MessageKeys.Script.rules depth) scope here = none
      rcases wrong with wrong | wrong <;>
        simp [unaryRule, Rules.postfixed, leftHandRule, Rules.primary, wrong, Reading.fail]

theorem assign_of_wrong (noYield : scope.inGenerator = false)
    (wrong : here.token = .bad ∨ here.token = .flawed) :
    ∀ depth, (MessageKeys.Script.rules depth).assign scope here = none
  | 0 => rfl
  | depth + 1 => by
      change assignRule (MessageKeys.Script.rules depth) scope here = none
      have none_ : (MessageKeys.Script.rules depth).unary scope here = none := unary_of_wrong wrong depth
      rcases wrong with wrong | wrong <;>
        simp [assignRule, noYield, Rules.arrow?, wrong, Rules.conditional, none_]

theorem expression_of_wrong (depth : Nat) (noYield : scope.inGenerator = false)
    (wrong : here.token = .bad ∨ here.token = .flawed) :
    (MessageKeys.Script.rules depth).expression scope here = none := by
  simp [Rules.expression, Rules.value, assign_of_wrong noYield wrong depth]

end Rules

/-! ## Where a literal ends -/

/-- `Quoted quote text raw rest`: behind an opening quote, `text` is `raw`, the closing quote and `rest`. -/
inductive Quoted (quote : Char) : List Char → List Char → List Char → Prop where
  | closing {rest : List Char} : Quoted quote (quote :: rest) [] rest
  | continued {text raw rest : List Char} (next : Quoted quote text raw rest) :
      Quoted quote ('\\' :: '\r' :: '\n' :: text) ('\\' :: '\r' :: '\n' :: raw) rest
  | escaped {c : Char} {text raw rest : List Char} (single : ∀ later, c = '\r' → text ≠ '\n' :: later)
      (next : Quoted quote text raw rest) : Quoted quote ('\\' :: c :: text) ('\\' :: c :: raw) rest
  | plain {c : Char} {text raw rest : List Char} (noSlash : c ≠ '\\') (noQuote : (c == quote) = false)
      (noLine : (c == '\n' || c == '\r') = false) (next : Quoted quote text raw rest) :
      Quoted quote (c :: text) (c :: raw) rest

section Ends

variable {quote : Char} {text raw rest : List Char}

theorem quoted_of_splitQuoted (splits : splitQuoted quote text = some (raw, rest)) :
    Quoted quote text raw rest := by
  fun_induction splitQuoted quote text generalizing raw rest with
  | case1 => cases splits
  | case2 text ih =>
      obtain ⟨⟨inner, after⟩, found, same⟩ := Option.map_eq_some_iff.1 splits
      cases same
      exact .continued (ih found)
  | case3 c text noReturn ih =>
      obtain ⟨⟨inner, after⟩, found, same⟩ := Option.map_eq_some_iff.1 splits
      cases same
      exact .escaped noReturn (ih found)
  | case4 c text _ _ same =>
      cases splits
      rw [beq_iff_eq.1 same]
      exact .closing
  | case5 => cases splits
  | case6 c text _ noEscape noQuote noLine ih =>
      obtain ⟨⟨inner, after⟩, found, same⟩ := Option.map_eq_some_iff.1 splits
      cases same
      -- A backslash without a character behind it would end the text, and the literal with it.
      have plain : c ≠ '\\' := by
        cases text with
        | nil => cases found
        | cons d later => exact fun same => noEscape d later same rfl
      exact .plain plain (Bool.eq_false_iff.2 noQuote) (Bool.eq_false_iff.2 noLine) (ih found)

theorem Quoted.splitQuoted (quoted : Quoted quote text raw rest) (slash : quote ≠ '\\') :
    splitQuoted quote text = some (raw, rest) := by
  induction quoted with
  | closing => simp [Script.splitQuoted, slash]
  | continued next ih =>
      rw [Script.splitQuoted, ih]
      rfl
  | escaped single next ih =>
      rw [Script.splitQuoted, ih]
      · rfl
      · exact single
  | plain noSlash noQuote noLine next ih =>
      rw [Script.splitQuoted, noQuote, noLine, if_neg Bool.false_ne_true, if_neg Bool.false_ne_true, ih]
      · rfl
      · exact fun _ same => absurd same noSlash
      · exact fun _ _ same => absurd same noSlash

theorem Quoted.eq_append (quoted : Quoted quote text raw rest) : text = raw ++ quote :: rest := by
  induction quoted with
  | closing => rfl
  | continued next ih | escaped _ next ih | plain _ _ _ next ih => rw [ih]; rfl

/-- Where a literal ends does not depend on what follows it. -/
theorem Quoted.append (quoted : Quoted quote text raw rest) (other : List Char) :
    Quoted quote (raw ++ quote :: other) raw other := by
  induction quoted with
  | closing => exact .closing
  | continued next ih => exact .continued ih
  | @escaped c text raw rest single next ih =>
      refine .escaped (fun later return_ ends => ?_) ih
      -- A CR with its LF would have been taken together from the text itself.
      have spelled := next.eq_append
      cases raw <;> simp_all
  | plain noSlash noQuote noLine next ih => exact .plain noSlash noQuote noLine ih

variable (splits : Script.splitQuoted quote text = some (raw, rest))
include splits

theorem splitQuoted_append (slash : quote ≠ '\\') (other : List Char) :
    Script.splitQuoted quote (raw ++ quote :: other) = some (raw, other) :=
  ((quoted_of_splitQuoted splits).append other).splitQuoted slash

end Ends

/-! ## A literal at the front -/

/-- Blanks and line ends. -/
def isSpacing (c : Char) : Bool := isLineEnd c || isBlank c

theorem isSpacing_of_isBlank {c : Char} (blank : Text.isBlank c) : isSpacing c := by
  simp only [Text.isBlank, isSpacing, isLineEnd, isBlank, Bool.or_eq_true, beq_iff_eq, Bool.and_eq_true,
    decide_eq_true_eq, ← Char.toNat_inj] at *
  simp only [Char.reduceToNat]
  omega

/-- In a lone expression a token is read as it stands. -/
theorem at_of_skipBlanks {newline after : Bool} {text start : List Char}
    (skips : skipBlanks true .blanks newline text = some (after, start)) :
    Cursor.at false newline text = ⟨(readToken start).1, start, (readToken start).2, after⟩ := by
  simp only [Cursor.at, Bool.not_false, skips]
  congr 1
  split <;> simp_all

theorem Flaw.token_wrong (flaw : Flaw) : flaw.token = .bad ∨ flaw.token = .flawed := by
  cases flaw
  · exact .inl rfl
  · exact .inr rfl

theorem readToken_quote {quote : Char} (quotes : quote = '\'' ∨ quote = '"') (text : List Char) :
    readToken (quote :: text) =
      match splitQuoted quote text with
      | some (raw, rest) =>
        match cook false .plain raw with
        | .ok units => (.text (textOfUnits units), rest)
        | .error flaw => (flaw.token, rest)
      | none =>
        match cook false .plain (untilLineEnd text) with
        | .ok _ => (.flawed, text)
        | .error flaw => (flaw.token, text) := by
  have noName : Text.isNameStart quote = false := by rcases quotes with rfl | rfl <;> decide
  rcases quotes with rfl | rfl <;> rw [readToken, noName] <;> rfl

section Front

variable {lead : List Char} (spacing : ∀ c ∈ lead, isSpacing c)
include spacing

theorem skipBlanks_append (legacy newline : Bool) (text : List Char) :
    ∃ after, skipBlanks legacy .blanks newline (lead ++ text) = skipBlanks legacy .blanks after text := by
  induction lead generalizing newline with
  | nil => exact ⟨newline, rfl⟩
  | cons c lead ih =>
      rw [List.forall_mem_cons] at spacing
      by_cases line : isLineEnd c
      · obtain ⟨after, same⟩ := ih spacing.2 true
        exact ⟨after, by rw [List.cons_append, skipBlanks, if_pos line, same]⟩
      · obtain ⟨after, same⟩ := ih spacing.2 newline
        have blank : isBlank c := by simpa [isSpacing, line] using spacing.1
        exact ⟨after, by rw [List.cons_append, skipBlanks, if_neg line, if_pos blank, same]⟩

theorem at_spacing (newline : Bool) : (Cursor.at false newline lead).token = .eof := by
  obtain ⟨after, same⟩ := skipBlanks_append spacing true newline []
  rw [List.append_nil] at same
  rw [at_of_skipBlanks same]
  rfl

variable {quote : Char} (quotes : quote = '\'' ∨ quote = '"')
include quotes

/-- The token at a literal, and what it leaves. -/
theorem at_quote (newline : Bool) (text : List Char) :
    ∃ start after, Cursor.at false newline (lead ++ quote :: text) =
      ⟨(readToken (quote :: text)).1, start, (readToken (quote :: text)).2, after⟩ := by
  obtain ⟨after, same⟩ := skipBlanks_append spacing true newline (quote :: text)
  have stays : skipBlanks true .blanks after (quote :: text) = some (after, quote :: text) := by
    rcases quotes with rfl | rfl <;> simp [skipBlanks, isLineEnd, isBlank, startsLineComment]
  exact ⟨_, _, at_of_skipBlanks (same.trans stays)⟩

section Behind

variable {text raw rest : List Char} {units : List Nat}
  (splits : splitQuoted quote text = some (raw, rest)) (cooks : cook false .plain raw = .ok units)
include splits cooks

/-- The expression is read up to the token behind the literal, which decides what comes of it. -/
theorem readExpression?_of_ends (ends : (Cursor.at false false rest).token.ends) :
    readExpression? (String.ofList (lead ++ quote :: text)) =
      if (Cursor.at false false rest).token == .flawed then none else some (.str (textOfUnits units)) := by
  obtain ⟨start, after, front⟩ := at_quote spacing quotes true text
  simp only [readToken_quote quotes, splits, cooks] at front
  simp only [readExpression?, String.toList_ofList, rulesFor, front]
  rw [expression_of_text _ (Nat.succ_pos _) rfl rfl rfl rfl ends]

/-- A text that begins with a literal gives the literal, however the text goes on behind a token that
closes. -/
theorem readExpression?_literal (closes : (Cursor.at false false rest).token.closes) :
    readExpression? (String.ofList (lead ++ quote :: text)) = some (.str (textOfUnits units)) := by
  have sound : ((Cursor.at false false rest).token == .flawed) = false := by
    simpa using (Bool.and_eq_true_iff.1 closes).2
  rw [readExpression?_of_ends spacing quotes splits cooks (ends_of_closes closes), sound, if_neg nofun]

end Behind

/-- A literal that does not end or has a wrong escape in it is no expression. -/
theorem readExpression?_of_not_cooks {text : List Char}
    (fails : ∀ raw rest, splitQuoted quote text = some (raw, rest) → ∃ flaw, cook false .plain raw = .error flaw) :
    readExpression? (String.ofList (lead ++ quote :: text)) = none := by
  obtain ⟨start, after, front⟩ := at_quote spacing quotes true text
  have wrong : (Cursor.at false true (lead ++ quote :: text)).token = .bad ∨
      (Cursor.at false true (lead ++ quote :: text)).token = .flawed := by
    rw [front, readToken_quote quotes]
    cases splits : splitQuoted quote text with
    | some split =>
        obtain ⟨flaw, cooks⟩ := fails split.1 split.2 splits
        simpa only [cooks] using flaw.token_wrong
    | none =>
        cases cooks : cook false .plain (untilLineEnd text) with
        | ok units => exact .inr rfl
        | error flaw => exact flaw.token_wrong
  simp [readExpression?, rulesFor, expression_of_wrong _ _ wrong]

end Front

end MessageKeys.Script
