import Mathlib.Data.List.TakeWhile
import MessageKeys.Extraction
import MessageKeys.Proofs.Script.Escapes
import MessageKeys.Proofs.Script.Literals
import MessageKeys.Proofs.Template.PipeChain
import MessageKeys.Proofs.Text.Pieces
/-!
# Proofs.Template.Literals — a literal that marks a key

A quoted literal gives a key in two ways: a bound directive takes it out of its quotes by itself, and in front
of a pipe it is read as an expression. Both find the same body (`splitQuoted_of_unescapeLiteral?`), but the
directive drops every backslash while a program reads escapes. So they agree exactly on the literals in which
each backslash stands before a character that stands for itself (`directiveKeys_eq_pipeKeys_iff`).

What is handed to the pipe is read as an expression off its front, so behind a literal anything may stand that
does not go on with it and in whose first token no flaw is noted (`readExpression?_of_leftover`). The scanner for pipes passes over texts without pipes,
brackets and separators outside quotes as they stand (`Opaque`).
-/
namespace MessageKeys.Template
open Script (readExpression? splitQuoted cook textOfUnits selfEscaped isSpacing)

theorem ne_slash_of_quote {quote : Char} (quotes : quote = '\'' ∨ quote = '"') : quote ≠ '\\' := by
  rcases quotes with rfl | rfl <;> decide

/-! ## The parts of a literal -/

/-- An expression without its blanks and without its first and last character. -/
def literalBody (expression : List Char) : List Char := ((Text.trimChars expression).drop 1).dropLast

theorem exists_blanks_trimChars (text : List Char) :
    ∃ lead trail, text = lead ++ Text.trimChars text ++ trail ∧ (∀ c ∈ lead, Text.isBlank c) ∧
      ∀ c ∈ trail, Text.isBlank c := by
  refine ⟨text.takeWhile Text.isBlank, ((text.dropWhile Text.isBlank).reverse.takeWhile Text.isBlank).reverse,
    ?_, ?_, ?_⟩
  · rw [Text.trimChars, List.append_assoc, ← List.reverse_append, List.takeWhile_append_dropWhile,
      List.reverse_reverse, List.takeWhile_append_dropWhile]
  · exact List.all_eq_true.1 List.all_takeWhile
  · exact fun c member => List.all_eq_true.1 List.all_takeWhile c (List.mem_reverse.1 member)

/-- A quoted literal is blanks, its body in quotes, and blanks. -/
theorem quotedLiteral?_parts {expression key : List Char} (literal : quotedLiteral? expression = some key) :
    ∃ lead quote trail, expression = lead ++ quote :: (literalBody expression ++ quote :: trail) ∧
      (quote = '\'' ∨ quote = '"') ∧ (∀ c ∈ lead, Text.isBlank c) ∧ (∀ c ∈ trail, Text.isBlank c) ∧
      unescapeLiteral? quote (literalBody expression) = some key ∧ key ≠ [] := by
  obtain ⟨lead, trail, spelled, before, behind⟩ := exists_blanks_trimChars expression
  unfold literalBody
  rw [quotedLiteral?] at literal
  match trimmed : Text.trimChars expression with
  | [] => simp [trimmed] at literal
  | quote :: rest =>
    simp only [trimmed, Option.ite_none_right_eq_some, Bool.and_eq_true, Bool.or_eq_true, beq_iff_eq,
      Option.filter_eq_some_iff] at literal
    obtain ⟨⟨quotes, last⟩, unescaped, some_⟩ := literal
    refine ⟨lead, quote, trail, ?_, quotes, before, behind, unescaped, by simpa using some_⟩
    have ends : rest.dropLast ++ [quote] = rest := List.dropLast_append_getLast? quote last
    rw [spelled, trimmed, List.drop_one, List.tail_cons]
    conv_lhs => rw [← ends]
    simp

/-! ## The script's reading -/

section Body

variable {quote : Char} {body key : List Char}

/-- A backslash at the end is refused, so one that escapes nothing is none. -/
theorem ne_slash_of_unescapeLiteral? {c : Char} {rest : List Char}
    (noEscape : ∀ d later, c = '\\' → rest = d :: later → False)
    (unescaped : unescapeLiteral? quote (c :: rest) = some key) : c ≠ '\\' := by
  rintro rfl
  cases rest with
  | nil => cases unescaped
  | cons d rest => exact noEscape d rest rfl rfl

variable (quotes : quote = '\'' ∨ quote = '"')
include quotes

/-- The body that the directive takes out of its quotes is all of the literal for a program too, unless a
line ends in it. -/
theorem splitQuoted_of_unescapeLiteral? (unescaped : unescapeLiteral? quote body = some key)
    (trail : List Char) :
    splitQuoted quote (body ++ quote :: trail) = none ∨
      splitQuoted quote (body ++ quote :: trail) = some (body, trail) := by
  have slash := ne_slash_of_quote quotes
  have noLine : quote ≠ '\n' := by rcases quotes with rfl | rfl <;> decide
  fun_induction splitQuoted quote body generalizing key with
  | case1 => exact .inr (by simp [splitQuoted, slash])
  | case2 rest ih =>
      obtain ⟨later, -, behind⟩ := Script.unescapeLiteral?_escape unescaped
      obtain ⟨last, -, after⟩ := Script.unescapeLiteral?_plain (by decide) behind
      rcases ih after with none_ | found
      · exact .inl (by simp [splitQuoted, none_])
      · exact .inr (by simp [splitQuoted, found])
  | case3 c rest noPair ih =>
      obtain ⟨later, -, behind⟩ := Script.unescapeLiteral?_escape unescaped
      have step : splitQuoted quote ('\\' :: c :: (rest ++ quote :: trail)) =
          (splitQuoted quote (rest ++ quote :: trail)).map fun split => ('\\' :: c :: split.1, split.2) := by
        rw [splitQuoted]
        · rfl
        · rintro after rfl starts
          -- No line end follows an escaped return: none does in the body, and behind it comes the quote.
          cases rest with
          | nil => exact noLine (List.cons.inj starts).1
          | cons d rest => exact noPair rest rfl (by rw [(List.cons.inj starts).1])
      rcases ih behind with none_ | found
      · exact .inl (step.trans (by rw [none_, Option.map_none]))
      · exact .inr (step.trans (by rw [found, Option.map_some]))
  | case4 c rest _ noEscape same =>
      obtain rfl := beq_iff_eq.1 same
      simp [unescapeLiteral?, slash] at unescaped
  | case5 c rest _ noEscape other line =>
      have plain := ne_slash_of_unescapeLiteral? noEscape unescaped
      exact .inl (by simp_all [splitQuoted])
  | case6 c rest _ noEscape other line ih =>
      have plain := ne_slash_of_unescapeLiteral? noEscape unescaped
      obtain ⟨later, -, behind⟩ := Script.unescapeLiteral?_plain plain unescaped
      rcases ih behind with none_ | found
      · exact .inl (by simp_all [splitQuoted])
      · exact .inr (by simp_all [splitQuoted])

end Body

/-! ## What a program reads -/

section Expression

variable {expression key : List Char} {node : Script.Node}

theorem closes_of_blank {trail : List Char} (blank : ∀ c ∈ trail, Text.isBlank c) :
    (Script.Cursor.at false false trail).token.closes := by
  rw [Script.at_spacing fun c member => Script.isSpacing_of_isBlank (blank c member)]
  rfl

/-- A literal with nothing around it. -/
theorem readExpression?_alone {quote : Char} {body : List Char} {units : List Nat}
    (quotes : quote = '\'' ∨ quote = '"') (splits : splitQuoted quote (body ++ [quote]) = some (body, []))
    (cooks : cook false .plain body = .ok units) :
    readExpression? (String.ofList (quote :: (body ++ [quote]))) = some (.str (textOfUnits units)) :=
  Script.readExpression?_literal (List.forall_mem_nil _) quotes splits cooks
    (closes_of_blank (List.forall_mem_nil _))

theorem exists_units_of_readExpression? {lead trail : List Char} {quote : Char}
    (before : ∀ c ∈ lead, Text.isBlank c) (behind : ∀ c ∈ trail, Text.isBlank c)
    (quotes : quote = '\'' ∨ quote = '"') {body : List Char} (unescaped : unescapeLiteral? quote body = some key)
    (reads : readExpression? (String.ofList (lead ++ quote :: (body ++ quote :: trail))) = some node) :
    splitQuoted quote (body ++ quote :: trail) = some (body, trail) ∧
      ∃ units, cook false .plain body = .ok units ∧ node = .str (textOfUnits units) := by
  have spacing : ∀ c ∈ lead, isSpacing c := fun c member => Script.isSpacing_of_isBlank (before c member)
  rcases splitQuoted_of_unescapeLiteral? quotes unescaped trail with none_ | found
  · rw [Script.readExpression?_of_not_cooks spacing quotes (by simp [none_])] at reads
    cases reads
  · cases cooks : cook false .plain body with
    | error flaw =>
        rw [Script.readExpression?_of_not_cooks spacing quotes (by simp [found, cooks])] at reads
        cases reads
    | ok units =>
        rw [Script.readExpression?_literal spacing quotes found cooks (closes_of_blank behind)] at reads
        cases reads
        exact ⟨found, units, rfl, rfl⟩

end Expression

/-! ## What is handed to the pipe -/

/-- The scanner for pipes passes over the literal that a program reads. -/
theorem quotedRun_of_quoted {text raw rest : List Char} {quote : Char} (quotes : quote = '\'' ∨ quote = '"')
    (quoted : Script.Quoted quote text raw rest) : quotedRun quote text = (raw ++ [quote], rest) := by
  have slash := ne_slash_of_quote quotes
  induction quoted with
  | closing => simp [quotedRun, slash]
  | continued next ih =>
      have plain : '\n' ≠ quote := by rcases quotes with rfl | rfl <;> decide
      simp [quotedRun, ih, plain]
  | escaped single next ih => simp [quotedRun, ih]
  | plain noSlash noQuote noLine next ih =>
      rw [quotedRun, noQuote, if_neg Bool.false_ne_true, ih]
      · rfl
      · exact fun _ _ same => absurd same noSlash

theorem Group.inFront_inFront (front text : List Char) (texts : List (List Char)) :
    inFront front (inFront text texts) = inFront (front ++ text) texts := by
  cases texts <;> simp [inFront]

/-- A text without pipes, separators and brackets outside quotes, and without an open quote: what follows it
is read as if it stood alone. -/
def Opaque (text : List Char) : Prop :=
  ∀ ⦃nested : Bool⦄ ⦃rest last : List Char⦄ ⦃group : Group⦄, Reads nested rest group last →
    ∃ longer, Reads nested (text ++ rest) longer last ∧
      longer.texts = Group.inFront text group.texts ∧
      ∀ place, longer.laterParts place = group.laterParts (place + text.length)

namespace Opaque

variable {first second text : List Char}

theorem append (one : Opaque first) (other : Opaque second) : Opaque (first ++ second) := by
  intro nested rest last group next
  obtain ⟨middle, reads, texts, parts⟩ := other next
  obtain ⟨longer, reads', texts', parts'⟩ := one reads
  refine ⟨longer, List.append_assoc first second rest ▸ reads', ?_, fun place => ?_⟩
  · rw [texts', texts, Group.inFront_inFront]
  · rw [parts', parts, List.length_append, Nat.add_assoc]

theorem of_others (others : ∀ c ∈ text, Role.of c = .other) : Opaque text := by
  induction text with
  | nil =>
      intro nested rest last group next
      obtain ⟨one, more, same⟩ := List.exists_cons_of_ne_nil group.texts_ne_nil
      exact ⟨group, next, by rw [same]; rfl, fun _ => rfl⟩
  | cons c text ih =>
      rw [List.forall_mem_cons] at others
      have single : Opaque [c] := fun _ _ _ group next =>
        ⟨.plain [c] group, .other others.1 next, rfl, fun _ => rfl⟩
      exact single.append (ih others.2)

theorem of_blank (blank : ∀ c ∈ text, Text.isBlank c) : Opaque text :=
  of_others fun c member => by
    have blank := blank c member
    unfold Role.of
    split <;> first | rfl | cases blank

theorem space : Opaque [' '] := of_blank (List.forall_mem_singleton.2 rfl)

/-- A literal that a program reads, in its quotes. -/
theorem of_literal {quote : Char} {body trail : List Char} (quotes : quote = '\'' ∨ quote = '"')
    (splits : splitQuoted quote text = some (body, trail)) : Opaque (quote :: (body ++ [quote])) := by
  intro nested rest last group next
  have role : Role.of quote = .quote := by rcases quotes with rfl | rfl <;> rfl
  have run := quotedRun_of_quoted quotes ((Script.quoted_of_splitQuoted splits).append rest)
  refine ⟨.plain (quote :: (body ++ [quote])) group, ?_, rfl, fun _ => rfl⟩
  have reads : Reads nested (quotedRun quote (body ++ quote :: rest)).2 group last := by rwa [run]
  simpa [run] using Reads.quoted role reads

end Opaque

/-- An operand with one pipe behind it is all that is handed to the pipe. -/
theorem pipedOperands_alone {operand call name : List Char} (front : Opaque operand) (back : Opaque call)
    (single : call.head? ≠ some '|') (called : Text.trimChars (call.takeWhile (· != ':')) = name) :
    pipedOperands (operand ++ '|' :: call) name = [⟨0, operand⟩] := by
  have ended : Reads false [] .done [] := .ended
  obtain ⟨tail, reads, texts, parts⟩ := back ended
  rw [List.append_nil] at reads
  obtain ⟨group, reads, texts', parts'⟩ := front (.pipe single reads)
  have texts : group.texts = [operand, call] := by simp [texts', texts, Group.texts, Group.inFront]
  have parts : group.laterParts 0 = [] := by simp [parts', parts, Group.laterParts]
  obtain ⟨finds, perm, ran⟩ := PipeScan.follows_of_reads name reads 0 ⟨0, operand ++ '|' :: call, []⟩ [] [] rfl
  rw [handed_fresh name 0 group reads.text, texts, parts] at perm
  have found : finds = [⟨0, operand⟩] := by
    simpa [PartTexts.operand?, called] using perm
  rw [pipedOperands]
  simp [PipeScan.start, ran, PipeScan.beyond, found]

/-! ## Directive and pipe -/

theorem strings_eq_iff {body key : List Char} {quote : Char} {units : List Nat}
    (cooks : cook false .plain body = .ok units) (unescaped : unescapeLiteral? quote body = some key) :
    (Script.Node.str (textOfUnits units)).strings = [String.ofList key] ↔ selfEscaped body := by
  rw [Script.Node.strings, Option.toList_eq_singleton_iff]
  exact Script.textOfUnits_eq_iff cooks unescaped

/-- That the pipe drops empty keys does not matter for a key that is not empty. -/
theorem filter_toList_eq_iff {value : Option String} {key : String} (some_ : key ≠ "") :
    value.toList.filter (!·.isEmpty) = [key] ↔ value.toList = [key] := by
  cases value with
  | none => simp
  | some text =>
      by_cases empty : text = ""
      · subst empty
        simp [some_.symm]
      · simp [empty]

/-- A name that is written without brackets, quotes, separators, pipes, colons and blanks. -/
def isPlainName (name : List Char) : Bool :=
  name.all fun c => Role.of c == .other && c != ':' && !Text.isBlank c

/-- The pipe finds what a program reads in the operand, apart from empty keys. -/
theorem pipeKeys_alone {operand : List Char} {name : String} (front : Opaque operand)
    (plain : isPlainName name.toList) :
    Strategy.pipeKeys name (String.ofList (operand ++ '|' :: ' ' :: (name.toList ++ [' ']))) =
      ((readExpression? (String.ofList operand)).map fun node => node.strings.filter (!·.isEmpty)).getD [] := by
  have each : ∀ c ∈ name.toList, Role.of c = .other ∧ c ≠ ':' ∧ Text.isBlank c = false := by
    simpa [isPlainName, and_assoc] using plain
  have back : Opaque (' ' :: (name.toList ++ [' '])) :=
    Opaque.space.append ((Opaque.of_others fun c member => (each c member).1).append Opaque.space)
  have noColon : (' ' :: (name.toList ++ [' '])).takeWhile (· != ':') = ' ' :: (name.toList ++ [' ']) := by
    rw [List.takeWhile_eq_self_iff]
    simp only [List.mem_cons, List.mem_append, List.not_mem_nil, or_false]
    rintro c (rfl | member | rfl)
    · rfl
    · simpa using (each c member).2.1
    · rfl
  have called : Text.trimChars ((' ' :: (name.toList ++ [' '])).takeWhile (· != ':')) = name.toList := by
    have blank : ∀ c ∈ [' '], Text.isBlank c := List.forall_mem_singleton.2 rfl
    rw [noColon]
    exact Text.trimChars_between blank (fun c member => (each c member).2.2) blank
  rw [Strategy.pipeKeys, String.toList_ofList, pipedOperands_alone front back (by simp) called,
    List.flatMap_singleton]
  cases readExpression? (String.ofList operand) <;> rfl

/-- **Directive and pipe read a literal alike exactly if its escapes are all of one kind.**  Let an element be
marked by an expression in brackets that is a quoted literal, and let the same expression be handed to the
pipe. If the expression can be read at all, the pipe finds the key that the directive gives if and only if every
backslash of the literal stands before a character that stands for itself. -/
theorem directiveKeys_eq_pipeKeys_iff {element : Element} {marked : Attribute} {expression name : String}
    {key : List Char} {node : Script.Node} (unnamed : element.directiveValue? = none)
    (bound : element.firstAttribute? (directiveNames.map fun name => "[" ++ name ++ "]") = some marked)
    (value : marked.value = some expression) (literal : quotedLiteral? expression.toList = some key)
    (reads : readExpression? expression = some node) (plain : isPlainName name.toList) :
    element.directiveKeys = [String.ofList key] ∧
      (node.strings = [String.ofList key] ↔ selfEscaped (literalBody expression.toList)) ∧
      (Strategy.pipeKeys name (" " ++ expression ++ " | " ++ name ++ " ") = element.directiveKeys ↔
        selfEscaped (literalBody expression.toList)) := by
  have directive : element.directiveKeys = [String.ofList key] := by
    simp [Element.directiveKeys, unnamed, bound, value, literal]
  obtain ⟨lead, quote, trail, spelled, quotes, before, behind, unescaped, some_⟩ := quotedLiteral?_parts literal
  generalize literalBody expression.toList = body at spelled unescaped
  have spelled' : expression = String.ofList (lead ++ quote :: (body ++ quote :: trail)) := by
    rw [← spelled, String.ofList_toList]
  rw [spelled'] at reads
  obtain ⟨splits, units, cooks, rfl⟩ :=
    exists_units_of_readExpression? before behind quotes unescaped reads
  have same := strings_eq_iff cooks unescaped
  refine ⟨directive, same, ?_⟩
  -- What stands before the `|` in the interpolation: the literal and one more blank on either side.
  have operand : ' ' :: (expression.toList ++ [' ']) =
      ' ' :: lead ++ quote :: (body ++ quote :: (trail ++ [' '])) := by
    rw [spelled]
    simp
  have between : " " ++ expression ++ " | " ++ name ++ " " =
      String.ofList (' ' :: (expression.toList ++ [' ']) ++ '|' :: ' ' :: (name.toList ++ [' '])) := by
    simp [← String.toList_inj]
  have front : Opaque (' ' :: (expression.toList ++ [' '])) := by
    have literal := (Opaque.of_blank before).append
      ((Opaque.of_literal quotes splits).append (Opaque.of_blank behind))
    have whole := (Opaque.space.append literal).append Opaque.space
    rw [spelled]
    simpa using whole
  have again : readExpression? (String.ofList (' ' :: (expression.toList ++ [' ']))) =
      some (.str (textOfUnits units)) := by
    rw [operand]
    have spacing : ∀ c ∈ lead, isSpacing c := fun c member => Script.isSpacing_of_isBlank (before c member)
    refine Script.readExpression?_literal (List.forall_mem_cons.2 ⟨rfl, spacing⟩) quotes
      (Script.splitQuoted_append splits (ne_slash_of_quote quotes) _) cooks (closes_of_blank ?_)
    simpa [or_imp, forall_and] using ⟨behind, rfl⟩
  have visible : String.ofList key ≠ "" := by simpa using some_
  rw [between, pipeKeys_alone front plain, again, directive, ← same]
  exact filter_toList_eq_iff visible

/-- An escaped quote is read alike. -/
theorem directiveKeys_eq_pipeKeys_quote :
    (Element.mk "p" [⟨"[translate]", some "'it\\'s'"⟩] []).directiveKeys = ["it's"] ∧
      Strategy.pipeKeys "translate" (" " ++ "'it\\'s'" ++ " | " ++ "translate" ++ " ") = ["it's"] := by
  have unnamed : (Element.mk "p" [⟨"[translate]", some "'it\\'s'"⟩] []).directiveValue? = none := by
    decide +kernel
  have bound : (Element.mk "p" [⟨"[translate]", some "'it\\'s'"⟩] []).firstAttribute?
      (directiveNames.map fun name => "[" ++ name ++ "]") = some ⟨"[translate]", some "'it\\'s'"⟩ := by
    decide +kernel
  have literal : quotedLiteral? "'it\\'s'".toList = some "it's".toList := by decide +kernel
  have plain : isPlainName "translate".toList := by decide +kernel
  have cooks : cook false .plain ['i', 't', '\\', '\'', 's'] = .ok [105, 116, 39, 115] := by
    simp [cook, cook.plain, Script.isLineEnd, Script.octalDigit?, Except.map]
  have spelled : String.ofList ('\'' :: (['i', 't', '\\', '\'', 's'] ++ ['\''])) = "'it\\'s'" := by decide
  have reads := spelled ▸ readExpression?_alone (.inl rfl) rfl cooks
  obtain ⟨directive, -, pipe⟩ := directiveKeys_eq_pipeKeys_iff unnamed bound rfl literal reads plain
  have same := pipe.2 (by decide +kernel)
  have key : String.ofList "it's".toList = "it's" := String.ofList_toList
  rw [key] at directive
  exact ⟨directive, same.trans directive⟩

/-- A line end that is written as an escape comes out of the directive as the letter `n`. -/
theorem newline_read_differently :
    quotedLiteral? "'a\\nb'".toList = some "anb".toList ∧
      (readExpression? "'a\\nb'").map (·.strings) = some ["a\nb"] := by
  have cooks : cook false .plain ['a', '\\', 'n', 'b'] = .ok [97, 10, 98] := by
    simp [cook, cook.plain, Except.map]
  have spelled : String.ofList ('\'' :: (['a', '\\', 'n', 'b'] ++ ['\''])) = "'a\\nb'" := by decide
  refine ⟨by decide +kernel, ?_⟩
  rw [← spelled, readExpression?_alone (.inl rfl) rfl cooks]
  decide +kernel

/-! ## What stands behind a literal -/

section Leftover

variable {lead text raw rest : List Char} {quote : Char} (spacing : ∀ c ∈ lead, isSpacing c)
  (quotes : quote = '\'' ∨ quote = '"') (splits : splitQuoted quote text = some (raw, rest))
include spacing quotes splits

end Leftover

end MessageKeys.Template
