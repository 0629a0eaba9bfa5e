import MessageKeys.Format
import MessageKeys.Proofs.Format.Flat
/-!
# Proofs.Format.Indentation — an indentation is to be blank

An indentation is written between the braces of an object as it is. Blanks do not count there, so a table
reads back from its text. Anything else stands where only the name of a field or the closing brace may
stand, so an object with fields cannot be read (`Json.ofString?_toPrettyString_of_shown`); an
indentation that begins with a quote is left out, as it might be taken for a name.
-/
namespace MessageKeys.Json

/-! ## The first token -/

theorem push?_eq_some {token : Option Token} {tokens : Option (List Token)} {all : List Token}
    (pushed : push? token tokens = some all) :
    ∃ first more, token = some first ∧ tokens = some more ∧ all = first :: more := by
  cases token with
  | none => cases pushed
  | some first =>
      obtain ⟨more, rest, rfl⟩ := Option.map_eq_some_iff.1 pushed
      exact ⟨first, more, rfl, rest, rfl⟩

/-- A word that has been begun gives the first token. -/
theorem wordToken?_of_tokensFrom? {before text : List Char} {all : List Token}
    (read : tokensFrom? (.word before) text = some all) :
    ∃ word first more, wordToken? word = some first ∧ all = first :: more := by
  induction text generalizing before with
  | nil =>
      obtain ⟨first, more, word, -, shape⟩ := push?_eq_some read
      exact ⟨_, first, more, word, shape⟩
  | cons c text ih =>
      rw [tokensFrom?] at read
      split at read
      · obtain ⟨first, more, word, -, shape⟩ := push?_eq_some read
        exact ⟨_, first, more, word, shape⟩
      · split at read
        · obtain ⟨first, more, word, -, shape⟩ := push?_eq_some read
          exact ⟨_, first, more, word, shape⟩
        · split at read
          · obtain ⟨first, more, word, -, shape⟩ := push?_eq_some read
            exact ⟨_, first, more, word, shape⟩
          · exact ih read

/-- A string that has been begun gives a token. -/
theorem tokensFrom?_quoted_ne_nil (text before : List Char) :
    tokensFrom? (.quoted before) text ≠ some [] ∧ tokensFrom? (.escaped before) text ≠ some [] := by
  induction text generalizing before with
  | nil => simp [tokensFrom?]
  | cons c text ih =>
      refine ⟨fun read => ?_, fun read => (ih _).1 read⟩
      rw [tokensFrom?] at read
      split at read
      · obtain ⟨_, _, -, -, shape⟩ := push?_eq_some read
        cases shape
      · split at read
        · exact (ih _).2 read
        · exact (ih _).1 read

/-- Only blanks have no tokens. -/
theorem isSpace_of_tokensFrom?_nil {text : List Char} (nothing : tokensFrom? .between text = some []) :
    ∀ c ∈ text, isSpace c := by
  induction text with
  | nil => simp
  | cons c text ih =>
      rw [tokensFrom?] at nothing
      split at nothing
      · rename_i blank
        exact List.forall_mem_cons.2 ⟨blank, ih nothing⟩
      · split at nothing
        · exact absurd nothing (tokensFrom?_quoted_ne_nil text []).1
        · split at nothing
          · obtain ⟨_, _, -, -, shape⟩ := push?_eq_some nothing
            cases shape
          · obtain ⟨_, _, _, -, shape⟩ := wordToken?_of_tokensFrom? nothing
            cases shape

/-- A token that may come after the opening brace of an object. -/
def Token.followsBrace : Token → Bool
  | .string _ | .closeObject => true
  | _ => false

theorem followsBrace_of_wordToken? {word : List Char} {token : Token}
    (found : wordToken? word = some token) : token.followsBrace = false := by
  unfold wordToken? at found
  split at found
  · cases found
    rfl
  · split at found
    · cases found
      rfl
    · split at found
      · cases found
        rfl
      · obtain ⟨number, -, rfl⟩ := Option.map_eq_some_iff.1 found
        rfl

/-! ## Reading an object -/

theorem readValue_openObject {token : Token} (other : token.followsBrace = false) (stack : List Frame)
    (rest : List Token) : readValue stack (.openObject :: token :: rest) = none := by
  cases token with
  | string text => cases other
  | closeObject => cases other
  | _ => rw [readValue] <;> simp

/-- Nothing may come after the outermost value. -/
theorem afterValue_nil (value : Raw) {tokens : List Token} (more : tokens ≠ []) :
    afterValue [] value tokens = none := by
  unfold afterValue
  split
  · exact absurd rfl more
  all_goals rfl

theorem eq_closeObject_of_mark? {c : Char} {mark : Token} (marks : mark? c = some mark)
    (follows : mark.followsBrace = true) : mark = .closeObject := by
  unfold mark? at marks
  split at marks <;> cases marks <;> first | rfl | cases follows

/-- An opening brace before anything that is no name, in a text that goes on after it. -/
theorem readValue_of_shown {blanks rest : List Char} {c : Char} (blank : ∀ c ∈ blanks, isSpace c)
    (shown : isSpace c = false) (unquoted : c ≠ '"') (more : '"' ∈ rest) :
    (tokens? ('{' :: (blanks ++ c :: rest))).bind (readValue []) = none := by
  rw [tokens?, tokensFrom?_mark rfl (by decide) rfl, tokensFrom?_spaces blank]
  cases read : tokensFrom? .between (c :: rest) with
  | none => rfl
  | some tokens =>
      rw [Option.map_some, Option.bind_some]
      rw [tokensFrom?, if_neg (by simp [shown]), if_neg (by simpa using unquoted)] at read
      cases marks : mark? c with
      | none =>
          rw [marks] at read
          obtain ⟨word, first, others, found, rfl⟩ := wordToken?_of_tokensFrom? read
          exact readValue_openObject (followsBrace_of_wordToken? found) [] others
      | some mark =>
          rw [marks] at read
          obtain ⟨_, others, same, tail, rfl⟩ := push?_eq_some read
          cases same
          cases follows : mark.followsBrace with
          | false => exact readValue_openObject follows [] others
          | true =>
              -- The object is over, but not the text.
              rw [eq_closeObject_of_mark? marks follows, readValue]
              refine afterValue_nil _ ?_
              rintro rfl
              cases isSpace_of_tokensFrom?_nil tail '"' more

/-- The first character that is no blank. -/
theorem exists_shown {text : List Char} (shown : ¬ ∀ c ∈ text, isSpace c) :
    ∃ blanks c rest, text = blanks ++ c :: rest ∧ (∀ c ∈ blanks, isSpace c) ∧ isSpace c = false := by
  induction text with
  | nil => exact absurd (by simp) shown
  | cons d text ih =>
      cases here : isSpace d with
      | false => exact ⟨[], d, text, rfl, by simp, here⟩
      | true =>
          obtain ⟨blanks, c, rest, rfl, blank, visible⟩ :=
            ih fun all => shown (List.forall_mem_cons.2 ⟨here, all⟩)
          exact ⟨d :: blanks, c, rest, rfl, List.forall_mem_cons.2 ⟨here, blank⟩, visible⟩

/-- What comes first in an indentation besides blanks is no quote. -/
def Unquoted (indentation : String) : Prop :=
  (indentation.toList.dropWhile isSpace).head? ≠ some '"'

/-- **An indentation that is not blank spoils every object with fields.** -/
theorem ofString?_toPrettyString_of_shown {indentation : String} (unquoted : Unquoted indentation)
    (shown : ¬ ∀ c ∈ indentation.toList, isSpace c) (field : String × Json)
    (fields : List (String × Json)) (ending : String) :
    Json.ofString? ((Json.object (field :: fields)).toPrettyString indentation ++ ending) = none := by
  obtain ⟨blanks, c, rest, shape, blank, visible⟩ := exists_shown shown
  have other : c ≠ '"' := by
    rintro rfl
    exact unquoted (by rw [shape, List.dropWhile_append_of_pos blank]; simp [visible])
  obtain ⟨tail, quoted, text⟩ : ∃ tail, '"' ∈ tail ∧
      ((Json.object (field :: fields)).toPrettyString indentation ++ ending).toList =
        '{' :: ('\n' :: blanks ++ c :: tail) := by
    refine ⟨_, ?_, by simp [toPrettyString, prettyAt, newLine, shape]; rfl⟩
    simp [quote]
  have around : ∀ c ∈ '\n' :: blanks, isSpace c := List.forall_mem_cons.2 ⟨rfl, blank⟩
  rw [Json.ofString?, Raw.ofString?, text, readValue_of_shown around visible other quoted]
  rfl

end MessageKeys.Json

namespace MessageKeys.KeyTable

variable {indentation : String} (table : KeyTable)

/-- The text of a table reads back if nothing but blanks indents it, or if nothing is to be indented. -/
theorem ofJsonText_of_blank
    (blank : (∀ c ∈ indentation.toList, Json.isSpace c) ∨ table.keys = []) :
    ∃ read, ofJsonText (table.toFlatJson.toPrettyString indentation ++ "\n") = .ok read ∧
      read.toList = table.toList.map fun entry => (entry.1, entry.2.readBack) := by
  rcases blank with blank | empty
  · exact table.ofJsonText_toFlatJson blank
  · have entries : table.toList = [] := List.map_eq_nil_iff.1 empty
    have plain : table.toFlatJson.toPrettyString indentation =
        table.toFlatJson.toPrettyString "" := by
      rw [toFlatJson, entries]
      rfl
    rw [plain]
    exact table.ofJsonText_toFlatJson (by simp)

/-- Otherwise it is no JSON. -/
theorem ofJsonText_of_shown (unquoted : Json.Unquoted indentation)
    (shown : ¬ ((∀ c ∈ indentation.toList, Json.isSpace c) ∨ table.keys = [])) :
    ofJsonText (table.toFlatJson.toPrettyString indentation ++ "\n") = .error .notJson := by
  rw [not_or] at shown
  obtain ⟨shown, filled⟩ := shown
  cases entries : table.toList with
  | nil => exact absurd (congrArg (List.map Prod.fst) entries) filled
  | cons entry entries_ =>
      rw [toFlatJson, entries, List.map_cons, ofJsonText, trim_toPrettyString_ne_empty,
        if_neg Bool.false_ne_true, Json.ofString?_toPrettyString_of_shown unquoted shown]

end MessageKeys.KeyTable
