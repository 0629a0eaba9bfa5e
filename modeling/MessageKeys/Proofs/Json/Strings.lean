import MessageKeys.Json.Printer
import MessageKeys.Json.Token
/-!
# Proofs.Json.Strings — printed strings read back

Between quotes a character stands for itself, or is shown by a backslash and a letter, or by its number
(`escapeChar_cases`). In none of these shapes does the string end early (`tokensFrom?_escapeChar`), and
each of them gives the character's code point back (`unescape?_escapeChar`). A character is no surrogate,
so nothing is joined.
-/
namespace MessageKeys.Json

/-- The three shapes of a character between quotes. -/
theorem escapeChar_cases (c : Char) :
    (∃ d, escapeChar c = ['\\', d] ∧ d ≠ 'u' ∧ simpleEscape? d = some c.toNat) ∨
    (∃ high low, escapeChar c = ['\\', 'u', '0', '0', high, low] ∧
      hexUnit? '0' '0' high low = some c.toNat ∧ (∀ d ∈ [high, low], d ≠ '"' ∧ d ≠ '\\')) ∨
    (escapeChar c = [c] ∧ c ≠ '"' ∧ c ≠ '\\' ∧ ¬ c.toNat < 0x20) := by
  have control : ∀ n < 0x20, hexUnit? '0' '0' (hexChar (n / 16)) (hexChar (n % 16)) = some n ∧
      (hexChar (n / 16) ≠ '"' ∧ hexChar (n / 16) ≠ '\\') ∧
      hexChar (n % 16) ≠ '"' ∧ hexChar (n % 16) ≠ '\\' := by decide
  unfold escapeChar
  split
  · exact Or.inl ⟨'"', rfl, by decide, rfl⟩
  · exact Or.inl ⟨'\\', rfl, by decide, rfl⟩
  · exact Or.inl ⟨'n', rfl, by decide, rfl⟩
  · exact Or.inl ⟨'r', rfl, by decide, rfl⟩
  · exact Or.inl ⟨'t', rfl, by decide, rfl⟩
  · rename_i notQuote notBackslash _ _ _
    split
    · rename_i backspace
      exact Or.inl ⟨'b', rfl, by decide, congrArg some (eq_of_beq backspace).symm⟩
    · split
      · rename_i formFeed
        exact Or.inl ⟨'f', rfl, by decide, congrArg some (eq_of_beq formFeed).symm⟩
      · split
        · rename_i low
          obtain ⟨read, first, second⟩ := control c.toNat low
          refine Or.inr (Or.inl ⟨_, _, rfl, read, ?_⟩)
          rw [List.forall_mem_cons, List.forall_mem_singleton]
          exact ⟨first, second⟩
        · rename_i high
          exact Or.inr (Or.inr ⟨rfl, notQuote, notBackslash, high⟩)

theorem tokensFrom?_quoted {c : Char} (before rest : List Char) (open_ : c ≠ '"') (plain : c ≠ '\\') :
    tokensFrom? (.quoted before) (c :: rest) = tokensFrom? (.quoted (c :: before)) rest := by
  rw [tokensFrom?, if_neg (by simpa using open_), if_neg (by simpa using plain)]

theorem tokensFrom?_escaped (before rest : List Char) (c : Char) :
    tokensFrom? (.quoted before) ('\\' :: c :: rest) =
      tokensFrom? (.quoted (c :: '\\' :: before)) rest := by
  rw [tokensFrom?, if_neg (by decide), if_pos (by decide), tokensFrom?]

theorem tokensFrom?_escapeChar (before rest : List Char) (c : Char) :
    tokensFrom? (.quoted before) (escapeChar c ++ rest) =
      tokensFrom? (.quoted ((escapeChar c).reverse ++ before)) rest := by
  rcases escapeChar_cases c with
    ⟨d, shown, -⟩ | ⟨high, low, shown, -, digits⟩ | ⟨shown, open_, plain, -⟩
  · simp only [shown, List.cons_append, List.nil_append, tokensFrom?_escaped, List.reverse_cons,
      List.reverse_nil]
  · have ⟨first, second⟩ := digits high (by simp)
    have ⟨third, fourth⟩ := digits low (by simp)
    simp only [shown, List.cons_append, List.nil_append, List.reverse_cons, List.reverse_nil]
    rw [tokensFrom?_escaped, tokensFrom?_quoted _ _ (by decide) (by decide),
      tokensFrom?_quoted _ _ (by decide) (by decide), tokensFrom?_quoted _ _ first second,
      tokensFrom?_quoted _ _ third fourth]
  · rw [shown, List.singleton_append, tokensFrom?_quoted _ _ open_ plain]
    rfl

theorem tokensFrom?_escaped_text (text before rest : List Char) :
    tokensFrom? (.quoted before) (text.flatMap escapeChar ++ rest) =
      tokensFrom? (.quoted ((text.flatMap escapeChar).reverse ++ before)) rest := by
  induction text generalizing before with
  | nil => rfl
  | cons c text ih =>
      rw [List.flatMap_cons, List.append_assoc, tokensFrom?_escapeChar, ih, List.reverse_append,
        List.append_assoc]

theorem unescape?_escapeChar (c : Char) (rest : List Char) :
    unescape? (escapeChar c ++ rest) = (unescape? rest).map (c.toNat :: ·) := by
  rcases escapeChar_cases c with
    ⟨d, shown, other, meant⟩ | ⟨high, low, shown, meant, -⟩ | ⟨shown, -, plain, visible⟩
  · rw [shown, List.cons_append, List.singleton_append, unescape?, meant]
    exact fun _ _ _ _ _ same => absurd same other
  · rw [shown]
    simp only [List.cons_append, List.nil_append]
    rw [unescape?, meant]
  · rw [shown, List.singleton_append, unescape?, if_neg (by simpa [plain] using visible)]
    · exact fun _ _ _ _ _ same => absurd same plain
    · exact fun _ _ same => absurd same plain

theorem unescape?_text (text : List Char) :
    unescape? (text.flatMap escapeChar) = some (text.map Char.toNat) := by
  induction text with
  | nil => rfl
  | cons c text ih => rw [List.flatMap_cons, unescape?_escapeChar, ih, Option.map_some, List.map_cons]

theorem not_surrogate (c : Char) :
    isHighSurrogate c.toNat = false ∧ isLowSurrogate c.toNat = false := by
  have valid := c.valid
  simp only [UInt32.isValidChar, Nat.isValidChar] at valid
  have same : c.toNat = c.val.toNat := rfl
  simp only [isHighSurrogate, isLowSurrogate, Bool.and_eq_false_iff, decide_eq_false_iff_not]
  omega

theorem joinSurrogates?_text (text : List Char) :
    joinSurrogates? (text.map Char.toNat) = some text := by
  induction text with
  | nil => rfl
  | cons c text ih =>
      obtain ⟨notHigh, notLow⟩ := not_surrogate c
      cases text with
      | nil =>
          rw [List.map_cons, List.map_nil, joinSurrogates?, notHigh, notLow, Char.ofNat_toNat]
          rfl
      | cons d text =>
          rw [List.map_cons] at ih
          rw [List.map_cons, List.map_cons, joinSurrogates?, notHigh, notLow, ih, Char.ofNat_toNat]
          rfl

theorem stringToken?_text (text : String) :
    stringToken? (text.toList.flatMap escapeChar) = some (.string (some text)) := by
  rw [stringToken?, unescape?_text, Option.map_some, joinSurrogates?_text, Option.map_some,
    String.ofList_toList]

/-- A printed string is one token, whatever follows. -/
theorem tokensFrom?_quote (text : String) (rest : List Char) :
    tokensFrom? .between (quote text ++ rest) =
      (tokensFrom? .between rest).map (.string (some text) :: ·) := by
  rw [quote, List.append_assoc, List.cons_append, tokensFrom?, if_neg (by decide),
    if_pos (by decide), tokensFrom?_escaped_text, List.append_nil, List.singleton_append, tokensFrom?,
    if_pos (by decide), List.reverse_reverse, stringToken?_text]
  rfl

end MessageKeys.Json
