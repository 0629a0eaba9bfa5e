import Mathlib.Data.List.Basic
import MessageKeys.Files.Glob
import MessageKeys.Proofs.Text.Pieces
/-!
# Proofs.Files.Pattern — a text as a pattern of itself

An escaped text reads as a pattern (`ofChars?_escape`) that matches this text and no other
(`isMatch_plain`). Cutting at slashes and escaping can be done in either order, so the parts of an
escaped path are the escaped parts.
-/
namespace MessageKeys.Files.Pattern

/-- A character that would mean something else in a pattern. -/
def isSpecial (c : Char) : Bool := c == '?' || c == '*' || c == '[' || c == ']'

/-- The pattern that an escaped text is read as. -/
def plain (text : List Char) : Pattern :=
  text.map fun c => if isSpecial c then .oneOf [(c, c)] else .char c

/-- A character as it is escaped. -/
def escapeChar (c : Char) : List Char := if isSpecial c then ['[', c, ']'] else [c]

theorem escape_eq (text : List Char) : escape text = text.flatMap escapeChar := rfl

/-- An escaped text reads as itself in front of what reads the same wherever it stands. -/
theorem readFrom?_escape_append {rest : List Char} {read : Option Pattern}
    (onward : ∀ atStart, readFrom? (.outside atStart) rest = read) (text : List Char) (atStart : Bool) :
    readFrom? (.outside atStart) (escape text ++ rest) = read.map (plain text ++ ·) := by
  induction text generalizing atStart with
  | nil =>
      rw [escape_eq, List.flatMap_nil, List.nil_append, onward]
      cases read <;> rfl
  | cons c text ih =>
      rw [escape_eq, List.flatMap_cons, ← escape_eq, plain, List.map_cons, ← plain, List.append_assoc]
      have before : ∀ piece : Piece, (read.map (plain text ++ ·)).map (piece :: ·) =
          read.map (piece :: plain text ++ ·) := fun piece => by rw [Option.map_map]; rfl
      by_cases special : isSpecial c = true
      · have other : c ≠ '!' := by
          rintro rfl
          cases special
        have ranges : rangesOf [c] = [(c, c)] := by
          rw [rangesOf, rangesOf]
          exact fun _ _ same => by cases same
        rw [escapeChar, if_pos special, if_pos special]
        simp only [List.cons_append, List.nil_append]
        rw [readFrom?, readFrom?, readFrom?, ih]
        · simp only [List.reverse_singleton, ranges]
          exact before _
        · exact other
      · have apart : c ≠ '?' ∧ c ≠ '*' ∧ c ≠ '[' := by
          simp only [isSpecial, Bool.or_eq_true, beq_iff_eq, not_or] at special
          exact ⟨special.1.1.1, special.1.1.2, special.1.2⟩
        rw [escapeChar, if_neg special, if_neg special, List.singleton_append, readFrom?, ih]
        · exact before _
        all_goals simp [apart]

theorem ofChars?_escape (text : List Char) : ofChars? (escape text) = some (plain text) := by
  have nothing : ∀ atStart, readFrom? (.outside atStart) [] = some [] := fun _ => rfl
  have alone := readFrom?_escape_append nothing text true
  rwa [List.append_nil, Option.map_some, List.append_nil] at alone

theorem split_escape (text : List Char) :
    Text.split '/' (escape text) = (Text.split '/' text).map escape := by
  induction text with
  | nil => rfl
  | cons c text ih =>
      rw [escape_eq, List.flatMap_cons, ← escape_eq]
      by_cases slash : c = '/'
      · subst slash
        have shown : escapeChar '/' = ['/'] := rfl
        rw [shown, List.singleton_append, Text.split, Text.split, ih]
        rfl
      · have clear : '/' ∉ escapeChar c := by
          unfold escapeChar
          split <;> simp [Ne.symm slash]
        obtain ⟨piece, pieces, found, whole⟩ := Text.split_append_of_notMem clear (escape text)
        have single : '/' ∉ [c] := by simpa using Ne.symm slash
        obtain ⟨first, others, found', whole'⟩ := Text.split_append_of_notMem single text
        rw [ih, found', List.map_cons] at found
        obtain ⟨rfl, rfl⟩ := List.cons.inj found
        rw [List.singleton_append] at whole'
        rw [whole, whole']
        rfl

/-- An escaped text matches itself alone. -/
theorem isMatch_plain (text name : List Char) : isMatch (plain text) name ↔ name = text := by
  induction text generalizing name with
  | nil => cases name <;> simp [plain, isMatch]
  | cons c text ih =>
      rw [plain, List.map_cons, ← plain]
      by_cases special : isSpecial c = true
      · rw [if_pos special]
        cases name with
        | nil => simp [isMatch]
        | cons d name =>
            have same : c ≤ d → d ≤ c → d = c := fun below above => Char.le_antisymm above below
            simp only [isMatch, Piece.holds, isWithin, List.any_cons, List.any_nil, Bool.or_false,
              Bool.and_eq_true, decide_eq_true_eq, ih, List.cons.injEq]
            refine and_congr_left fun _ => ⟨fun both => same both.1 both.2, fun equal => ?_⟩
            rw [equal]
            exact ⟨Char.le_refl c, Char.le_refl c⟩
      · rw [if_neg special]
        cases name with
        | nil => simp [isMatch]
        | cons d name => simp [isMatch, Piece.holds, ih]

theorem literal?_plain {text found : List Char} (literal : literal? (plain text) = some found) :
    found = text := by
  induction text generalizing found with
  | nil =>
      cases literal
      rfl
  | cons c text ih =>
      rw [plain, List.map_cons, ← plain] at literal
      by_cases special : isSpecial c = true
      · rw [if_pos special] at literal
        cases literal
      · rw [if_neg special, literal?] at literal
        obtain ⟨rest, found', rfl⟩ := Option.map_eq_some_iff.1 literal
        rw [ih found']

theorem isRecursive_plain (text : List Char) : (plain text).isRecursive = false := by
  rw [isRecursive, Bool.eq_false_iff, ne_eq, List.contains_iff_mem]
  intro member
  obtain ⟨c, -, same⟩ := List.mem_map.1 member
  split at same <;> cases same

/-- The characters that a pattern stands for as they are come from its text. -/
theorem mem_of_readFrom? {reading : Reading} {text : List Char} {part : Pattern}
    (read : readFrom? reading text = some part) {c : Char} (member : .char c ∈ part) : c ∈ text := by
  -- Every rule takes the first characters off and puts at most one piece in front.
  fun_induction readFrom? reading text generalizing part <;>
    grind [Option.map_eq_some_iff]

end MessageKeys.Files.Pattern
