import Mathlib.Data.List.Basic
import MessageKeys.Proofs.Results
import MessageKeys.Script.Token
import MessageKeys.Template.Directive
/-!
# Proofs.Script.Escapes — what a backslash means to the two readers of a literal

`cook` reads the text between the quotes of a literal as the language has it: a backslash starts an escape.
`unescapeLiteral?` drops the backslashes and keeps what stands behind them. `Cooked` says by the escapes of a
text what `cook` makes of it (`cooked_of_cook`). Behind a backslash a character stands for itself, for another
character, for the start of a number, or for nothing at all, at a line end. The second reader never gives a
shorter text than the first, and the two give the same exactly if all escapes are of the first kind
(`textOfUnits_eq_iff`).
-/
namespace MessageKeys.Script
open Template (unescapeLiteral?)

/-! ## The escapes of a text -/

/-- The characters that stand for another one behind a backslash, or open a number. -/
def escapeLetters : List Char := ['n', 't', 'r', 'b', 'f', 'v', 'x', 'u']

/-- Behind a backslash the character stands for itself. -/
def standsForItself (c : Char) : Bool :=
  !escapeLetters.contains c && !isLineEnd c && (octalDigit? c).isNone

/-- Every backslash stands before a character that stands for itself. -/
def selfEscaped : List Char → Bool
  | '\\' :: c :: rest => standsForItself c && selfEscaped rest
  | _ :: rest => selfEscaped rest
  | [] => true

/-- The units that the text between the quotes of a literal stands for, escape by escape. -/
inductive Cooked : List Char → List Nat → Prop
  | ended : Cooked [] []
  /-- A character outside every escape. -/
  | plain {c : Char} {rest : List Char} {units : List Nat} (other : c ≠ '\\') (next : Cooked rest units) :
      Cooked (c :: rest) (c.toNat :: units)
  /-- A character that stands for itself. -/
  | itself {c : Char} {rest : List Char} {units : List Nat} (same : standsForItself c)
      (next : Cooked rest units) : Cooked ('\\' :: c :: rest) (c.toNat :: units)
  /-- A character that stands for another one. -/
  | letter {c : Char} {rest : List Char} {unit : Nat} {units : List Nat} (different : standsForItself c = false)
      (other : Char.ofNat unit ≠ c) (next : Cooked rest units) : Cooked ('\\' :: c :: rest) (unit :: units)
  /-- A unit written as a number of several characters. -/
  | number {c : Char} {digits rest : List Char} {unit : Nat} {units : List Nat}
      (different : standsForItself c = false) (some_ : digits ≠ []) (digital : ∀ d ∈ digits, d ≠ '\\')
      (next : Cooked rest units) : Cooked ('\\' :: c :: (digits ++ rest)) (unit :: units)
  /-- A line end that is left out. -/
  | lineEnd {c : Char} {ending rest : List Char} {units : List Nat} (different : standsForItself c = false)
      (single : ∀ d ∈ ending, d ≠ '\\') (next : Cooked rest units) : Cooked ('\\' :: c :: (ending ++ rest)) units

/-! ## Numbers -/

/-- A unit is read from some characters at the front of a text, and cooking goes on behind them. -/
def CooksNumber (text : List Char) (units : List Nat) : Prop :=
  ∃ digits rest unit later, text = digits ++ rest ∧ digits ≠ [] ∧ (∀ d ∈ digits, d ≠ '\\') ∧
    units = unit :: later ∧ cook false .plain rest = .ok later

theorem CooksNumber.cons {c : Char} {text : List Char} {units : List Nat} (other : c ≠ '\\')
    (number : CooksNumber text units) : CooksNumber (c :: text) units := by
  obtain ⟨digits, rest, unit, later, rfl, -, digital, rfl, cooks⟩ := number
  exact ⟨c :: digits, rest, unit, later, rfl, by simp, List.forall_mem_cons.2 ⟨other, digital⟩, rfl, cooks⟩

theorem CooksNumber.of_last {c : Char} {rest : List Char} {units : List Nat} {unit : Nat} (other : c ≠ '\\')
    (cooks : (cook false .plain rest).map (unit :: ·) = .ok units) : CooksNumber (c :: rest) units := by
  obtain ⟨later, behind, rfl⟩ := map_eq_ok_iff.1 cooks
  exact ⟨[c], rest, unit, later, rfl, by simp, by simpa using other, rfl, behind⟩

theorem ne_slash_of_escapeDigit {c : Char} {rest : List Char} {digit : Option Nat}
    (digital : escapeDigit? c rest = .ok digit) : c ≠ '\\' := by
  rintro rfl
  cases digital

theorem ne_slash_of_octalDigit {c : Char} {d : Nat} (digit : octalDigit? c = some d) : c ≠ '\\' := by
  rintro rfl
  cases digit

theorem cooksNumber_of_hex {text : List Char} {left value : Nat} {units : List Nat}
    (cooks : cook false (.hex left value) text = .ok units) : CooksNumber text units := by
  induction text generalizing left value with
  | nil => simp [cook] at cooks
  | cons c rest ih =>
      rw [cook] at cooks
      cases digit : escapeDigit? c rest with
      | error flaw => simp [digit] at cooks
      | ok digit? =>
          have other := ne_slash_of_escapeDigit digit
          rw [digit] at cooks
          cases digit? with
          | none => exact .cons other (ih cooks)
          | some d =>
              by_cases last : left ≤ 1
              · exact .of_last other (by simpa only [if_pos last] using cooks)
              · exact .cons other (ih (by simpa only [if_neg last] using cooks))

theorem cooksNumber_of_braces {text : List Char} {digits value : Nat} {units : List Nat}
    (cooks : cook false (.braces digits value) text = .ok units) : CooksNumber text units := by
  induction text generalizing digits value with
  | nil => simp [cook] at cooks
  | cons c rest ih =>
      by_cases closing : c = '}'
      · subst closing
        by_cases empty : digits = 0
        · simp [cook, empty] at cooks
        · exact .of_last (by decide) (by simpa [cook, empty] using cooks)
      · rw [cook, if_neg (by simpa using closing)] at cooks
        cases digit : escapeDigit? c rest with
        | error flaw => simp [digit] at cooks
        | ok digit? =>
            have other := ne_slash_of_escapeDigit digit
            rw [digit] at cooks
            cases digit? with
            | none => exact .cons other (ih cooks)
            | some d =>
                by_cases large : value * 16 + d > 0x10FFFF
                · simp [large] at cooks
                · exact .cons other (ih (by simpa only [if_neg large] using cooks))

theorem cooksNumber_of_unicode {text : List Char} {units : List Nat}
    (cooks : cook false .unicode text = .ok units) : CooksNumber text units := by
  cases text with
  | nil => simp [cook] at cooks
  | cons c rest =>
      by_cases opening : c = '{'
      · subst opening
        exact .cons (by decide) (cooksNumber_of_braces (by simpa [cook] using cooks))
      · rw [cook, if_neg (by simpa using opening)] at cooks
        cases digit : escapeDigit? c rest with
        | error flaw => simp [digit] at cooks
        | ok digit? =>
            rw [digit] at cooks
            refine .cons (ne_slash_of_escapeDigit digit) ?_
            cases digit? with
            | none | some d => exact cooksNumber_of_hex cooks

/-- An octal escape ends where no digit follows, so its first digit may be all of it. -/
theorem cooksNumber_of_octal {text : List Char} {left value : Nat} {units : List Nat}
    (cooks : cook false (.octal left value) text = .ok units) :
    CooksNumber text units ∨ ∃ later, units = value :: later ∧ cook false .plain text = .ok later := by
  induction text generalizing left value with
  | nil => exact .inr ⟨[], by simpa [cook, eq_comm] using cooks, by simp [cook]⟩
  | cons c rest ih =>
      cases digit : octalDigit? c with
      | none =>
          right
          simp only [cook, digit] at cooks
          obtain ⟨later, behind, rfl⟩ := map_eq_ok_iff.1 cooks
          exact ⟨later, rfl, by rw [cook, behind]⟩
      | some d =>
          left
          have other := ne_slash_of_octalDigit digit
          by_cases last : left ≤ 1
          · exact .of_last other (by simpa [cook, digit, last] using cooks)
          · simp only [cook, digit, if_neg last] at cooks
            rcases ih cooks with number | ⟨later, rfl, behind⟩
            · exact .cons other number
            · exact .of_last other (by rw [behind]; rfl)

theorem ofNat_ne_of_octalDigit {c : Char} {d : Nat} (digit : octalDigit? c = some d) : Char.ofNat d ≠ c := by
  have small : ∀ n < 8, (Char.ofNat n).toNat = n := by decide
  rw [octalDigit?, Option.ite_none_right_eq_some, Option.some_inj] at digit
  obtain ⟨⟨low, high⟩, rfl⟩ := digit
  have low : 48 ≤ c.toNat := low
  have high : c.toNat ≤ 55 := high
  have zero : '0'.toNat = 48 := rfl
  intro same
  have code := small (c.toNat - '0'.toNat) (by omega)
  rw [same] at code
  omega

/-! ## One escape -/

/-- Behind a backslash `cook` reads a character that stands for itself, one that stands for another
character, a number, or a line end. -/
inductive Escapes (c : Char) (rest : List Char) (units : List Nat) : Prop
  | itself {later : List Nat} (same : standsForItself c) (spelled : units = c.toNat :: later)
      (cooks : cook false .plain rest = .ok later)
  | letter {unit : Nat} {later : List Nat} (different : standsForItself c = false)
      (other : Char.ofNat unit ≠ c) (spelled : units = unit :: later)
      (cooks : cook false .plain rest = .ok later)
  | number (different : standsForItself c = false) (number : CooksNumber rest units)
  | lineEnd (ending : List Char) {later : List Char} (different : standsForItself c = false)
      (single : ∀ d ∈ ending, d ≠ '\\') (spelled : rest = ending ++ later)
      (cooks : cook false .plain later = .ok units)

theorem exists_later_of_map {unit : Nat} {rest : List Char} {units : List Nat}
    (cooks : (cook false .plain rest).map (unit :: ·) = .ok units) :
    ∃ later, units = unit :: later ∧ cook false .plain rest = .ok later := by
  obtain ⟨later, behind, rfl⟩ := map_eq_ok_iff.1 cooks
  exact ⟨later, rfl, behind⟩

section Backslash

variable {c : Char} {rest : List Char} {units : List Nat}
  (cooks : cook false .backslash (c :: rest) = .ok units)
include cooks

theorem escapes_of_letter (letter : c ∈ escapeLetters) : Escapes c rest units := by
  have different : standsForItself c = false := by simp [standsForItself, letter]
  have among : c = 'n' ∨ c = 't' ∨ c = 'r' ∨ c = 'b' ∨ c = 'f' ∨ c = 'v' ∨ c = 'x' ∨ c = 'u' := by
    simpa [escapeLetters] using letter
  rcases among with rfl | rfl | rfl | rfl | rfl | rfl | rfl | rfl
  case inr.inr.inr.inr.inr.inr.inl =>
    exact .number different (cooksNumber_of_hex (by simpa [cook] using cooks))
  case inr.inr.inr.inr.inr.inr.inr =>
    exact .number different (cooksNumber_of_unicode (by simpa [cook] using cooks))
  all_goals
    simp only [cook] at cooks
    obtain ⟨later, same, behind⟩ := exists_later_of_map cooks
    exact .letter different (by decide) same behind

theorem escapes_of_return (isReturn : c = '\r') : Escapes c rest units := by
  subst isReturn
  simp only [cook] at cooks
  cases rest with
  | nil => exact .lineEnd [] rfl (by simp) rfl (by simpa [cook] using cooks)
  | cons d rest =>
      by_cases pair : d = '\n'
      · subst pair
        exact .lineEnd ['\n'] rfl (by simp) rfl (by simpa [cook] using cooks)
      · rw [cook, if_neg (by simpa using pair)] at cooks
        exact .lineEnd [] rfl (by simp) rfl (by rw [cook, cooks])

theorem escapes_of_cook : Escapes c rest units := by
  by_cases letter : c ∈ escapeLetters
  · exact escapes_of_letter cooks letter
  have others : c ≠ 'n' ∧ c ≠ 't' ∧ c ≠ 'r' ∧ c ≠ 'b' ∧ c ≠ 'f' ∧ c ≠ 'v' ∧ c ≠ 'x' ∧ c ≠ 'u' := by
    simpa [escapeLetters] using letter
  by_cases isReturn : c = '\r'
  · exact escapes_of_return cooks isReturn
  by_cases lineEnd : isLineEnd c
  · exact .lineEnd [] (by simp [standsForItself, lineEnd]) (by simp) rfl
      (by simpa [cook, others, isReturn, lineEnd] using cooks)
  cases digit : octalDigit? c with
  | some d =>
      have different : standsForItself c = false := by simp [standsForItself, digit]
      have octal : cook false (.octal (if d ≤ 3 then 2 else 1) d) rest = .ok units := by
        simpa [cook, others, isReturn, lineEnd, digit] using cooks
      rcases cooksNumber_of_octal octal with number | ⟨later, same, behind⟩
      · exact .number different number
      · exact .letter different (ofNat_ne_of_octalDigit digit) same behind
  | none =>
      have itself : (cook false .plain rest).map (c.toNat :: ·) = .ok units := by
        simpa [cook, others, isReturn, lineEnd, digit] using cooks
      obtain ⟨later, same, behind⟩ := exists_later_of_map itself
      exact .itself (by simp [standsForItself, letter, lineEnd, digit]) same behind

end Backslash

/-! ## All escapes of a text -/

theorem cooked_of_cook {text : List Char} {units : List Nat} (cooks : cook false .plain text = .ok units) :
    Cooked text units := by
  induction size : text.length using Nat.strongRecOn generalizing text units with
  | ind size ih =>
      subst size
      -- An escape takes more than one character, so the induction is on the length.
      cases text with
      | nil =>
          obtain rfl : [] = units := by simpa [cook] using cooks
          exact .ended
      | cons c rest =>
          by_cases slash : c = '\\'
          · subst slash
            replace cooks : cook false .backslash rest = .ok units := by simpa [cook, cook.plain] using cooks
            cases rest with
            | nil => simp [cook] at cooks
            | cons c rest =>
                cases escapes_of_cook cooks with
                | itself same spelled behind =>
                    subst spelled
                    exact .itself same (ih _ (by simp only [List.length_cons]; omega) behind rfl)
                | letter different other spelled behind =>
                    subst spelled
                    exact .letter different other (ih _ (by simp only [List.length_cons]; omega) behind rfl)
                | number different number =>
                    obtain ⟨digits, later, unit, units, rfl, some_, digital, rfl, behind⟩ := number
                    have shorter : later.length < ('\\' :: c :: (digits ++ later)).length := by
                      simp only [List.length_cons, List.length_append]
                      omega
                    exact .number different some_ digital (ih _ shorter behind rfl)
                | lineEnd ending different single spelled behind =>
                    subst spelled
                    refine .lineEnd different single (ih _ ?_ behind rfl)
                    simp only [List.length_cons, List.length_append]
                    omega
          · have plain : (cook false .plain rest).map (c.toNat :: ·) = .ok units := by
              simpa [cook, cook.plain, slash] using cooks
            obtain ⟨later, rfl, behind⟩ := exists_later_of_map plain
            exact .plain slash (ih _ (by simp) behind rfl)

/-! ## The other reader -/

section Unescape

variable {quote c : Char} {text rest key : List Char}

theorem unescapeLiteral?_escape (unescaped : unescapeLiteral? quote ('\\' :: c :: rest) = some key) :
    ∃ later, key = c :: later ∧ unescapeLiteral? quote rest = some later := by
  obtain ⟨later, behind, rfl⟩ := Option.map_eq_some_iff.1 unescaped
  exact ⟨later, rfl, behind⟩

theorem unescapeLiteral?_plain (other : c ≠ '\\') (unescaped : unescapeLiteral? quote (c :: rest) = some key) :
    ∃ later, key = c :: later ∧ unescapeLiteral? quote rest = some later := by
  rw [unescapeLiteral?] at unescaped
  · split at unescaped
    · cases unescaped
    · obtain ⟨later, behind, rfl⟩ := Option.map_eq_some_iff.1 unescaped
      exact ⟨later, rfl, behind⟩
  · exact fun same => absurd same other
  · exact fun _ _ same => absurd same other

theorem unescapeLiteral?_append {front : List Char} (plain : ∀ d ∈ front, d ≠ '\\')
    (unescaped : unescapeLiteral? quote (front ++ rest) = some key) :
    ∃ later, key = front ++ later ∧ unescapeLiteral? quote rest = some later := by
  induction front generalizing key with
  | nil => exact ⟨key, rfl, unescaped⟩
  | cons d front ih =>
      rw [List.forall_mem_cons] at plain
      obtain ⟨behind, rfl, next⟩ := unescapeLiteral?_plain plain.1 unescaped
      obtain ⟨later, rfl, last⟩ := ih plain.2 next
      exact ⟨later, rfl, last⟩

end Unescape

/-! ## The two readers beside each other -/

section Both

variable {quote : Char} {text key : List Char} {units : List Nat}

theorem Cooked.length_le (cooked : Cooked text units) (unescaped : unescapeLiteral? quote text = some key) :
    units.length ≤ key.length := by
  induction cooked generalizing key with
  | ended => exact Nat.zero_le _
  | plain other next ih =>
      obtain ⟨later, rfl, behind⟩ := unescapeLiteral?_plain other unescaped
      exact Nat.succ_le_succ (ih behind)
  | itself _ next ih | letter _ _ next ih =>
      obtain ⟨later, rfl, behind⟩ := unescapeLiteral?_escape unescaped
      exact Nat.succ_le_succ (ih behind)
  | number _ _ digital next ih | lineEnd _ digital next ih =>
      obtain ⟨later, rfl, behind⟩ := unescapeLiteral?_escape unescaped
      obtain ⟨last, rfl, after⟩ := unescapeLiteral?_append digital behind
      have := ih after
      simp only [List.length_cons, List.length_append]
      omega

theorem Cooked.eq_of_selfEscaped (cooked : Cooked text units) (self : selfEscaped text)
    (unescaped : unescapeLiteral? quote text = some key) : units = key.map Char.toNat := by
  induction cooked generalizing key with
  | ended =>
      cases unescaped
      rfl
  | plain other next ih =>
      obtain ⟨later, rfl, behind⟩ := unescapeLiteral?_plain other unescaped
      rw [selfEscaped] at self
      · rw [ih self behind, List.map_cons]
      · exact fun _ _ same => absurd same other
  | itself same next ih =>
      obtain ⟨later, rfl, behind⟩ := unescapeLiteral?_escape unescaped
      rw [selfEscaped, same, Bool.true_and] at self
      rw [ih self behind, List.map_cons]
  | letter different | number different | lineEnd different =>
      rw [selfEscaped, different, Bool.false_and] at self
      cases self

theorem Cooked.selfEscaped_of_eq (cooked : Cooked text units)
    (unescaped : unescapeLiteral? quote text = some key) (same : units.map Char.ofNat = key) :
    selfEscaped text := by
  induction cooked generalizing key with
  | ended => rfl
  | plain other next ih =>
      obtain ⟨later, rfl, behind⟩ := unescapeLiteral?_plain other unescaped
      rw [selfEscaped]
      · exact ih behind (List.cons.inj same).2
      · exact fun _ _ same => absurd same other
  | itself itself next ih =>
      obtain ⟨later, rfl, behind⟩ := unescapeLiteral?_escape unescaped
      rw [selfEscaped, itself, Bool.true_and]
      exact ih behind (List.cons.inj same).2
  | letter _ other next ih =>
      obtain ⟨later, rfl, behind⟩ := unescapeLiteral?_escape unescaped
      exact absurd (List.cons.inj same).1 other
  | number _ some_ digital next ih =>
      -- The unit stands for more characters than one, so too few are left behind it.
      obtain ⟨later, rfl, behind⟩ := unescapeLiteral?_escape unescaped
      obtain ⟨last, rfl, after⟩ := unescapeLiteral?_append digital behind
      have width := next.length_le after
      have lengths := congrArg List.length same
      have digits := List.length_pos_of_ne_nil some_
      simp only [List.map_cons, List.length_cons, List.length_append, List.length_map] at lengths
      omega
  | lineEnd _ single next ih =>
      obtain ⟨later, rfl, behind⟩ := unescapeLiteral?_escape unescaped
      obtain ⟨last, rfl, after⟩ := unescapeLiteral?_append single behind
      have width := next.length_le after
      have lengths := congrArg List.length same
      simp only [List.length_cons, List.length_append, List.length_map] at lengths
      omega

/-- Joined pairs make a text shorter than its units are many; without pairs units are characters. -/
theorem joinUnits_length_le {chars : List Char} (joined : joinUnits units = some chars) :
    chars.length ≤ units.length ∧ (chars.length = units.length → chars = units.map Char.ofNat) := by
  fun_induction joinUnits units generalizing chars with
  | case1 | case3 =>
      cases joined
      exact ⟨Nat.le_refl _, fun _ => rfl⟩
  | case2 | case5 | case6 => cases joined
  | case4 high low rest _ _ ih =>
      obtain ⟨later, behind, rfl⟩ := Option.map_eq_some_iff.1 joined
      have shorter := (ih behind).1
      simp only [List.length_cons]
      exact ⟨by omega, fun same => by omega⟩
  | case7 unit next rest _ _ ih =>
      obtain ⟨later, behind, rfl⟩ := Option.map_eq_some_iff.1 joined
      obtain ⟨shorter, equal⟩ := ih behind
      refine ⟨Nat.succ_le_succ shorter, fun same => ?_⟩
      rw [equal (Nat.succ.inj same), List.map_cons (l := next :: rest)]

theorem joinUnits_map_toNat (text : List Char) : joinUnits (text.map Char.toNat) = some text := by
  induction text with
  | nil => rfl
  | cons c text ih =>
      have valid : c.toNat < 0xD800 ∨ 0xDFFF < c.toNat ∧ c.toNat < 0x110000 := c.valid
      have itself := c.ofNat_toNat
      cases text with
      | nil =>
          rw [List.map_singleton, joinUnits, if_neg (by omega), itself]
      | cons d text =>
          rw [List.map_cons] at ih
          rw [List.map_cons, List.map_cons, joinUnits, if_neg (by omega), if_neg (by omega), ih, itself]
          rfl

/-- The two readers give one text exactly if every backslash stands before a character that stands for
itself. -/
theorem textOfUnits_eq_iff (cooks : cook false .plain text = .ok units)
    (unescaped : unescapeLiteral? quote text = some key) :
    textOfUnits units = some (String.ofList key) ↔ selfEscaped text := by
  have cooked := cooked_of_cook cooks
  constructor
  · intro same
    obtain ⟨chars, joined, spelled⟩ := Option.map_eq_some_iff.1 same
    obtain rfl : chars = key := String.ofList_injective spelled
    obtain ⟨shorter, equal⟩ := joinUnits_length_le joined
    exact cooked.selfEscaped_of_eq unescaped
      (equal (Nat.le_antisymm shorter (cooked.length_le unescaped))).symm
  · intro self
    rw [cooked.eq_of_selfEscaped self unescaped, textOfUnits, joinUnits_map_toNat, Option.map_some]

end Both

end MessageKeys.Script
