import MessageKeys.Template.PipeChain
import MessageKeys.Text.Split
/-!
# Proofs.Template.PipeGrammar — the groups and parts of an expression

The grammar by which an expression is cut into parts, told without a scanner. A `Group` is what one pair of
brackets encloses, or the whole expression: opaque texts, pipes, separators, and groups in brackets of
their own. `Reads` says which group a text begins with, going from left to right; there is always exactly
one (`exists_reads`, `Reads.unique`), and it spells the text up to where it ends (`Reads.text`).

A group is cut into parts by its separators and a part into texts by its pipes (`Group.texts`). The parts of
an expression at any depth, `Group.parts`, come in the order in which they start (`pairwise_parts`), and
each tells on its own what it hands to a pipe (`PartTexts.operand?`).
-/
namespace MessageKeys.Template

/-! ## Characters and quotes -/

/-- What a character means outside quotes. -/
inductive Role where
  | quote
  | opening
  | closing
  | separator
  | pipe
  | other
deriving DecidableEq, Repr

/-- The role of a character. -/
def Role.of : Char → Role
  | '\'' | '"' | '\x60' => .quote
  | '(' | '[' | '{' => .opening
  | ')' | ']' | '}' => .closing
  | ',' | ';' => .separator
  | '|' => .pipe
  | _ => .other

/-- Cuts what follows an opening quote behind the closing one. A backslash takes the next character along,
and a text that is never closed goes on to the end. -/
def quotedRun (mark : Char) : List Char → List Char × List Char
  | [] => ([], [])
  | '\\' :: c :: rest => ('\\' :: c :: (quotedRun mark rest).1, (quotedRun mark rest).2)
  | c :: rest =>
    if c == mark then ([c], rest) else (c :: (quotedRun mark rest).1, (quotedRun mark rest).2)

theorem Role.of_eq_pipe {c : Char} (role : Role.of c = .pipe) : c = '|' := by
  unfold Role.of at role
  split at role <;> simp_all

theorem quotedRun_append (mark : Char) (text : List Char) :
    (quotedRun mark text).1 ++ (quotedRun mark text).2 = text := by
  fun_induction quotedRun mark text <;> simp_all

theorem length_quotedRun_le (mark : Char) (text : List Char) : (quotedRun mark text).2.length ≤ text.length := by
  have whole := congrArg List.length (quotedRun_append mark text)
  rw [List.length_append] at whole
  omega

/-! ## Groups -/

/-- What stands in a group from some character on. A group inside it that is never closed has no closing
bracket. -/
inductive Group where
  | done
  | plain (text : List Char) (rest : Group)
  | pipe (rest : Group)
  | separator (mark : Char) (rest : Group)
  | bracketed (opening : Char) (inside : Group) (closing : Option Char) (rest : Group)
deriving DecidableEq, Repr

/-- `Reads nested text group rest`: read from left to right, `text` begins with this group, and `rest`
follows. `nested` tells that a bracket has opened the group; only then does a closing bracket end it. -/
inductive Reads : Bool → List Char → Group → List Char → Prop
  | ended {nested : Bool} : Reads nested [] .done []
  | closed {mark : Char} {text : List Char} (role : Role.of mark = .closing) :
      Reads true (mark :: text) .done (mark :: text)
  | unopened {mark : Char} {text rest : List Char} {group : Group} (role : Role.of mark = .closing)
      (next : Reads false text group rest) : Reads false (mark :: text) (.plain [mark] group) rest
  | quoted {nested : Bool} {mark : Char} {text rest : List Char} {group : Group}
      (role : Role.of mark = .quote) (next : Reads nested (quotedRun mark text).2 group rest) :
      Reads nested (mark :: text) (.plain (mark :: (quotedRun mark text).1) group) rest
  | double {nested : Bool} {text rest : List Char} {group : Group}
      (next : Reads nested text group rest) :
      Reads nested ('|' :: '|' :: text) (.plain ['|', '|'] group) rest
  | pipe {nested : Bool} {text rest : List Char} {group : Group} (single : text.head? ≠ some '|')
      (next : Reads nested text group rest) : Reads nested ('|' :: text) (.pipe group) rest
  | separator {nested : Bool} {mark : Char} {text rest : List Char} {group : Group}
      (role : Role.of mark = .separator) (next : Reads nested text group rest) :
      Reads nested (mark :: text) (.separator mark group) rest
  | bracketed {nested : Bool} {opening closing : Char} {text after rest : List Char} {inside group : Group}
      (role : Role.of opening = .opening) (within : Reads true text inside (closing :: after))
      (next : Reads nested after group rest) :
      Reads nested (opening :: text) (.bracketed opening inside (some closing) group) rest
  | unclosed {nested : Bool} {opening : Char} {text : List Char} {inside : Group}
      (role : Role.of opening = .opening) (within : Reads true text inside []) :
      Reads nested (opening :: text) (.bracketed opening inside none .done) []
  | other {nested : Bool} {c : Char} {text rest : List Char} {group : Group} (role : Role.of c = .other)
      (next : Reads nested text group rest) : Reads nested (c :: text) (.plain [c] group) rest

namespace Group

/-- The characters of a group. -/
def text : Group → List Char
  | .done => []
  | .plain text rest => text ++ rest.text
  | .pipe rest => '|' :: rest.text
  | .separator mark rest => mark :: rest.text
  | .bracketed opening inside closing rest => opening :: inside.text ++ closing.toList ++ rest.text

/-- Puts a text in front of the first of several. -/
def inFront (text : List Char) : List (List Char) → List (List Char)
  | [] => [text]
  | first :: more => (text ++ first) :: more

/-- The texts between the pipes of the first part. -/
def texts : Group → List (List Char)
  | .done => [[]]
  | .plain text rest => inFront text rest.texts
  | .pipe rest => [] :: rest.texts
  | .separator _ _ => [[]]
  | .bracketed opening inside closing rest =>
    inFront (opening :: inside.text ++ closing.toList) rest.texts

end Group

/-- A part: the character at which it starts, and its texts between its pipes. -/
structure PartTexts where
  start : Nat
  texts : List (List Char)
deriving DecidableEq, Repr

/-- What a part hands to the pipe of this name: its first text, if the second one, which reaches from the
first pipe to the second one or to the end of the part, is this name up to its first `:`, trimmed. -/
def PartTexts.operand? (name : List Char) (part : PartTexts) : Option Operand :=
  match part.texts with
  | operand :: call :: _ =>
    if Text.trimChars (call.takeWhile (· != ':')) = name then some ⟨part.start, operand⟩ else none
  | _ => none

namespace Group

/-- The parts other than the first one, at any depth, for a group that begins at this character. -/
def laterParts (place : Nat) : Group → List PartTexts
  | .done => []
  | .plain text rest => rest.laterParts (place + text.length)
  | .pipe rest => rest.laterParts (place + 1)
  | .separator _ rest => ⟨place + 1, rest.texts⟩ :: rest.laterParts (place + 1)
  | .bracketed _ inside closing rest =>
    ⟨place + 1, inside.texts⟩ :: inside.laterParts (place + 1) ++
      rest.laterParts (place + 1 + inside.text.length + closing.toList.length)

/-- The parts of an expression at any depth. -/
def parts (group : Group) : List PartTexts := ⟨0, group.texts⟩ :: group.laterParts 0

/-- What the parts of an expression hand first to the pipe of this name. -/
def operands (name : List Char) (group : Group) : List Operand :=
  group.parts.filterMap (·.operand? name)

theorem texts_ne_nil (group : Group) : group.texts ≠ [] := by
  cases group with
  | done => simp [texts]
  | plain text rest => cases found : rest.texts <;> simp [texts, inFront, found]
  | pipe rest => simp [texts]
  | separator mark rest => simp [texts]
  | bracketed opening inside closing rest => cases found : rest.texts <;> simp [texts, inFront, found]

/-! ## The order of the parts -/

/-- Later parts start behind the beginning of a group and not behind its end. -/
theorem start_of_mem_laterParts {group : Group} {place : Nat} {part : PartTexts}
    (member : part ∈ group.laterParts place) :
    place < part.start ∧ part.start ≤ place + group.text.length := by
  induction group generalizing place with
  | done => simp [laterParts] at member
  | plain text rest ih =>
      have bounds := ih member
      simp only [Group.text, List.length_append]
      omega
  | pipe rest ih =>
      have bounds := ih member
      simp only [Group.text, List.length_cons]
      omega
  | separator mark rest ih =>
      simp only [Group.text, List.length_cons]
      rcases List.mem_cons.1 member with rfl | member
      · dsimp only
        omega
      · have bounds := ih member
        omega
  | bracketed opening inside closing rest within ih =>
      simp only [Group.text, List.length_append, List.length_cons]
      simp only [laterParts, List.mem_append, List.mem_cons] at member
      obtain (rfl | member) | member := member
      · dsimp only
        omega
      · have bounds := within member
        omega
      · have bounds := ih member
        omega

theorem pairwise_laterParts (group : Group) (place : Nat) :
    (group.laterParts place).Pairwise (·.start < ·.start) := by
  induction group generalizing place with
  | done => exact List.Pairwise.nil
  | plain text rest ih => exact ih _
  | pipe rest ih => exact ih _
  | separator mark rest ih =>
      exact List.pairwise_cons.2 ⟨fun part member => (start_of_mem_laterParts member).1, ih _⟩
  | bracketed opening inside closing rest within ih =>
      refine List.pairwise_append.2 ⟨List.pairwise_cons.2 ⟨?_, within _⟩, ih _, ?_⟩
      · exact fun part member => (start_of_mem_laterParts member).1
      · intro earlier early later late
        have behind := (start_of_mem_laterParts late).1
        rcases List.mem_cons.1 early with rfl | early
        · dsimp only
          omega
        · have before := (start_of_mem_laterParts early).2
          omega

/-- The parts come in the order in which they start, and no two start together. -/
theorem pairwise_parts (group : Group) : group.parts.Pairwise (·.start < ·.start) :=
  List.pairwise_cons.2
    ⟨fun _ member => (start_of_mem_laterParts member).1, pairwise_laterParts group 0⟩

theorem start_of_operand? {name : List Char} {part : PartTexts} {operand : Operand}
    (handed : part.operand? name = some operand) : operand.start = part.start := by
  unfold PartTexts.operand? at handed
  split at handed
  · split at handed
    · cases handed
      rfl
    · cases handed
  · cases handed

theorem pairwise_operands (name : List Char) (group : Group) :
    (group.operands name).Pairwise (·.start < ·.start) := by
  refine List.Pairwise.filterMap _ ?_ group.pairwise_parts
  intro first second before operand handed other handed'
  rw [start_of_operand? handed, start_of_operand? handed']
  exact before

end Group

/-! ## One reading for each text -/

namespace Reads

variable {nested : Bool} {source rest : List Char} {group : Group}

/-- A group spells what it has been read from. -/
theorem text (reads : Reads nested source group rest) : source = group.text ++ rest := by
  induction reads with
  | ended => rfl
  | closed role => rfl
  | unopened role next ih => simp [Group.text, ih]
  | @quoted nested mark text rest group role next ih =>
      rw [Group.text, List.append_assoc, ← ih, List.cons_append, quotedRun_append]
  | double next ih => simp [Group.text, ih]
  | pipe single next ih => simp [Group.text, ih]
  | separator role next ih => simp [Group.text, ih]
  | bracketed role within next inner ih => simp [Group.text, inner, ih]
  | unclosed role within inner => simpa [Group.text] using inner
  | other role next ih => simp [Group.text, ih]

/-- Reading a group stops at the end of the text or, inside brackets, in front of a closing one. -/
theorem rest_cases (reads : Reads nested source group rest) :
    rest = [] ∨ nested = true ∧ ∃ closing after, rest = closing :: after ∧ Role.of closing = .closing := by
  induction reads with
  | ended => exact .inl rfl
  | closed role => exact .inr ⟨rfl, _, _, rfl, role⟩
  | unclosed role within inner => exact .inl rfl
  | unopened role next ih | quoted role next ih | double next ih | pipe single next ih
  | separator role next ih | bracketed role within next inner ih | other role next ih => exact ih

/-- **A text is read in one way at most.** -/
theorem unique {group' : Group} {rest' : List Char} (reads : Reads nested source group rest)
    (other : Reads nested source group' rest') : group = group' ∧ rest = rest' := by
  -- The role of the next character tells which rule was used, and behind a bar the character after it.
  have bar : Role.of '|' = .pipe := rfl
  induction reads generalizing group' rest' with
  | ended => cases other; exact ⟨rfl, rfl⟩
  | closed role => cases other <;> grind
  | unopened role next ih => cases other <;> grind
  | quoted role next ih => cases other <;> grind
  | double next ih => cases other <;> grind
  | pipe single next ih => cases other <;> grind
  | separator role next ih => cases other <;> grind
  | bracketed role within next inner ih => cases other <;> grind
  | unclosed role within inner => cases other <;> grind
  | other role next ih => cases other <;> grind

end Reads

/-- **Every text can be read.**  Each character has its role, and what follows it is shorter. -/
theorem exists_reads (nested : Bool) (text : List Char) : ∃ group rest, Reads nested text group rest := by
  induction size : text.length using Nat.strongRecOn generalizing nested text with
  | _ size ih =>
      have shorter : ∀ after : List Char, after.length < text.length → ∀ nested,
          ∃ group rest, Reads nested after group rest :=
        fun after less nested => ih after.length (size ▸ less) nested after rfl
      cases text with
      | nil => exact ⟨_, _, .ended⟩
      | cons c text =>
          obtain ⟨group, rest, next⟩ := shorter text (Nat.lt_succ_self _) nested
          cases role : Role.of c with
          | other => exact ⟨_, _, .other role next⟩
          | separator => exact ⟨_, _, .separator role next⟩
          | quote =>
              obtain ⟨group, rest, next⟩ :=
                shorter (quotedRun c text).2 (Nat.lt_succ_of_le (length_quotedRun_le c text)) nested
              exact ⟨_, _, .quoted role next⟩
          | pipe =>
              rw [Role.of_eq_pipe role]
              by_cases single : text.head? = some '|'
              · obtain ⟨after, rfl⟩ := List.head?_eq_some_iff.1 single
                obtain ⟨group, rest, next⟩ := shorter after (by grind) nested
                exact ⟨_, _, .double next⟩
              · exact ⟨_, _, .pipe single next⟩
          | closing =>
              cases nested with
              | true => exact ⟨_, _, .closed role⟩
              | false => exact ⟨_, _, .unopened role next⟩
          -- The group inside is read first; what it leaves says whether it was closed.
          | opening =>
              obtain ⟨inside, left, within⟩ := shorter text (Nat.lt_succ_self _) true
              cases left with
              | nil => exact ⟨_, _, .unclosed role within⟩
              | cons closing after =>
                  have whole := congrArg List.length within.text
                  rw [List.length_append, List.length_cons] at whole
                  obtain ⟨group, rest, next⟩ := shorter after (by grind) nested
                  exact ⟨_, _, .bracketed role within next⟩

end MessageKeys.Template
