import MessageKeys.Proofs.Format.Gettext
/-!
# Proofs.Format.Layout — a template reads alike in every layout

A template holds messages. Each has a key, it may have a context, and it has a wording or else plural forms. How
the parts of a message become lines is left open in many ways (`Renders`): a text may be escaped more or less, and
cut into several quoted pieces between its characters, each but the first on a line of its own; the parts may come
in any order, if only the wording comes behind the key; blanks may stand around a line, blank lines and comments
between any two, and a line may end with a line feed or with a carriage return and a line feed.

All of this reads alike (`parse_of_renders`). A blank line or a comment does nothing, so reading a layout is
reading its lines of content (`steps_of_laid`). Those do to a `Reading` what the parts of a message say, whatever
was read before: what stands in front of the key leaves the entry that is still open as it is, apart from where
continuation lines would go, and so does a context or a plural form with the entry of its own message
(`steps_message`).
-/
namespace MessageKeys.Gettext

/-! ## Messages -/

/-- The parts that a message may have. -/
inductive Label where
  | context
  | key
  | plural
  | value
  | form (number : Nat)
deriving DecidableEq, Repr

/-- The keyword that a part starts with, with the blank behind it. -/
def Label.keyword : Label → String
  | .context => "msgctxt "
  | .key => "msgid "
  | .plural => "msgid_plural "
  | .value => "msgstr "
  | .form number => "msgstr[" ++ toString number ++ "] "

/-- A part of a message. -/
structure Part where
  label : Label
  text : List Char
deriving DecidableEq, Repr

/-- What a message has besides a context and a key. -/
inductive Body where
  | single (value : List Char)
  | plural (text : List Char) (forms : List (Nat × List Char))
deriving DecidableEq, Repr

/-- A message of a template. -/
structure Message where
  context : Option (List Char)
  key : List Char
  body : Body
deriving DecidableEq, Repr

namespace Message

/-- The parts of a message other than its key. -/
def others (message : Message) : List Part :=
  (message.context.map (Part.mk .context)).toList ++
    match message.body with
    | .single value => [⟨.value, value⟩]
    | .plural text forms => ⟨.plural, text⟩ :: forms.map fun form => ⟨.form form.1, form.2⟩

/-- How a message is worded: not at all if that is empty, or if it has plural forms. -/
def wording (message : Message) : Wording :=
  match message.body with
  | .single value => if value.isEmpty then none else some (String.ofList value)
  | .plural _ _ => none

/-- What a message adds to a table: nothing if it has no key. -/
def toPair? (message : Message) : Option (String × Wording) :=
  if message.key.isEmpty then none else some (String.ofList message.key, message.wording)

/-- An order in which a message may be written: what stands before its key and behind it. -/
structure Order (message : Message) (before after : List Part) : Prop where
  all : (before ++ after).Perm message.others
  value : ∀ part ∈ before, part.label ≠ .value

end Message

/-! ## Layouts -/

/-- How a text may be written between quotes: each character as it stands, or as a backslash and the character
that means it behind one. -/
inductive Spells : List Char → List Char → Prop
  | ended : Spells [] []
  | plain {c : Char} {text written : List Char} (noEscape : c ≠ '\\') (noLine : c ≠ '\n')
      (next : Spells text written) : Spells (c :: text) (c :: written)
  | escape {d : Char} {text written : List Char} (noLine : d ≠ '\n') (next : Spells text written) :
      Spells (escaped d :: text) ('\\' :: d :: written)

/-- Lines that go on with a text: each holds one more piece of it. -/
inductive Continues : List Char → List (List Char) → Prop
  | ended : Continues [] []
  | piece {text written rest : List Char} {lines : List (List Char)} (spells : Spells text written)
      (next : Continues rest lines) : Continues (text ++ rest) (quoted written :: lines)

/-- The lines of a part. The first piece of its text stands behind the keyword. -/
inductive PartLines (label : Label) : List Char → List (List Char) → Prop
  | keyword {text written rest : List Char} {lines : List (List Char)} (spells : Spells text written)
      (next : Continues rest lines) :
      PartLines label (text ++ rest) ((label.keyword.toList ++ quoted written) :: lines)

/-- The lines of parts one after the other. -/
inductive PartsLines : List Part → List (List Char) → Prop
  | ended : PartsLines [] []
  | part {label : Label} {text : List Char} {parts : List Part} {lines more : List (List Char)}
      (here : PartLines label text lines) (next : PartsLines parts more) :
      PartsLines (⟨label, text⟩ :: parts) (lines ++ more)

/-- The lines of messages one after the other. -/
inductive MessagesLines : List Message → List (List Char) → Prop
  | ended : MessagesLines [] []
  | message {message : Message} {messages : List Message} {before after : List Part}
      {lines more : List (List Char)} (order : message.Order before after)
      (here : PartsLines (before ++ ⟨.key, message.key⟩ :: after) lines) (next : MessagesLines messages more) :
      MessagesLines (message :: messages) (lines ++ more)

/-- Lines of content with blanks around them, and with blank lines and comments between them. -/
inductive Laid : List (List Char) → List (List Char) → Prop
  | ended : Laid [] []
  | content {lead line trail : List Char} {contents lines : List (List Char)}
      (before : ∀ c ∈ lead, Text.isBlank c) (behind : ∀ c ∈ trail, Text.isBlank c) (next : Laid contents lines) :
      Laid (line :: contents) ((lead ++ line ++ trail) :: lines)
  | blank {line : List Char} {contents lines : List (List Char)} (blank : ∀ c ∈ line, Text.isBlank c)
      (next : Laid contents lines) : Laid contents (line :: lines)
  | comment {lead : List Char} (comment : List Char) {contents lines : List (List Char)}
      (before : ∀ c ∈ lead, Text.isBlank c) (next : Laid contents lines) :
      Laid contents ((lead ++ '#' :: comment) :: lines)

/-- The text of lines. The last one need not be ended. -/
inductive Ends : List (List Char) → List Char → Prop
  | ended : Ends [] []
  | last {line : List Char} (single : '\n' ∉ line) : Ends [line] line
  | lineFeed {line text : List Char} {lines : List (List Char)} (single : '\n' ∉ line) (next : Ends lines text) :
      Ends (line :: lines) (line ++ '\n' :: text)
  | carriageReturn {line text : List Char} {lines : List (List Char)} (single : '\n' ∉ line)
      (next : Ends lines text) : Ends (line :: lines) (line ++ ['\r'] ++ '\n' :: text)

/-- The text is a layout of the messages. -/
def Renders (messages : List Message) (text : List Char) : Prop :=
  ∃ contents lines, MessagesLines messages contents ∧ Laid contents lines ∧ Ends lines text

/-! ## Texts -/

theorem unescape?_of_spells {text written : List Char} (spells : Spells text written) :
    unescape? written = some text := by
  induction spells with
  | ended => rfl
  | plain noEscape _ _ ih =>
      rw [unescape?, ih]
      · rfl
      · exact fun same => absurd same noEscape
      · exact fun _ _ same => absurd same noEscape
  | escape _ _ ih =>
      rw [unescape?, ih]
      rfl

/-- The way in which a template is written is one of them. -/
theorem spells_escape (text : List Char) : Spells text (escape text) := by
  induction text with
  | nil => exact .ended
  | cons c rest ih =>
      rw [escape, List.flatMap_cons, ← escape]
      rcases escapeChar_cases c with ⟨d, shown, meant, single⟩ | ⟨shown, plain, single⟩
      · rw [shown, ← meant]
        exact .escape single ih
      · rw [shown]
        exact .plain plain single ih

/-! ## Lines of content -/

/-- The line starts and ends as it is, so that reading it does not take anything off. -/
def Trimmed (line : List Char) : Prop := Text.trimChars line = line

theorem Label.trimmed (label : Label) (written : List Char) :
    Trimmed (label.keyword.toList ++ quoted written) := by
  cases label with
  | form number =>
      have starts : (Label.form number).keyword.toList = 'm' :: ("sgstr[" ++ toString number ++ "] ").toList := by
        simp [Label.keyword]
      exact Reading.trimChars_quoted starts rfl written
  | _ => exact Reading.trimChars_quoted rfl rfl written

theorem Continues.trimmed {text : List Char} {lines : List (List Char)} (continues : Continues text lines) :
    ∀ line ∈ lines, Trimmed line := by
  induction continues with
  | ended => exact List.forall_mem_nil _
  | piece _ _ ih => exact List.forall_mem_cons.2 ⟨Text.trimChars_of_ends _ rfl rfl, ih⟩

theorem PartLines.trimmed {label : Label} {text : List Char} {lines : List (List Char)}
    (lines_ : PartLines label text lines) : ∀ line ∈ lines, Trimmed line := by
  cases lines_ with
  | keyword _ next => exact List.forall_mem_cons.2 ⟨label.trimmed _, next.trimmed⟩

theorem PartsLines.trimmed {parts : List Part} {lines : List (List Char)} (lines_ : PartsLines parts lines) :
    ∀ line ∈ lines, Trimmed line := by
  induction lines_ with
  | ended => exact List.forall_mem_nil _
  | part here _ ih => exact List.forall_mem_append.2 ⟨here.trimmed, ih⟩

theorem MessagesLines.trimmed {messages : List Message} {lines : List (List Char)}
    (lines_ : MessagesLines messages lines) : ∀ line ∈ lines, Trimmed line := by
  induction lines_ with
  | ended => exact List.forall_mem_nil _
  | message _ here _ ih => exact List.forall_mem_append.2 ⟨here.trimmed, ih⟩

namespace Reading

/-! ## Reading line by line -/

/-- Reads lines without blanks around them. -/
def steps (reading : Reading) (lines : List (List Char)) : Except LineFault Reading := lines.foldlM step reading

theorem steps_nil (reading : Reading) : reading.steps [] = .ok reading := rfl

theorem steps_cons {reading next : Reading} {line : List Char} (step : reading.step line = .ok next)
    (lines : List (List Char)) : reading.steps (line :: lines) = next.steps lines := by
  rw [steps, List.foldlM_cons, step]
  rfl

theorem steps_append {reading next : Reading} {lines : List (List Char)} (front : reading.steps lines = .ok next)
    (more : List (List Char)) : reading.steps (lines ++ more) = next.steps more := by
  rw [steps, List.foldlM_append, ← steps, front]
  rfl

theorem run_of_steps {reading next : Reading} (number : Nat) {lines : List (List Char)}
    (steps : reading.steps (lines.map Text.trimChars) = .ok next) : reading.run number lines = .ok next := by
  induction lines generalizing reading number with
  | nil => exact congrArg _ (Except.ok.inj steps)
  | cons line lines ih =>
      rw [List.map_cons, Reading.steps, List.foldlM_cons] at steps
      obtain ⟨middle, step, rest⟩ := bind_eq_ok_iff.1 steps
      rw [run, step]
      exact ih (number + 1) rest

/-- Blank lines and comments do nothing. -/
theorem steps_of_laid {contents lines : List (List Char)} (laid : Laid contents lines)
    (trimmed : ∀ line ∈ contents, Trimmed line) (reading : Reading) :
    reading.steps (lines.map Text.trimChars) = reading.steps contents := by
  induction laid generalizing reading with
  | ended => rfl
  | @content lead line trail contents lines before behind _ ih =>
      rw [List.forall_mem_cons] at trimmed
      rw [List.map_cons, Text.trimChars_blanks line before behind, trimmed.1, steps, steps, List.foldlM_cons,
        List.foldlM_cons]
      exact bind_congr fun next => ih trimmed.2 next
  | @blank line _ _ blank _ ih =>
      have nothing : Text.trimChars line = [] := by
        have none_ := Text.trimChars_blanks [] blank (List.forall_mem_nil _)
        rw [List.append_nil, List.append_nil] at none_
        exact none_
      rw [List.map_cons, nothing, steps_cons (show reading.step [] = .ok reading from rfl), ih trimmed]
  | @comment lead comment _ _ before _ ih =>
      have around := Text.trimChars_blanks ('#' :: comment) before (List.forall_mem_nil _)
      obtain ⟨others, shown⟩ := Text.exists_trimChars_cons (show Text.isBlank '#' = false from rfl) comment
      rw [List.append_nil, shown] at around
      rw [List.map_cons, around, steps_cons (show reading.step ('#' :: others) = .ok reading from rfl), ih trimmed]

/-- However its lines end, a text is cut into them, maybe with an empty one behind the last. -/
theorem steps_split {lines : List (List Char)} {text : List Char} (ends : Ends lines text) (reading : Reading) :
    reading.steps ((Text.split '\n' text).map Text.trimChars) = reading.steps (lines.map Text.trimChars) := by
  induction ends generalizing reading with
  | ended => rfl
  | last single => rw [Text.split_of_notMem single]
  | @lineFeed line _ _ single _ ih =>
      rw [Text.split_append_mark, Text.split_of_notMem single, List.singleton_append, List.map_cons, List.map_cons,
        steps, steps, List.foldlM_cons, List.foldlM_cons]
      exact bind_congr ih
  | @carriageReturn line _ _ single _ ih =>
      have returned : '\n' ∉ line ++ ['\r'] := by simpa using single
      have blank : ∀ c ∈ ['\r'], Text.isBlank c := List.forall_mem_singleton.2 rfl
      have same : Text.trimChars (line ++ ['\r']) = Text.trimChars line :=
        Text.trimChars_blanks line (List.forall_mem_nil _) blank
      rw [Text.split_append_mark, Text.split_of_notMem returned, List.singleton_append, List.map_cons,
        List.map_cons, same, steps, steps, List.foldlM_cons, List.foldlM_cons]
      exact bind_congr ih

/-! ## Parts -/

theorem step_quoted (done : List (String × Wording)) (current : Option Entry) {text written : List Char}
    (spells : Spells text written) :
    (Reading.mk done current).step (quoted written) = .ok ⟨done, current.map (·.append text)⟩ := by
  have unquoted := unquote_quoted (unescape?_of_spells spells)
  simp only [quoted, List.cons_append] at unquoted ⊢
  simp only [step, after?, isIgnored, unquoted]
  rfl

/-- Lines that go on with a text add it to the entry that is being read. `entryAt` is that entry, as far as it
depends on the text. -/
theorem steps_continues {text : List Char} {lines : List (List Char)} (continues : Continues text lines)
    (done : List (String × Wording)) (entryAt : List Char → Option Entry)
    (appends : ∀ before more, (entryAt before).map (·.append more) = entryAt (before ++ more))
    (before : List Char) :
    (Reading.mk done (entryAt before)).steps lines = .ok ⟨done, entryAt (before ++ text)⟩ := by
  induction continues generalizing before with
  | ended => rw [List.append_nil, steps_nil]
  | @piece text _ rest _ spells _ ih =>
      rw [steps_cons (step_quoted done _ spells), appends, ih, List.append_assoc]

theorem steps_key {text : List Char} {lines : List (List Char)} (lines_ : PartLines .key text lines)
    (reading : Reading) : reading.steps lines = .ok ⟨reading.close, some ⟨text, none, .key⟩⟩ := by
  cases lines_ with
  | keyword spells next =>
      rw [Label.keyword, steps_cons (step_key_quoted reading (unescape?_of_spells spells))]
      exact steps_continues next _ (fun text => some ⟨text, none, .key⟩) (fun _ _ => rfl) _

theorem steps_value {text : List Char} {lines : List (List Char)} (lines_ : PartLines .value text lines)
    (done : List (String × Wording)) (entry : Entry) :
    (Reading.mk done (some entry)).steps lines =
      .ok ⟨done, some { entry with value := some text, field := .value }⟩ := by
  cases lines_ with
  | keyword spells next =>
      rw [Label.keyword, steps_cons (step_value_quoted done entry (unescape?_of_spells spells))]
      exact steps_continues next _ (fun text => some { entry with value := some text, field := .value })
        (fun _ _ => rfl) _

/-- What follows is ignored, whatever it is. -/
def ignoring (reading : Reading) : Reading :=
  { reading with current := reading.current.map fun entry => { entry with field := .ignored } }

theorem close_ignoring (reading : Reading) : reading.ignoring.close = reading.close := by
  cases current : reading.current <;> simp [ignoring, close, current, Entry.toPair?]

theorem step_ignored {label : Label} (other : label ≠ .key ∧ label ≠ .value) (reading : Reading)
    (written : List Char) : reading.step (label.keyword.toList ++ quoted written) = .ok reading.ignoring := by
  cases label with
  | key => exact absurd rfl other.1
  | value => exact absurd rfl other.2
  | context => simp [Label.keyword, step, after?, isIgnored, ignoring]
  | plural => simp [Label.keyword, step, after?, isIgnored, ignoring]
  | form number => simp [Label.keyword, step, after?, isIgnored, ignoring]

theorem steps_ignored {label : Label} (other : label ≠ .key ∧ label ≠ .value) {text : List Char}
    {lines : List (List Char)} (lines_ : PartLines label text lines) (reading : Reading) :
    reading.steps lines = .ok reading.ignoring := by
  cases lines_ with
  | keyword _ next =>
      rw [steps_cons (step_ignored other reading _)]
      refine steps_continues next _ (fun _ => reading.ignoring.current) (fun _ _ => ?_) []
      rw [ignoring, Option.map_map]
      rfl

end Reading

/-! ## Whole messages -/

/-- The wordings among parts. -/
def valuesOf (parts : List Part) : List (List Char) :=
  parts.filterMap fun part => if part.label = .value then some part.text else none

namespace Message

variable {message : Message} {before after : List Part}

theorem ne_key_of_mem_others {part : Part} (member : part ∈ message.others) : part.label ≠ .key := by
  rw [others] at member
  rcases List.mem_append.1 member with context | body
  · obtain ⟨text, -, rfl⟩ := Option.map_eq_some_iff.1 (Option.mem_toList.1 context)
    nofun
  · split at body
    · cases List.mem_singleton.1 body
      nofun
    · rcases List.mem_cons.1 body with rfl | form
      · nofun
      · obtain ⟨form, -, rfl⟩ := List.mem_map.1 form
        nofun

theorem Order.ne_key (order : message.Order before after) {part : Part} (member : part ∈ before ++ after) :
    part.label ≠ .key :=
  ne_key_of_mem_others (order.all.mem_iff.1 member)

/-- Behind the key stands the wording, once, or none if there are plural forms. -/
theorem Order.valuesOf_after (order : message.Order before after) :
    valuesOf after = match message.body with
      | .single value => [value]
      | .plural _ _ => [] := by
  have none_ : valuesOf before = [] :=
    List.filterMap_eq_nil_iff.2 fun part member => if_neg (order.value part member)
  have perm : (valuesOf after).Perm (valuesOf message.others) := by
    have all := order.all.filterMap fun part => if part.label = .value then some part.text else none
    rwa [List.filterMap_append, ← valuesOf, none_] at all
  cases body : message.body with
  | single value =>
      refine List.perm_singleton.1 (perm.trans (.of_eq ?_))
      cases context : message.context <;> simp [valuesOf, others, body, context]
  | plural text forms =>
      refine List.perm_nil.1 (perm.trans (.of_eq ?_))
      cases context : message.context <;> simp [valuesOf, others, body, context, List.filterMap_map]

end Message

theorem PartsLines.of_append {first second : List Part} {lines : List (List Char)}
    (lines_ : PartsLines (first ++ second) lines) :
    ∃ front back, lines = front ++ back ∧ PartsLines first front ∧ PartsLines second back := by
  induction first generalizing lines with
  | nil => exact ⟨[], lines, rfl, .ended, lines_⟩
  | cons part first ih =>
      cases lines_ with
      | @part _ _ _ here more partLines next =>
          obtain ⟨front, back, rfl, before, behind⟩ := ih next
          exact ⟨here ++ front, back, (List.append_assoc ..).symm, .part partLines before, behind⟩

namespace Reading

/-- What stands in front of a key does not touch the entry that is still open. -/
theorem steps_before {parts : List Part} {lines : List (List Char)} (lines_ : PartsLines parts lines)
    (others : ∀ part ∈ parts, part.label ≠ .key ∧ part.label ≠ .value) (reading : Reading) :
    ∃ next, reading.steps lines = .ok next ∧ next.close = reading.close := by
  induction lines_ generalizing reading with
  | ended => exact ⟨reading, rfl, rfl⟩
  | part here _ ih =>
      rw [List.forall_mem_cons] at others
      obtain ⟨next, steps, close⟩ := ih others.2 reading.ignoring
      exact ⟨next, by rw [steps_append (steps_ignored others.1 here reading), steps],
        close.trans reading.close_ignoring⟩

/-- What stands behind a key leaves the last wording, if there is one. -/
theorem steps_after {parts : List Part} {lines : List (List Char)} (lines_ : PartsLines parts lines)
    (others : ∀ part ∈ parts, part.label ≠ .key) (done : List (String × Wording)) (entry : Entry) :
    ∃ field, (Reading.mk done (some entry)).steps lines =
      .ok ⟨done, some ⟨entry.key, (valuesOf parts).getLast?.or entry.value, field⟩⟩ := by
  induction lines_ generalizing entry with
  | ended => exact ⟨entry.field, rfl⟩
  | @part label text parts _ _ here _ ih =>
      rw [List.forall_mem_cons] at others
      by_cases value : label = .value
      -- A further wording takes the place of the one before.
      · obtain ⟨field, steps⟩ := ih others.2 { entry with value := some text, field := .value }
        refine ⟨field, ?_⟩
        rw [steps_append (steps_value (value ▸ here) done entry), steps]
        have values : valuesOf (⟨label, text⟩ :: parts) = text :: valuesOf parts :=
          List.filterMap_cons_some (if_pos value)
        cases last : (valuesOf parts).getLast? <;> simp [values, List.getLast?_cons, last]
      · obtain ⟨field, steps⟩ := ih others.2 { entry with field := .ignored }
        refine ⟨field, ?_⟩
        have values : valuesOf (⟨label, text⟩ :: parts) = valuesOf parts := List.filterMap_cons_none (if_neg value)
        rw [steps_append (steps_ignored ⟨others.1, value⟩ here _), values]
        exact steps

/-- **The lines of a message close the entry before and leave one that holds the message.** -/
theorem steps_message {message : Message} {before after : List Part} {lines : List (List Char)}
    (order : message.Order before after) (lines_ : PartsLines (before ++ ⟨.key, message.key⟩ :: after) lines)
    (reading : Reading) :
    ∃ next, reading.steps lines = .ok next ∧ next.close = message.toPair?.toList ++ reading.close := by
  obtain ⟨front, back, rfl, beforeKey, fromKey⟩ := lines_.of_append
  cases fromKey with
  | @part _ _ _ here more key behindKey =>
      obtain ⟨opening, steps, kept⟩ := steps_before beforeKey
        (fun part member => ⟨order.ne_key (List.mem_append_left _ member), order.value part member⟩) reading
      obtain ⟨field, later⟩ := steps_after behindKey
        (fun part member => order.ne_key (List.mem_append_right _ member)) opening.close ⟨message.key, none, .key⟩
      refine ⟨⟨opening.close, some ⟨message.key, (valuesOf after).getLast?, field⟩⟩, ?_, ?_⟩
      · rw [steps_append steps, steps_append (steps_key key opening), later, Option.or_none]
      · rw [order.valuesOf_after, ← kept]
        cases body : message.body with
        | single value =>
            by_cases empty : value = [] <;>
              simp [Reading.close, Entry.toPair?, Message.toPair?, Message.wording, body, empty,
                Option.filter_some]
        | plural text forms =>
            simp [Reading.close, Entry.toPair?, Message.toPair?, Message.wording, body]

/-- The lines of messages, one message after the other. -/
theorem steps_messages {messages : List Message} {lines : List (List Char)}
    (lines_ : MessagesLines messages lines) (reading : Reading) :
    ∃ next, reading.steps lines = .ok next ∧
      next.close.reverse = reading.close.reverse ++ messages.filterMap Message.toPair? := by
  induction lines_ generalizing reading with
  | ended => exact ⟨reading, rfl, by simp⟩
  | @message message messages _ _ _ _ order here _ ih =>
      obtain ⟨middle, steps, close⟩ := steps_message order here reading
      obtain ⟨next, later, closed⟩ := ih middle
      refine ⟨next, by rw [steps_append steps, later], ?_⟩
      rw [closed, close, List.reverse_append]
      cases pair : message.toPair? <;> simp [pair]

end Reading

/-- **A template reads alike in every layout.**  Any layout of messages is a template, and the table that it
holds is made of the messages that have a key, in their order, each with its whole wording. No context, no plural
form and no comment gets into a key or a wording. -/
theorem parse_of_renders {messages : List Message} {text : String} (renders : Renders messages text.toList) :
    parse text = .ok (KeyTable.ofList (messages.filterMap Message.toPair?)) := by
  obtain ⟨contents, lines, messagesLines, laid, ends⟩ := renders
  obtain ⟨last, steps, closed⟩ := Reading.steps_messages messagesLines ⟨[], none⟩
  have read : (Reading.mk [] none).steps ((Text.split '\n' text.toList).map Text.trimChars) = .ok last := by
    rw [Reading.steps_split ends, Reading.steps_of_laid laid messagesLines.trimmed, steps]
  have nothing : (Reading.mk [] none).close.reverse = [] := rfl
  rw [nothing, List.nil_append] at closed
  rw [parse, Reading.run_of_steps 1 read, ← closed]
  rfl

/-- A message with a context and plural forms. -/
def openMessage : Message := ⟨some "menu".toList, "Open".toList, .plural "all".toList [(0, "x".toList)]⟩

/-- A message with a context. -/
def newMessage : Message := ⟨some "file".toList, "New".toList, .single "Neu".toList⟩

/-- The lines of both, with two texts in two pieces each. -/
def twoMessagesLines : List (List Char) :=
  ["msgctxt \"menu\"".toList, "msgid \"\"".toList, "\"Open\"".toList, "msgid_plural \"all\"".toList,
    "msgstr[0] \"x\"".toList, "msgctxt \"file\"".toList, "msgid \"New\"".toList, "msgstr \"Ne\"".toList,
    "\"u\"".toList]

theorem messagesLines_twoMessages : MessagesLines [openMessage, newMessage] twoMessagesLines := by
  have line (label : Label) (text : List Char) :
      PartLines label (text ++ []) [label.keyword.toList ++ quoted (escape text)] :=
    .keyword (spells_escape text) .ended
  have lines (label : Label) (text more : List Char) :
      PartLines label (text ++ (more ++ []))
        [label.keyword.toList ++ quoted (escape text), quoted (escape more)] :=
    .keyword (spells_escape text) (.piece (spells_escape more) .ended)
  have first : PartsLines _ _ := .part (line .context "menu".toList) (.part (lines .key [] "Open".toList)
    (.part (line .plural "all".toList) (.part (line (.form 0) "x".toList) .ended)))
  have second : PartsLines _ _ := .part (line .context "file".toList) (.part (line .key "New".toList)
    (.part (lines .value "Ne".toList "u".toList) .ended))
  have order : openMessage.Order [⟨.context, "menu".toList⟩] [⟨.plural, "all".toList⟩, ⟨.form 0, "x".toList⟩] :=
    ⟨.refl _, by decide⟩
  have order' : newMessage.Order [⟨.context, "file".toList⟩] [⟨.value, "Neu".toList⟩] := ⟨.refl _, by decide⟩
  exact .message order first (.message order' second .ended)

/-- These lines with comments, blanks and an empty line. -/
def laidOutLines : List (List Char) :=
  ["msgctxt \"menu\"".toList, "msgid \"\"".toList, " # verb".toList, "\t\"Open\"".toList,
    "msgid_plural \"all\"".toList, "msgstr[0] \"x\"".toList, [], "msgctxt \"file\"".toList,
    "msgid \"New\"".toList, "msgstr \"Ne\"".toList, " \"u\"".toList]

/-- The text of them, with both kinds of line ends. -/
def laidOut : String :=
  "msgctxt \"menu\"\nmsgid \"\"\n # verb\n\t\"Open\"\nmsgid_plural \"all\"\nmsgstr[0] \"x\"\n\r\n" ++
    "msgctxt \"file\"\nmsgid \"New\"\r\nmsgstr \"Ne\"\n \"u\""

/-- What the first message says does not get into the second, and the other way round. -/
theorem parse_of_renders_laidOut :
    Renders [openMessage, newMessage] laidOut.toList ∧
      parse laidOut = .ok (KeyTable.ofList [("Open", none), ("New", some "Neu")]) := by
  have none_ : ∀ c ∈ ([] : List Char), Text.isBlank c := List.forall_mem_nil _
  have blank : ∀ c ∈ [' '], Text.isBlank c := List.forall_mem_singleton.2 rfl
  have tab : ∀ c ∈ ['\t'], Text.isBlank c := List.forall_mem_singleton.2 rfl
  have laid : Laid twoMessagesLines laidOutLines := .content none_ none_ (.content none_ none_
    (.comment " verb".toList blank (.content tab none_ (.content none_ none_ (.content none_ none_ (.blank none_
      (.content none_ none_ (.content none_ none_ (.content none_ none_ (.content blank none_ .ended))))))))))
  have single : ∀ line ∈ laidOutLines, '\n' ∉ line := by decide +kernel
  simp only [laidOutLines, List.forall_mem_cons] at single
  obtain ⟨one, two, three, four, five, six, seven, eight, nine, ten, eleven, -⟩ := single
  have ends : Ends laidOutLines _ := .lineFeed one (.lineFeed two (.lineFeed three (.lineFeed four (.lineFeed five
    (.lineFeed six (.carriageReturn seven (.lineFeed eight (.carriageReturn nine (.lineFeed ten
      (.last eleven))))))))))
  have renders : Renders [openMessage, newMessage] laidOut.toList :=
    ⟨_, _, messagesLines_twoMessages, laid, (congrArg (Ends _) (by decide +kernel)).mp ends⟩
  exact ⟨renders, parse_of_renders renders⟩

end MessageKeys.Gettext
