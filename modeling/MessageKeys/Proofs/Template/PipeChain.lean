import Mathlib.Data.List.Sort
import MessageKeys.Proofs.Template.PipeGrammar
/-!
# Proofs.Template.PipeChain — the scanner follows the grammar

`pipedOperands` goes through an expression once, with a stack of the parts that are open. Whatever stands in
a group, it finds there what the parts of the group hand to the pipe, and comes out of the group with the
stack it went in with (`PipeScan.Follows`, with one lemma for each way to read on; `follows_of_reads`, by
induction on how the group is read). It finds an operand when its part ends and not when it starts, so up to
there the order is lost; the last sort restores it (`pipedOperands_of_group`).
-/
namespace MessageKeys.Template
open Text (join)

/-! ## The texts of a part -/

/-- The characters at which the pipes of a part stand that starts at this one. -/
def pipePlaces (start : Nat) : List (List Char) → List Nat
  | first :: next :: more =>
    (start + first.length) :: pipePlaces (start + first.length + 1) (next :: more)
  | _ => []

theorem join_inFront (text : List Char) {texts : List (List Char)} (some_ : texts ≠ []) :
    join '|' (Group.inFront text texts) = text ++ join '|' texts := by
  obtain ⟨first, more, rfl⟩ := List.exists_cons_of_ne_nil some_
  cases more <;> simp [Group.inFront, join]

theorem pipePlaces_inFront (text : List Char) {texts : List (List Char)} (some_ : texts ≠ [])
    (place : Nat) : pipePlaces place (Group.inFront text texts) = pipePlaces (place + text.length) texts := by
  obtain ⟨first, more, rfl⟩ := List.exists_cons_of_ne_nil some_
  cases more <;> simp [Group.inFront, pipePlaces, Nat.add_assoc]

theorem join_empty_cons {texts : List (List Char)} (some_ : texts ≠ []) :
    join '|' ([] :: texts) = '|' :: join '|' texts := by
  obtain ⟨first, more, rfl⟩ := List.exists_cons_of_ne_nil some_
  rfl

theorem pipePlaces_empty_cons {texts : List (List Char)} (some_ : texts ≠ []) (place : Nat) :
    pipePlaces place ([] :: texts) = place :: pipePlaces (place + 1) texts := by
  obtain ⟨first, more, rfl⟩ := List.exists_cons_of_ne_nil some_
  rfl

/-- A group begins with its first part. -/
theorem Group.exists_text_eq (group : Group) : ∃ behind, group.text = join '|' group.texts ++ behind := by
  induction group with
  | done => exact ⟨[], rfl⟩
  | separator mark rest => exact ⟨mark :: rest.text, rfl⟩
  | plain text rest ih =>
      obtain ⟨behind, same⟩ := ih
      exact ⟨behind, by rw [Group.text, texts, join_inFront _ rest.texts_ne_nil, same, List.append_assoc]⟩
  | pipe rest ih =>
      obtain ⟨behind, same⟩ := ih
      exact ⟨behind, by rw [Group.text, texts, join_empty_cons rest.texts_ne_nil, same, List.cons_append]⟩
  | bracketed opening inside closing rest within ih =>
      obtain ⟨behind, same⟩ := ih
      exact ⟨behind, by rw [Group.text, texts, join_inFront _ rest.texts_ne_nil, same, ← List.append_assoc]⟩

namespace Part

variable {name : List Char}

theorem slice_append (start : Nat) (front body behind : List Char) (pipes : List Nat) :
    (Part.mk start (front ++ (body ++ behind)) pipes).slice (start + front.length)
      (start + front.length + body.length) = body := by
  have skipped : start + front.length - start = front.length := by omega
  have width : start + front.length + body.length - (start + front.length) = body.length := by omega
  rw [slice, skipped, width, List.drop_left, List.take_left]

/-- A part whose pipes are known from its texts hands on what the texts say. -/
theorem operand?_of_texts (start : Nat) {texts : List (List Char)} (some_ : texts ≠ []) (behind : List Char) :
    (Part.mk start (join '|' texts ++ behind) (pipePlaces start texts)).operand? name
        (start + (join '|' texts).length) =
      PartTexts.operand? name ⟨start, texts⟩ := by
  match texts, some_ with
  | [only], _ => rfl
  | first :: second :: more, _ =>
      obtain ⟨later, begins⟩ : ∃ later, join '|' (second :: more) = second ++ later := by
        cases more with
        | nil => exact ⟨[], (List.append_nil second).symm⟩
        | cons third more => exact ⟨_, rfl⟩
      have text : join '|' (first :: second :: more) ++ behind =
          first ++ '|' :: (second ++ (later ++ behind)) := by
        simp [join, begins]
      have past : (pipePlaces (start + first.length + 1) (second :: more)).head?.getD
          (start + (join '|' (first :: second :: more)).length) =
            start + first.length + 1 + second.length := by
        cases more with
        | nil => simp [pipePlaces, join]; omega
        | cons third more => rfl
      have pipes : pipePlaces start (first :: second :: more) =
          (start + first.length) :: pipePlaces (start + first.length + 1) (second :: more) := rfl
      rw [text, pipes]
      generalize pipePlaces (start + first.length + 1) (second :: more) = others at past ⊢
      have handed := slice_append start [] first ('|' :: (second ++ (later ++ behind)))
      have called := slice_append start (first ++ ['|']) second (later ++ behind)
      simp only [List.length_append, List.length_cons, List.length_nil, List.append_assoc,
        List.nil_append, List.cons_append, Nat.add_zero, Nat.zero_add, ← Nat.add_assoc] at handed called
      simp only [operand?, past, pipeName, called, handed, PartTexts.operand?, beq_iff_eq]

/-- What a part hands to the pipe that is open in front of a group. It has the pipes of the group's first
part besides its own, and ends with it. -/
def operandThrough? (name : List Char) (part : Part) (place : Nat) (group : Group) : Option Operand :=
  ({ part with pipes := part.pipes ++ pipePlaces place group.texts } : Part).operand? name
    (place + (join '|' group.texts).length)

variable (part : Part) (place : Nat) {group : Group}

theorem operandThrough?_inFront {text : List Char} {longer : Group}
    (same : longer.texts = Group.inFront text group.texts) :
    part.operandThrough? name place longer = part.operandThrough? name (place + text.length) group := by
  rw [operandThrough?, operandThrough?, same, pipePlaces_inFront _ group.texts_ne_nil,
    join_inFront _ group.texts_ne_nil, List.length_append, Nat.add_assoc]

theorem operandThrough?_pipe :
    part.operandThrough? name place (.pipe group) =
      ({ part with pipes := part.pipes ++ [place] } : Part).operandThrough? name (place + 1) group := by
  simp only [operandThrough?, Group.texts, pipePlaces_empty_cons group.texts_ne_nil,
    join_empty_cons group.texts_ne_nil, List.append_assoc, List.singleton_append, List.length_cons]
  rw [Nat.add_assoc, Nat.add_comm 1]

/-- A group that begins with the end of its first part. -/
theorem operandThrough?_ends (ends : group.texts = [[]]) :
    part.operandThrough? name place group = part.operand? name place := by
  simp [operandThrough?, ends, pipePlaces, join]

/-- A part that has just been opened in front of a group. -/
theorem operandThrough?_fresh {source rest : List Char} (spelled : source = group.text ++ rest) :
    (Part.mk place source []).operandThrough? name place group =
      PartTexts.operand? name ⟨place, group.texts⟩ := by
  obtain ⟨behind, begins⟩ := group.exists_text_eq
  rw [begins, List.append_assoc] at spelled
  rw [spelled]
  exact operand?_of_texts place group.texts_ne_nil (behind ++ rest)

end Part

/-! ## One step of the scanner -/

theorem Role.of_eq (c : Char) :
    Role.of c =
      if c == '\'' || c == '"' || c == '\x60' then .quote
      else if c == '(' || c == '[' || c == '{' then .opening
      else if c == ')' || c == ']' || c == '}' then .closing
      else if c == ',' || c == ';' then .separator
      else if c == '|' then .pipe
      else .other := by
  unfold Role.of
  split <;> simp_all

namespace PipeScan

variable (name : List Char)

theorem skip_skip (scan : PipeScan) (first second : Nat) :
    (scan.skip first).skip second = scan.skip (first + second) := by
  simp [skip, Nat.add_assoc]

/-- What a character outside quotes does. -/
theorem run_cons (scan : PipeScan) (c : Char) (rest : List Char) :
    scan.run name none (c :: rest) =
      match Role.of c with
      | .quote => (scan.skip 1).run name (some c) rest
      | .opening => (scan.enter rest).run name none rest
      | .closing => (scan.leave name).run name none rest
      | .separator => (scan.cut name rest).run name none rest
      | .pipe =>
        if rest.head? = some '|' then (scan.skip 2).run name none rest.tail
        else scan.pipe.run name none rest
      | .other => (scan.skip 1).run name none rest := by
  rw [run.eq_def]
  split
  · simp_all
  · rename_i same
    cases same
    rfl
  · rename_i same
    cases same
    rfl
  · rename_i single _ same
    cases same
    have apart : c = '|' → rest.head? ≠ some '|' := by
      intro bar double
      obtain ⟨after, rfl⟩ := List.head?_eq_some_iff.1 double
      exact single after bar rfl
    rw [Role.of_eq]
    split_ifs <;> simp_all

/-- What stands in quotes is passed over. -/
theorem run_quoted (scan : PipeScan) {mark : Char} (role : Role.of mark = .quote) (text : List Char) :
    scan.run name (some mark) text =
      (scan.skip (quotedRun mark text).1.length).run name none (quotedRun mark text).2 := by
  have unescaped : mark ≠ '\\' := by
    rintro rfl
    cases role
  have noPipe : mark ≠ '|' := by
    rintro rfl
    cases role
  fun_induction quotedRun mark text generalizing scan with
  | case1 => rfl
  | case2 c rest ih =>
      have step : scan.run name (some mark) ('\\' :: c :: rest) =
          (scan.skip 2).run name (some mark) rest := rfl
      rw [step, ih, skip_skip, List.length_cons, List.length_cons, Nat.add_comm]
  | case3 c rest plain closed =>
      rw [run.eq_def]
      split <;> simp_all
  | case4 c rest plain open_ ih =>
      have step : scan.run name (some mark) (c :: rest) = (scan.skip 1).run name (some mark) rest := by
        rw [run.eq_def]
        split <;> simp_all
      rw [step, ih, skip_skip, List.length_cons, Nat.add_comm]

end PipeScan

/-! ## A group -/

section Groups

variable (name : List Char)

/-- What the parts of a group hand to the pipe, `top` being the part that is open in front of it. -/
def handed (top : Part) (place : Nat) (group : Group) : List Operand :=
  (top.operandThrough? name place group).toList ++ (group.laterParts place).filterMap (·.operand? name)

variable (top : Part) (place : Nat) (group : Group)

theorem handed_done : handed name top place .done = (top.operand? name place).toList := by
  rw [handed, top.operandThrough?_ends place rfl]
  exact List.append_nil _

theorem handed_plain (text : List Char) :
    handed name top place (.plain text group) = handed name top (place + text.length) group := by
  rw [handed, top.operandThrough?_inFront place rfl]
  rfl

theorem handed_pipe :
    handed name top place (.pipe group) =
      handed name { top with pipes := top.pipes ++ [place] } (place + 1) group := by
  rw [handed, Part.operandThrough?_pipe]
  rfl

/-- A part that has just been opened is the first one of its group. -/
theorem handed_fresh {source rest : List Char} (spelled : source = group.text ++ rest) :
    handed name ⟨place, source, []⟩ place group =
      (⟨place, group.texts⟩ :: group.laterParts place : List PartTexts).filterMap (·.operand? name) := by
  rw [handed, Part.operandThrough?_fresh place spelled, List.filterMap_cons]
  cases PartTexts.operand? name ⟨place, group.texts⟩ <;> rfl

theorem handed_separator (mark : Char) {source rest : List Char} (spelled : source = group.text ++ rest) :
    handed name top place (.separator mark group) =
      (top.operand? name place).toList ++ handed name ⟨place + 1, source, []⟩ (place + 1) group := by
  rw [handed_fresh name _ _ spelled, handed, top.operandThrough?_ends place rfl]
  rfl

theorem handed_bracketed (opening : Char) (closing : Option Char) (inside : Group)
    {source rest : List Char} (spelled : source = inside.text ++ rest) :
    (handed name top place (.bracketed opening inside closing group)).Perm
      (handed name ⟨place + 1, source, []⟩ (place + 1) inside ++
        handed name top (place + 1 + inside.text.length + closing.toList.length) group) := by
  have width : place + (opening :: inside.text ++ closing.toList).length =
      place + 1 + inside.text.length + closing.toList.length := by
    simp only [List.length_append, List.length_cons]
    omega
  rw [handed_fresh name _ _ spelled, handed, top.operandThrough?_inFront place rfl, width,
    Group.laterParts, List.filterMap_append]
  exact List.perm_append_comm_assoc ..

end Groups

namespace PipeScan

/-- What the scanner goes on to once a group has ended at this character: the group around it, or the end of
all the groups that are still open. -/
def beyond (name : List Char) (place : Nat) (outer : List Part) (found : List Operand) :
    List Char → List Operand
  | [] => found ++ outer.filterMap fun part => part.operand? name place
  | _ :: after =>
    match outer with
    | [] => found
    | next :: outer => (PipeScan.mk (place + 1) next outer found).run name none after

/-- The scanner follows a group that stands in this text in front of `rest`: it finds there what the parts of the
group hand to the pipe, the part that is open when the group begins included, and goes on with the groups around
it as they were. -/
def Follows (name : List Char) (nested : Bool) (text : List Char) (group : Group) (rest : List Char) : Prop :=
  ∀ (place : Nat) (top : Part) (outer : List Part) (found : List Operand), nested = !outer.isEmpty →
    ∃ finds, finds.Perm (handed name top place group) ∧
      (PipeScan.mk place top outer found).run name none text =
        beyond name (place + group.text.length) outer (found ++ finds) rest

namespace Follows

variable {name text onward rest : List Char} {nested : Bool} {group : Group}

theorem ended : Follows name nested [] .done [] := by
  intro place top outer found _
  refine ⟨_, List.Perm.of_eq (handed_done name top place).symm, ?_⟩
  rw [run, finish, beyond, List.filterMap_cons]
  cases top.operand? name place <;> simp [Group.text]

theorem closed {mark : Char} (role : Role.of mark = .closing) :
    Follows name true (mark :: text) .done (mark :: text) := by
  intro place top outer found inside
  refine ⟨_, List.Perm.of_eq (handed_done name top place).symm, ?_⟩
  cases outer with
  | nil => cases inside
  | cons next outer => rw [run_cons, role]; rfl

/-- A stretch that the scanner only passes over. -/
theorem plain (stretch : List Char)
    (passes : ∀ scan : PipeScan, nested = !scan.outer.isEmpty →
      scan.run name none text = (scan.skip stretch.length).run name none onward)
    (next : Follows name nested onward group rest) : Follows name nested text (.plain stretch group) rest := by
  intro place top outer found inside
  obtain ⟨finds, perm, ran⟩ := next (place + stretch.length) top outer found inside
  refine ⟨finds, (handed_plain name top place group stretch).symm ▸ perm, ?_⟩
  rw [passes _ inside, Group.text, List.length_append, ← Nat.add_assoc]
  exact ran

theorem pipe (single : text.head? ≠ some '|') (next : Follows name nested text group rest) :
    Follows name nested ('|' :: text) (.pipe group) rest := by
  intro place top outer found inside
  obtain ⟨finds, perm, ran⟩ := next (place + 1) { top with pipes := top.pipes ++ [place] } outer found inside
  refine ⟨finds, (handed_pipe name top place group).symm ▸ perm, ?_⟩
  rw [run_cons, Group.text, List.length_cons, Nat.add_comm _ 1, ← Nat.add_assoc]
  exact (if_neg single).trans ran

theorem separator {mark : Char} (role : Role.of mark = .separator) (spelled : text = group.text ++ rest)
    (next : Follows name nested text group rest) :
    Follows name nested (mark :: text) (.separator mark group) rest := by
  intro place top outer found inside
  obtain ⟨finds, perm, ran⟩ := next (place + 1) ⟨place + 1, text, []⟩ outer
    (found ++ (top.operand? name place).toList) inside
  refine ⟨(top.operand? name place).toList ++ finds, ?_, ?_⟩
  · rw [handed_separator name top place group mark spelled]
    exact perm.append_left _
  · rw [run_cons, role, ← List.append_assoc, Group.text, List.length_cons, Nat.add_comm _ 1, ← Nat.add_assoc]
    exact ran

/-- A group in brackets is followed with the part around it put aside, and then what stands behind it. -/
theorem bracketed {opening closing : Char} {after : List Char} {content : Group}
    (role : Role.of opening = .opening) (spelled : text = content.text ++ closing :: after)
    (inner : Follows name true text content (closing :: after)) (next : Follows name nested after group rest) :
    Follows name nested (opening :: text) (.bracketed opening content (some closing) group) rest := by
  intro place top outer found inside
  obtain ⟨finds, perm, ran⟩ := inner (place + 1) ⟨place + 1, text, []⟩ (top :: outer) found rfl
  obtain ⟨others, perm', ran'⟩ :=
    next (place + 1 + content.text.length + 1) top outer (found ++ finds) inside
  refine ⟨finds ++ others, ?_, ?_⟩
  · exact (perm.append perm').trans
      (handed_bracketed name top place group opening (some closing) content spelled).symm
  · rw [run_cons, role]
    refine ran.trans (ran'.trans ?_)
    rw [← List.append_assoc, Group.text]
    simp only [List.length_append, List.length_cons, Option.toList_some, List.length_nil]
    congr 1
    omega

/-- Where the text ends inside a group, the part around it ends there as well. -/
theorem unclosed {opening : Char} {content : Group} (role : Role.of opening = .opening)
    (spelled : text = content.text ++ []) (inner : Follows name true text content []) :
    Follows name nested (opening :: text) (.bracketed opening content none .done) [] := by
  intro place top outer found _
  obtain ⟨finds, perm, ran⟩ := inner (place + 1) ⟨place + 1, text, []⟩ (top :: outer) found rfl
  have width : place + (opening :: content.text ++ [] ++ Group.done.text).length =
      place + 1 + content.text.length := by
    simp only [List.length_append, List.length_cons, List.length_nil, Group.text]
    omega
  refine ⟨finds ++ (top.operand? name (place + 1 + content.text.length)).toList, ?_, ?_⟩
  · have all := handed_bracketed name top place .done opening none content spelled
    rw [handed_done] at all
    exact (perm.append_right _).trans all.symm
  · rw [run_cons, role]
    refine ran.trans ?_
    rw [beyond, beyond, List.filterMap_cons, Group.text, Option.toList_none, width]
    cases top.operand? name (place + 1 + content.text.length) <;> simp

end Follows

/-- **The scanner follows the grammar**, whichever group a text begins with. -/
theorem follows_of_reads (name : List Char) {nested : Bool} {text rest : List Char} {group : Group}
    (reads : Reads nested text group rest) : Follows name nested text group rest := by
  induction reads with
  | ended => exact .ended
  | closed role => exact .closed role
  | @unopened mark text rest group role next ih =>
      -- With nothing open, the scanner has nothing to leave.
      refine ih.plain [mark] fun scan inside => ?_
      have outermost : scan.outer = [] := by simpa using inside
      rw [run_cons, role]
      simp only [leave, outermost, List.length_singleton]
  | @quoted nested mark text rest group role next ih =>
      refine ih.plain _ fun scan _ => ?_
      rw [run_cons, role, List.length_cons, Nat.add_comm, ← skip_skip]
      exact run_quoted name _ role text
  | double next ih => exact ih.plain ['|', '|'] fun _ _ => rfl
  | pipe single next ih => exact ih.pipe single
  | separator role next ih => exact ih.separator role next.text
  | bracketed role within next inner ih => exact inner.bracketed role within.text ih
  | unclosed role within inner => exact inner.unclosed role within.text
  | @other nested c text rest group role next ih =>
      refine ih.plain [c] fun scan _ => ?_
      rw [run_cons, role]
      rfl

end PipeScan

/-! ## The whole expression -/

theorem mergeSort_eq_of_perm {found expected : List Operand} (same : found.Perm expected)
    (ordered : expected.Pairwise (·.start < ·.start)) :
    found.mergeSort (fun a b => a.start ≤ b.start) = expected := by
  have sorted : expected.Pairwise fun a b => decide (a.start ≤ b.start) = true :=
    ordered.imp fun less => by simpa using Nat.le_of_lt less
  have sorts : (found.mergeSort fun a b => a.start ≤ b.start).Pairwise
      fun a b => decide (a.start ≤ b.start) = true := by
    refine List.pairwise_mergeSort (fun _ _ _ first second => ?_) (fun _ _ => ?_) found
    · simp only [decide_eq_true_eq] at first second ⊢
      omega
    · simp only [Bool.or_eq_true, decide_eq_true_eq]
      omega
  have distinct : (expected.map (·.start)).Nodup := List.pairwise_map.2 (ordered.imp Nat.ne_of_lt)
  refine ((List.mergeSort_perm _ _).trans same).eq_of_pairwise ?_ sorts sorted
  intro a b listed listed' first second
  simp only [decide_eq_true_eq] at first second
  have member := same.mem_iff.1 (List.mem_mergeSort.1 listed)
  exact List.inj_on_of_nodup_map distinct member listed' (Nat.le_antisymm first second)

/-- **The operands of a pipe are those of the grammar.**  Every expression is one group in exactly one way.
The operands are what the parts of this group at any depth hand to the pipe, in the order in which the parts
start, and no two of them start together. -/
theorem pipedOperands_of_group (expression name : List Char) :
    ∃ group : Group,
      (∀ other rest, Reads false expression other rest ↔ other = group ∧ rest = []) ∧
      group.text = expression ∧
      pipedOperands expression name = group.operands name ∧
      (pipedOperands expression name).Pairwise (·.start < ·.start) := by
  obtain ⟨group, rest, reads⟩ := exists_reads false expression
  obtain rfl : rest = [] := reads.rest_cases.resolve_right fun inside => by cases inside.1
  have spelled := reads.text
  obtain ⟨finds, perm, ran⟩ :=
    PipeScan.follows_of_reads name reads 0 ⟨0, expression, []⟩ [] [] rfl
  rw [handed_fresh name 0 group spelled] at perm
  have found : (PipeScan.start expression).run name none expression = finds := by
    refine ran.trans ?_
    simp [PipeScan.beyond]
  have same : pipedOperands expression name = group.operands name := by
    rw [pipedOperands, found]
    exact mergeSort_eq_of_perm perm (group.pairwise_operands name)
  refine ⟨group, fun other rest => ⟨fun read => read.unique reads, ?_⟩, ?_, same, ?_⟩
  · rintro ⟨rfl, rfl⟩
    exact reads
  · rw [spelled, List.append_nil]
  · rw [same]
    exact group.pairwise_operands name

end MessageKeys.Template
