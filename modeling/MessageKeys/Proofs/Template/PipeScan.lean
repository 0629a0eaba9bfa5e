import Mathlib.Data.List.Basic
import MessageKeys.Template.PipeChain
/-!
# Proofs.Template.PipeScan — what the scanner for pipes keeps

Wherever the scanner stands in an expression, its open parts reach from where they start to the end of the
expression, their pipes stand between there and the scanner in order, and the operands found so far are stretches
of the expression (`PipeScan.Placed`). Each step keeps that, so it holds of all that a whole run finds
(`isStretch_of_mem`).
-/
namespace MessageKeys.Template

variable {expression name rest : List Char}

/-- An operand is a stretch of the expression it has been found in. -/
def Operand.IsStretch (expression : List Char) (operand : Operand) : Prop :=
  operand.text <+: expression.drop operand.start

/-- A part that has been read up to `place`, with its pipes in order. -/
structure Part.Placed (expression : List Char) (place : Nat) (part : Part) : Prop where
  text : part.text = expression.drop part.start
  start : part.start ≤ place
  ordered : part.pipes.Pairwise (· < ·)
  pipes : ∀ pipe ∈ part.pipes, part.start ≤ pipe ∧ pipe < place ∧ expression[pipe]? = some '|'

/-- The scanner stands in front of `rest`, and its parts and operands stand where they say. -/
structure PipeScan.Placed (expression rest : List Char) (scan : PipeScan) : Prop where
  ahead : expression.drop scan.place = rest
  inside : scan.place ≤ expression.length
  parts : ∀ part ∈ scan.top :: scan.outer, part.Placed expression scan.place
  found : ∀ operand ∈ scan.found, operand.IsStretch expression ∧ operand.start ≤ expression.length

theorem Part.Placed.later {part : Part} {place later : Nat} (placed : part.Placed expression place)
    (le : place ≤ later) : part.Placed expression later where
  text := placed.text
  start := Nat.le_trans placed.start le
  ordered := placed.ordered
  pipes pipe member := (placed.pipes pipe member).imp_right (.imp_left (Nat.lt_of_lt_of_le · le))

theorem Part.Placed.new {place : Nat} (ahead : expression.drop place = rest) :
    (Part.mk place rest []).Placed expression place :=
  ⟨ahead.symm, Nat.le_refl _, .nil, nofun⟩

/-- What a part hands over is a stretch from where it starts. -/
theorem Part.Placed.operand? {part : Part} {place stop : Nat} {operand : Operand}
    (placed : part.Placed expression place) (handed : part.operand? name stop = some operand) :
    operand.IsStretch expression ∧ operand.start ≤ place := by
  unfold Part.operand? at handed
  split at handed
  · cases handed
  · obtain ⟨-, same⟩ := Option.ite_none_right_eq_some.1 handed
    cases same
    refine ⟨?_, placed.start⟩
    simp only [Operand.IsStretch, Part.slice, Nat.sub_self, List.drop_zero, placed.text]
    exact List.take_prefix ..

namespace PipeScan

variable {scan : PipeScan} {c : Char}

/-! ## Steps -/

theorem Placed.lt (placed : scan.Placed expression (c :: rest)) : scan.place < expression.length := by
  by_contra far
  have ends := placed.ahead
  rw [List.drop_eq_nil_of_le (Nat.not_lt.1 far)] at ends
  cases ends

theorem Placed.skip (placed : scan.Placed expression (c :: rest)) : (scan.skip 1).Placed expression rest where
  ahead := by rw [PipeScan.skip, ← List.tail_drop, placed.ahead, List.tail_cons]
  inside := placed.lt
  parts part member := (placed.parts part member).later (Nat.le_succ _)
  found := placed.found

theorem Placed.enter (placed : scan.Placed expression (c :: rest)) : (scan.enter rest).Placed expression rest where
  ahead := placed.skip.ahead
  inside := placed.lt
  parts := List.forall_mem_cons.2 ⟨.new placed.skip.ahead, placed.skip.parts⟩
  found := placed.found

/-- The part that ends here adds a stretch, if anything. -/
theorem Placed.found_append (placed : scan.Placed expression rest) :
    ∀ operand ∈ scan.found ++ (scan.top.operand? name scan.place).toList,
      operand.IsStretch expression ∧ operand.start ≤ expression.length := by
  intro operand member
  rcases List.mem_append.1 member with before | handed
  · exact placed.found operand before
  · have top := placed.parts _ List.mem_cons_self
    exact (top.operand? (Option.mem_toList.1 handed)).imp_right (Nat.le_trans · placed.inside)

theorem Placed.leave (placed : scan.Placed expression (c :: rest)) : (scan.leave name).Placed expression rest := by
  unfold PipeScan.leave
  split
  · exact placed.skip
  · rename_i next outer left
    refine ⟨placed.skip.ahead, placed.lt, fun part member => placed.skip.parts part ?_, placed.found_append⟩
    rw [PipeScan.skip, left]
    exact List.mem_cons_of_mem _ member

theorem Placed.cut (placed : scan.Placed expression (c :: rest)) :
    (scan.cut name rest).Placed expression rest where
  ahead := placed.skip.ahead
  inside := placed.lt
  parts := List.forall_mem_cons.2 ⟨.new placed.skip.ahead, fun part member =>
    placed.skip.parts part (List.mem_cons_of_mem _ member)⟩
  found := placed.found_append

theorem Placed.pipe (placed : scan.Placed expression ('|' :: rest)) : scan.pipe.Placed expression rest where
  ahead := placed.skip.ahead
  inside := placed.lt
  parts := by
    obtain ⟨top, outer⟩ := List.forall_mem_cons.1 placed.parts
    refine List.forall_mem_cons.2 ⟨⟨top.text, Nat.le_succ_of_le top.start, ?_, ?_⟩, fun part member =>
      (outer part member).later (Nat.le_succ _)⟩
    · refine List.pairwise_append.2 ⟨top.ordered, List.pairwise_singleton .., fun pipe member last isLast => ?_⟩
      rw [List.mem_singleton.1 isLast]
      exact (top.pipes pipe member).2.1
    · intro pipe member
      rcases List.mem_append.1 member with before | last
      · exact (top.pipes pipe before).imp_right (.imp_left Nat.lt_succ_of_lt)
      · rw [List.mem_singleton.1 last]
        refine ⟨top.start, Nat.lt_succ_self _, ?_⟩
        rw [← List.head?_drop, placed.ahead, List.head?_cons]
  found := placed.found

/-! ## Whole runs -/

theorem Placed.start (expression : List Char) : (PipeScan.start expression).Placed expression expression where
  ahead := rfl
  inside := Nat.zero_le _
  parts := List.forall_mem_singleton.2 (.new rfl)
  found := nofun

theorem Placed.finish (placed : scan.Placed expression rest) :
    ∀ operand ∈ scan.finish name, operand.IsStretch expression ∧ operand.start ≤ expression.length := by
  intro operand member
  rcases List.mem_append.1 member with before | handed
  · exact placed.found operand before
  · obtain ⟨part, listed, handed⟩ := List.mem_filterMap.1 handed
    exact ((placed.parts part listed).operand? handed).imp_right (Nat.le_trans · placed.inside)

theorem Placed.run (quote : Option Char) (placed : scan.Placed expression rest) :
    ∀ operand ∈ scan.run name quote rest, operand.IsStretch expression ∧ operand.start ≤ expression.length := by
  fun_induction PipeScan.run name quote scan rest with
  | case1 => exact placed.finish
  | case2 _ _ _ _ ih | case5 _ _ _ _ _ ih | case6 _ _ _ _ _ _ ih | case7 _ _ _ _ _ _ ih
  | case12 _ _ _ _ _ _ _ _ _ _ ih => exact ih placed.skip
  | case3 _ _ _ _ ih | case4 _ _ _ _ _ ih => exact ih placed.skip.skip
  | case8 _ _ _ _ _ _ _ ih => exact ih placed.enter
  | case9 _ _ _ _ _ _ _ _ ih => exact ih placed.leave
  | case10 _ _ _ _ _ _ _ _ _ ih => exact ih placed.cut
  | case11 _ _ _ _ _ _ _ _ _ bar ih =>
      obtain rfl := by simpa using bar
      exact ih placed.pipe

end PipeScan

/-- What the pipe is handed stands in the expression where it says. -/
theorem isStretch_of_mem {operand : Operand} (member : operand ∈ pipedOperands expression name) :
    operand.IsStretch expression :=
  ((PipeScan.Placed.start expression).run none operand (List.mem_mergeSort.1 member)).1

theorem Operand.IsStretch.split {operand : Operand} (stretch : operand.IsStretch expression) :
    ∃ behind, expression = expression.take operand.start ++ (operand.text ++ behind) := by
  obtain ⟨behind, spelled⟩ := stretch
  exact ⟨behind, by rw [spelled, List.take_append_drop]⟩

end MessageKeys.Template
