import MessageKeys.Proofs.Template.Interpolation
import MessageKeys.Proofs.Template.Literals
import MessageKeys.Proofs.Template.PipeScan
import MessageKeys.Template.Layout
/-!
# Proofs.Template.Skipped — comments inside interpolations

No interpolation opens in a range that is skipped, but one that has opened in front of such a range reads on
through it. So a body shares bytes with a comment or a script only if that begins behind the first brace of the
interpolation, and then it does share them (`skipped_of_interpolation`). What the pipe finds in a body are
stretches of it, so the same holds of every operand and with it of every key.
-/
namespace MessageKeys.Template

/-! ## Bodies and skipped ranges -/

/-- The two ranges share a byte. -/
def Range.Overlaps (one other : Range) : Prop := ∃ offset, one.holds offset ∧ other.holds offset

theorem Range.overlaps_iff (one other : Range) :
    one.Overlaps other ↔ max one.start other.start < min one.stop other.stop := by
  simp only [Overlaps, holds, Bool.and_eq_true, decide_eq_true_eq]
  constructor
  · rintro ⟨offset, inside, within⟩
    omega
  · intro room
    exact ⟨max one.start other.start, by omega, by omega⟩

/-- The bytes of the body of an interpolation. -/
def Located.body (item : Located) : Range := ⟨item.offset, item.offset + item.text.utf8ByteSize⟩

/-- The bytes that an operand takes up in the template. -/
def Located.operand (item : Located) (operand : Operand) : Range :=
  let first := item.offset + byteCount (item.text.toList.take operand.start)
  ⟨first, first + byteCount operand.text⟩

/-- An operand lies in the body it has been found in. -/
theorem Located.operand_within {item : Located} {name : List Char} {operand : Operand}
    (member : operand ∈ pipedOperands item.text.toList name) :
    item.body.start ≤ (item.operand operand).start ∧ (item.operand operand).stop ≤ item.body.stop := by
  obtain ⟨behind, spelled⟩ := (isStretch_of_mem member).split
  have bytes := congrArg byteCount spelled
  rw [byteCount_append, byteCount_append, ← utf8ByteSize_ofList item.text.toList, String.ofList_toList] at bytes
  simp only [body, Located.operand]
  omega

/-- What lies behind a byte that a range does not hold shares bytes with it only from where the range begins. -/
theorem Range.begins_of_overlaps {part range : Range} {offset : Nat} (free : ¬ range.holds offset)
    (behind : offset < part.start) (overlaps : part.Overlaps range) :
    offset < range.start ∧ range.start < part.stop := by
  rw [overlaps_iff] at overlaps
  simp only [holds, Bool.and_eq_true, decide_eq_true_eq] at free
  omega

/-- **Comments and scripts are read if they begin inside an interpolation.**  No interpolation opens in a
skipped range. Its body shares a byte with one only if the range begins behind the first brace of the
interpolation and in front of the body's end, and a range that begins in the body does share its first byte. The
same holds of every operand that the pipe is handed from the body. -/
theorem skipped_of_interpolation {skipped : List Range} {template : List Char} {item : Located} {range : Range}
    (found : item ∈ interpolations skipped template) (listed : range ∈ skipped) :
    ¬ range.holds item.span.start ∧
      (item.body.Overlaps range → item.span.start < range.start ∧ range.start < item.body.stop) ∧
      (item.body.holds range.start → range.start < range.stop → item.body.Overlaps range) ∧
      ∀ name, ∀ operand ∈ pipedOperands item.text.toList name,
        ((item.operand operand).Overlaps range →
          item.span.start < range.start ∧ range.start < (item.operand operand).stop) ∧
        ((item.operand operand).holds range.start → range.start < range.stop →
          (item.operand operand).Overlaps range) := by
  have exact_ : Exact skipped template 0 (interpolations skipped template) :=
    exact_seek [] template 0 rfl .refl
  obtain ⟨before, rest, inside, later, -, unskipped, -, rfl⟩ := exact_.sound item found
  have free : ¬ range.holds (byteCount before) := unskipped range listed
  have nonempty : ∀ {part : Range}, part.holds range.start → range.start < range.stop → part.Overlaps range :=
    fun {part} starts some_ => ⟨range.start, starts, by simpa [Range.holds] using some_⟩
  have opening : (Located.span ⟨byteCount before + 2, String.ofList inside⟩).start = byteCount before := by
    rw [span_interpolation]
  rw [opening]
  refine ⟨free, Range.begins_of_overlaps free (by simp [Located.body]), nonempty, ?_⟩
  intro name operand member
  have within := (Located.operand_within member).1
  exact ⟨Range.begins_of_overlaps free (by simp only [Located.body] at within; omega), nonempty⟩

/-- `\x7b\x7ba<!--|t;b|u;-->\x7d\x7d` -/
def commentInside : List Char := "\x7b\x7ba<!--|t;b|u;-->\x7d\x7d".toList

/-- The body of the interpolation that `commentInside` is. -/
def bodyOfComment : Located := ⟨2, "a<!--|t;b|u;-->"⟩

/-- The comment begins in the body and in the operand of one pipe; the operand of the other stands in it. -/
theorem skipped_of_interpolation_comment :
    (Layout.ofTree (Markup.Growth.treeOf commentInside)).skipped = [⟨3, 17⟩] ∧
      bodyOfComment.body.Overlaps ⟨3, 17⟩ ∧ bodyOfComment.span.start < 3 ∧
      pipedOperands bodyOfComment.text.toList ['t'] = [⟨0, "a<!--".toList⟩] ∧
      (bodyOfComment.operand ⟨0, "a<!--".toList⟩).Overlaps ⟨3, 17⟩ ∧
      pipedOperands bodyOfComment.text.toList ['u'] = [⟨8, ['b']⟩] ∧
      3 < (bodyOfComment.operand ⟨8, ['b']⟩).stop := by
  have found : bodyOfComment ∈ interpolations [⟨3, 17⟩] commentInside := by decide +kernel
  obtain ⟨-, begins, shared, handed⟩ := skipped_of_interpolation found (List.mem_singleton_self _)
  have overlaps := shared (by decide +kernel) (by decide)
  have across : pipedOperands bodyOfComment.text.toList ['t'] = [⟨0, "a<!--".toList⟩] := by decide +kernel
  have within : pipedOperands bodyOfComment.text.toList ['u'] = [⟨8, ['b']⟩] := by decide +kernel
  have first := (handed ['t'] ⟨0, "a<!--".toList⟩ (by simp [across])).2 (by decide +kernel) (by decide)
  have inside : (bodyOfComment.operand ⟨8, ['b']⟩).Overlaps ⟨3, 17⟩ := ⟨10, by decide +kernel, by decide⟩
  have second := (handed ['u'] ⟨8, ['b']⟩ (by simp [within])).1 inside
  exact ⟨by decide +kernel, overlaps, (begins overlaps).1, across, first, within, second.2⟩

/-- `\x7b\x7b;<!--;'K'|t;-->\x7d\x7d` -/
def pipeInComment : List Char := "\x7b\x7b;<!--;'K'|t;-->\x7d\x7d".toList

/-- Where a literal in a comment is handed to the pipe, the comment gives a key. -/
theorem key_in_comment :
    ∃ item ∈ interpolations (Layout.ofTree (Markup.Growth.treeOf pipeInComment)).skipped pipeInComment,
      ∃ range ∈ (Layout.ofTree (Markup.Growth.treeOf pipeInComment)).skipped,
        item.body.Overlaps range ∧ Strategy.pipeKeys "t" item.text = ["K"] := by
  have skipped : (Layout.ofTree (Markup.Growth.treeOf pipeInComment)).skipped = [⟨3, 17⟩] := by decide +kernel
  have operands : pipedOperands ";<!--;'K'|t;-->".toList "t".toList = [⟨6, "'K'".toList⟩] := by decide +kernel
  have cooks : Script.cook false .plain ['K'] = .ok [75] := by
    simp [Script.cook, Script.cook.plain, Except.map]
  have splits : Script.splitQuoted '\'' (['K'] ++ ['\'']) = some (['K'], []) := rfl
  have reads := readExpression?_alone (.inl rfl) splits cooks
  have literal : "'K'".toList = '\'' :: (['K'] ++ ['\'']) := by decide
  rw [skipped]
  refine ⟨⟨2, ";<!--;'K'|t;-->"⟩, by decide +kernel, ⟨3, 17⟩, by simp, ⟨3, by decide, by decide⟩, ?_⟩
  rw [Strategy.pipeKeys, operands, List.flatMap_singleton, literal]
  simp only [reads]
  decide +kernel

end MessageKeys.Template
