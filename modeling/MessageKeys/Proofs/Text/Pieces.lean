import MessageKeys.Text.Blank
import MessageKeys.Text.Split
/-!
# Proofs.Text.Pieces — cutting and joining texts

`split` undoes `join` wherever no piece holds the mark (`split_join`, `splitString_joinStrings`). Both go
along with putting two parts together with a mark between them (`split_append_mark`, `join_append`). A text
that neither starts nor ends with a blank is trimmed already.
-/
namespace MessageKeys.Text

variable {mark : Char}

theorem split_of_notMem {text : List Char} (absent : mark ∉ text) : split mark text = [text] := by
  induction text with
  | nil => rfl
  | cons c rest ih =>
      rw [List.mem_cons, not_or] at absent
      rw [split, if_neg (by simpa using Ne.symm absent.1), ih absent.2]

theorem split_append_mark (mark : Char) (first second : List Char) :
    split mark (first ++ mark :: second) = split mark first ++ split mark second := by
  induction first with
  | nil => simp [split]
  | cons c rest ih =>
      rw [List.cons_append, split, split, ih]
      split
      · rfl
      · cases found : split mark rest with
        | nil => exact absurd found (split_ne_nil mark rest)
        | cons piece pieces => rfl

theorem join_append (mark : Char) {first second : List (List Char)} (some_ : first ≠ [])
    (other : second ≠ []) : join mark (first ++ second) = join mark first ++ mark :: join mark second := by
  induction first with
  | nil => exact absurd rfl some_
  | cons piece pieces ih =>
      cases pieces with
      | nil =>
          cases second with
          | nil => exact absurd rfl other
          | cons next rest => rfl
      | cons next rest =>
          have tail := ih (by simp)
          rw [List.cons_append] at tail
          simp only [List.cons_append, join, tail, List.append_assoc]

/-- A front without a mark goes to the first piece. -/
theorem split_append_of_notMem {lead : List Char} (absent : mark ∉ lead) (rest : List Char) :
    ∃ piece pieces, split mark rest = piece :: pieces ∧
      split mark (lead ++ rest) = (lead ++ piece) :: pieces := by
  induction lead with
  | nil =>
      cases found : split mark rest with
      | nil => exact absurd found (split_ne_nil mark rest)
      | cons piece pieces => exact ⟨piece, pieces, rfl, found⟩
  | cons c lead ih =>
      rw [List.mem_cons, not_or] at absent
      obtain ⟨piece, pieces, found, whole⟩ := ih absent.2
      refine ⟨piece, pieces, found, ?_⟩
      rw [List.cons_append, split, if_neg (by simpa using Ne.symm absent.1), whole]
      rfl

theorem split_join {pieces : List (List Char)} (some_ : pieces ≠ [])
    (absent : ∀ piece ∈ pieces, mark ∉ piece) : split mark (join mark pieces) = pieces := by
  induction pieces with
  | nil => exact absurd rfl some_
  | cons piece pieces ih =>
      rw [List.forall_mem_cons] at absent
      cases pieces with
      | nil => rw [join, split_of_notMem absent.1]
      | cons next others =>
          rw [join, split_append_mark, split_of_notMem absent.1, ih (by simp) absent.2]
          · rfl
          · simp

theorem mem_join_of_mem (mark : Char) {pieces : List (List Char)} {piece : List Char}
    (member : piece ∈ pieces) {c : Char} (inside : c ∈ piece) : c ∈ join mark pieces := by
  induction pieces with
  | nil => cases member
  | cons first others ih =>
      cases others with
      | nil =>
          rw [List.mem_singleton.1 member] at inside
          exact inside
      | cons second rest =>
          rw [join]
          · rcases List.mem_cons.1 member with rfl | later
            · exact List.mem_append_left _ inside
            · exact List.mem_append_right _ (List.mem_cons_of_mem _ (ih later))
          · simp

/-- Joined texts hold the mark and what the pieces hold. -/
theorem exists_of_mem_join {pieces : List (List Char)} {c : Char} (inside : c ∈ join mark pieces) :
    c = mark ∨ ∃ piece ∈ pieces, c ∈ piece := by
  fun_induction join mark pieces with
  | case1 => cases inside
  | case2 piece => exact Or.inr ⟨piece, List.mem_cons_self, inside⟩
  | case3 piece pieces _ ih =>
      rcases List.mem_append.1 inside with own | later
      · exact Or.inr ⟨piece, List.mem_cons_self, own⟩
      · rcases List.mem_cons.1 later with same | later
        · exact Or.inl same
        · exact (ih later).imp_right fun ⟨other, among, held⟩ =>
            ⟨other, List.mem_cons_of_mem _ among, held⟩

theorem joinStrings_splitString (mark : Char) (text : String) :
    joinStrings mark (splitString mark text) = text := by
  rw [joinStrings, splitString, List.map_map]
  have same : (split mark text.toList).map (String.toList ∘ String.ofList) = split mark text.toList := by
    conv => rhs; rw [← List.map_id (split mark text.toList)]
    exact List.map_congr_left fun piece _ => String.toList_ofList
  rw [same, join_split, String.ofList_toList]

theorem splitString_joinStrings {pieces : List String} (some_ : pieces ≠ [])
    (absent : ∀ piece ∈ pieces, mark ∉ piece.toList) :
    splitString mark (joinStrings mark pieces) = pieces := by
  rw [splitString, joinStrings, String.toList_ofList, split_join (by simpa using some_)
    (by simpa using absent), List.map_map]
  conv => rhs; rw [← List.map_id pieces]
  exact List.map_congr_left fun piece _ => String.ofList_toList

theorem notMem_of_mem_split {text piece : List Char} (member : piece ∈ split mark text) :
    mark ∉ piece := by
  induction text generalizing piece with
  | nil =>
      rw [split, List.mem_singleton] at member
      simp [member]
  | cons c rest ih =>
      rw [split] at member
      split at member
      · rcases List.mem_cons.1 member with rfl | later
        · simp
        · exact ih later
      · rename_i apart
        have apart : mark ≠ c := fun same => apart (by simp [same])
        cases found : split mark rest with
        | nil => exact absurd found (split_ne_nil mark rest)
        | cons first others =>
            rw [found] at member ih
            rcases List.mem_cons.1 member with rfl | later
            · simpa [apart] using ih List.mem_cons_self
            · exact ih (List.mem_cons_of_mem _ later)

/-- Lines that are each ended by a mark: cutting leaves an empty piece behind the last one. -/
theorem split_flatMap_mark {lines : List (List Char)} (absent : ∀ line ∈ lines, mark ∉ line) :
    split mark (lines.flatMap (· ++ [mark])) = lines ++ [[]] := by
  induction lines with
  | nil => rfl
  | cons line lines ih =>
      rw [List.forall_mem_cons] at absent
      rw [List.flatMap_cons, List.append_assoc, List.singleton_append, split_append_mark,
        split_of_notMem absent.1, ih absent.2]
      rfl

theorem trimChars_of_ends {first last : Char} (middle : List Char) (starts : isBlank first = false)
    (ends : isBlank last = false) :
    trimChars (first :: middle ++ [last]) = first :: middle ++ [last] := by
  unfold trimChars
  rw [List.cons_append, List.dropWhile_cons, starts, if_neg Bool.false_ne_true, ← List.cons_append,
    List.reverse_append, List.reverse_singleton, List.singleton_append, List.dropWhile_cons, ends,
    if_neg Bool.false_ne_true, List.reverse_cons, List.reverse_reverse]

theorem dropWhile_of_visible {text : List Char} (visible : ∀ c ∈ text, isBlank c = false) :
    text.dropWhile isBlank = text := by
  cases text with
  | nil => rfl
  | cons c rest => rw [List.dropWhile_cons, visible c List.mem_cons_self, if_neg Bool.false_ne_true]

theorem dropWhile_isBlank_eq_nil {text : List Char} (blank : ∀ c ∈ text, isBlank c) :
    text.dropWhile isBlank = [] := by
  rw [← List.append_nil text, List.dropWhile_append_of_pos blank]
  rfl

/-- Blanks around a text do not count. -/
theorem trimChars_blanks {lead trail : List Char} (text : List Char) (before : ∀ c ∈ lead, isBlank c)
    (behind : ∀ c ∈ trail, isBlank c) : trimChars (lead ++ text ++ trail) = trimChars text := by
  unfold trimChars
  rw [List.append_assoc, List.dropWhile_append_of_pos before, List.dropWhile_append]
  split
  · rename_i empty
    rw [List.isEmpty_iff.1 empty, dropWhile_isBlank_eq_nil behind]
  · rw [List.reverse_append, List.dropWhile_append_of_pos fun c member => behind c (List.mem_reverse.1 member)]

/-- What stands in front of a character that stays, from there on, stays too. -/
theorem exists_dropWhile_append {p : Char → Bool} {c : Char} (stops : p c = false) (front rest : List Char) :
    ∃ lead, (front ++ c :: rest).dropWhile p = lead ++ c :: rest := by
  rw [List.dropWhile_append]
  split
  · exact ⟨[], by rw [List.dropWhile_cons, stops, if_neg Bool.false_ne_true]; rfl⟩
  · exact ⟨_, rfl⟩

/-- A text that starts with a visible character does so without the blanks at its ends. -/
theorem exists_trimChars_cons {first : Char} (visible : isBlank first = false) (rest : List Char) :
    ∃ others, trimChars (first :: rest) = first :: others := by
  obtain ⟨lead, kept⟩ := exists_dropWhile_append visible rest.reverse []
  refine ⟨lead.reverse, ?_⟩
  rw [trimChars, List.dropWhile_cons, visible, if_neg Bool.false_ne_true, List.reverse_cons, kept]
  simp

/-- A text without blanks that stands between blanks. -/
theorem trimChars_between {lead text trail : List Char} (before : ∀ c ∈ lead, isBlank c)
    (visible : ∀ c ∈ text, isBlank c = false) (behind : ∀ c ∈ trail, isBlank c) :
    trimChars (lead ++ (text ++ trail)) = text := by
  have back : ∀ c ∈ text.reverse, isBlank c = false :=
    fun c member => visible c (List.mem_reverse.1 member)
  rw [trimChars, List.dropWhile_append_of_pos before]
  cases text with
  | nil =>
      rw [List.nil_append, ← List.append_nil trail, List.dropWhile_append_of_pos behind]
      rfl
  | cons c rest =>
      have front : (c :: rest ++ trail).dropWhile isBlank = c :: rest ++ trail := by
        rw [List.cons_append, List.dropWhile_cons, visible c List.mem_cons_self, if_neg Bool.false_ne_true]
      rw [front, List.reverse_append,
        List.dropWhile_append_of_pos fun c member => behind c (List.mem_reverse.1 member),
        dropWhile_of_visible back, List.reverse_reverse]

end MessageKeys.Text
