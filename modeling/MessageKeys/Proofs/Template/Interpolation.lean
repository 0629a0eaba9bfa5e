import Mathlib.Data.List.Basic
import Mathlib.Logic.Relation
import Mathlib.Order.MinMax
import MessageKeys.Template.Interpolation
/-!
# Proofs.Template.Interpolation — the search for interpolations is exact

The search goes on from one place to the next: past a range that is skipped, or behind a body that has been
closed (`Step`). From each such place it comes to the first `{{` that follows (`FirstFrom`). One that is not
skipped opens a body, which ends in front of the first `}}` outside quotes (`Closing`); if there is none, the
search is over (`Stuck`). So what is found lies side by side in the order of the template, and every `{{` is
accounted for (`Exact`, by induction on what is left of the template).
-/
namespace MessageKeys.Template

/-! ## Bytes -/

/-- The number of bytes of a text. -/
def byteCount : List Char → Nat
  | [] => 0
  | c :: text => c.utf8Size + byteCount text

theorem byteCount_append (first second : List Char) :
    byteCount (first ++ second) = byteCount first + byteCount second := by
  induction first with
  | nil => rw [List.nil_append, byteCount, Nat.zero_add]
  | cons c first ih => rw [List.cons_append, byteCount, byteCount, ih, Nat.add_assoc]

theorem byteCount_pos {text : List Char} (some_ : text ≠ []) : 0 < byteCount text := by
  obtain ⟨c, rest, rfl⟩ := List.exists_cons_of_ne_nil some_
  have one := c.utf8Size_pos
  rw [byteCount]
  omega

theorem utf8ByteSize_ofList (text : List Char) : (String.ofList text).utf8ByteSize = byteCount text := by
  induction text with
  | nil => rfl
  | cons c text ih => rw [String.ofList_cons, String.utf8ByteSize_append, String.utf8ByteSize_singleton, ih,
      byteCount]

theorem byteCount_interpolation (before inside : List Char) :
    byteCount (before ++ '{' :: '{' :: inside ++ ['}', '}']) =
      byteCount before + 2 + byteCount inside + 2 := by
  have opening : '{'.utf8Size = 1 := rfl
  have closing : '}'.utf8Size = 1 := rfl
  simp only [byteCount_append, byteCount]
  omega

theorem eq_nil_of_byteCount_le {front more : List Char}
    (fewer : byteCount (front ++ more) ≤ byteCount front) : more = [] := by
  by_contra some_
  have bytes := byteCount_pos some_
  rw [byteCount_append] at fewer
  omega

/-- Of two fronts of a text the one with fewer bytes is a front of the other. -/
theorem exists_between {front text before rest : List Char} (same : front ++ text = before ++ rest)
    (fewer : byteCount front ≤ byteCount before) :
    ∃ between, before = front ++ between ∧ text = between ++ rest := by
  rcases List.append_eq_append_iff.1 same with ⟨between, longer, left⟩ | ⟨more, shorter, left⟩
  · exact ⟨between, longer, left⟩
  · obtain rfl : more = [] := eq_nil_of_byteCount_le (shorter ▸ fewer)
    exact ⟨[], by rw [shorter, List.append_nil, List.append_nil], left.symm⟩

/-! ## Quotes -/

/-- How a place stands to the quotes in front of it. -/
inductive Quoting where
  | outside
  | inside (mark : Char)
  /-- Behind a backslash in quotes. -/
  | escaped (mark : Char)
deriving DecidableEq, Repr

/-- The same behind one more character. -/
def Quoting.next : Quoting → Char → Quoting
  | .outside, c => if isQuote c then .inside c else .outside
  | .inside mark, c => if c == '\\' then .escaped mark else if c == mark then .outside else .inside mark
  | .escaped mark, _ => .inside mark

/-- After `inside` there is a `}}` outside quotes, and then `rest`. -/
def ClosesAt (quoting : Quoting) (text inside rest : List Char) : Prop :=
  text = inside ++ '}' :: '}' :: rest ∧ inside.foldl Quoting.next quoting = .outside

/-- The first `}}` outside quotes follows after `inside`. -/
def Closing (quoting : Quoting) (text inside rest : List Char) : Prop :=
  ClosesAt quoting text inside rest ∧
    ∀ earlier later, ClosesAt quoting text earlier later → inside.length ≤ earlier.length

/-- There is no `}}` outside quotes. -/
def Unclosed (quoting : Quoting) (text : List Char) : Prop :=
  ∀ inside rest, ¬ ClosesAt quoting text inside rest

theorem closing_now (rest : List Char) : Closing .outside ('}' :: '}' :: rest) [] rest :=
  ⟨⟨rfl, rfl⟩, fun _ _ _ => Nat.zero_le _⟩

theorem unclosed_nil (quoting : Quoting) : Unclosed quoting [] := by
  rintro (_ | ⟨c, inside⟩) rest ⟨shape, -⟩ <;> cases shape

section OneMore

variable {quoting : Quoting} {c : Char} {text : List Char}

theorem closesAt_cons_iff (inside rest : List Char) :
    ClosesAt quoting (c :: text) (c :: inside) rest ↔ ClosesAt (quoting.next c) text inside rest := by
  rw [ClosesAt, ClosesAt, List.cons_append, List.cons.injEq, List.foldl_cons]
  simp

/-- A text that does not close at once closes, if at all, behind its first character. -/
theorem exists_of_closesAt (open_ : ∀ rest, ¬ ClosesAt quoting (c :: text) [] rest) {inside rest : List Char}
    (closes : ClosesAt quoting (c :: text) inside rest) :
    ∃ behind, inside = c :: behind ∧ ClosesAt (quoting.next c) text behind rest := by
  cases inside with
  | nil => exact absurd closes (open_ rest)
  | cons d behind =>
      obtain rfl : c = d := (List.cons.inj closes.1).1
      exact ⟨behind, rfl, (closesAt_cons_iff behind rest).1 closes⟩

theorem Closing.cons (open_ : ∀ rest, ¬ ClosesAt quoting (c :: text) [] rest) {inside rest : List Char}
    (closing : Closing (quoting.next c) text inside rest) :
    Closing quoting (c :: text) (c :: inside) rest := by
  refine ⟨(closesAt_cons_iff inside rest).2 closing.1, fun earlier later closes => ?_⟩
  obtain ⟨behind, same, tail⟩ := exists_of_closesAt open_ closes
  rw [same]
  exact Nat.succ_le_succ (closing.2 behind later tail)

theorem Unclosed.cons (open_ : ∀ rest, ¬ ClosesAt quoting (c :: text) [] rest)
    (unclosed : Unclosed (quoting.next c) text) : Unclosed quoting (c :: text) := by
  intro inside rest closes
  obtain ⟨behind, -, closes⟩ := exists_of_closesAt open_ closes
  exact unclosed behind rest closes

end OneMore

/-! ## Bodies -/

variable (skipped : List Range)

/-- What is found behind `{{`, of whose body `before` has been read: the body up to where it closes and all
that is found behind that, or nothing if it is never closed. -/
def Finds (quoting : Quoting) (start offset : Nat) (before text : List Char) (found : List Located) : Prop :=
  (∃ inside rest, Closing quoting text inside rest ∧
    found = ⟨start, String.ofList (before.reverse ++ inside)⟩ ::
      seek skipped (offset + byteCount inside + 2) 0 rest) ∨
  (Unclosed quoting text ∧ found = [])

variable {skipped}

theorem Finds.cons {quoting : Quoting} {c : Char} {start offset : Nat} {before text : List Char}
    {found : List Located} (open_ : ∀ rest, ¬ ClosesAt quoting (c :: text) [] rest)
    (finds : Finds skipped (quoting.next c) start (offset + c.utf8Size) (c :: before) text found) :
    Finds skipped quoting start offset before (c :: text) found := by
  rcases finds with ⟨inside, rest, closing, rfl⟩ | ⟨unclosed, rfl⟩
  · refine .inl ⟨c :: inside, rest, closing.cons open_, ?_⟩
    rw [List.reverse_cons, List.append_assoc, List.singleton_append, byteCount, ← Nat.add_assoc]
  · exact .inr ⟨unclosed.cons open_, rfl⟩

/-- An open quote, or none. -/
def Quoting.of : Option Char → Quoting
  | none => .outside
  | some mark => .inside mark

theorem not_closesAt_inside {mark : Char} {text rest : List Char} :
    ¬ ClosesAt (.inside mark) text [] rest :=
  fun closes => by cases closes.2

theorem not_closesAt_escaped {mark : Char} {text rest : List Char} :
    ¬ ClosesAt (.escaped mark) text [] rest :=
  fun closes => by cases closes.2

/-- The open quote behind one more character. -/
def quoteBehind : Option Char → Char → Option Char
  | some mark, c => if c == mark then none else some mark
  | none, c => if isQuote c then some c else none

theorem isQuote_of_mem_quoteBehind {quote : Option Char} {c : Char} (marked : ∀ mark ∈ quote, isQuote mark) :
    ∀ mark ∈ quoteBehind quote c, isQuote mark := by
  intro mark isOpen
  cases quote with
  | none =>
      simp only [quoteBehind, Option.mem_def, Option.ite_none_right_eq_some, Option.some.injEq] at isOpen
      exact isOpen.2 ▸ isOpen.1
  | some other =>
      simp only [quoteBehind, Option.mem_def, Option.ite_none_left_eq_some, Option.some.injEq] at isOpen
      exact marked mark (congrArg some isOpen.2)

/-- Only a backslash in quotes does more than that. -/
theorem Quoting.next_of {quote : Option Char} {c : Char} (plain : quote = none ∨ c ≠ '\\') :
    (Quoting.of quote).next c = .of (quoteBehind quote c) := by
  cases quote with
  | none => simp only [Quoting.of, Quoting.next, quoteBehind]; split <;> rfl
  | some mark =>
      have other : c ≠ '\\' := plain.resolve_left (by simp)
      simp only [Quoting.of, Quoting.next, quoteBehind, beq_iff_eq, if_neg other]
      split <;> rfl

/-- **A body is read up to where it closes.** -/
theorem finds_body (start offset : Nat) (before : List Char) (quote : Option Char)
    (marked : ∀ mark ∈ quote, isQuote mark) (text : List Char) :
    Finds skipped (.of quote) start offset before text (body skipped start offset before quote text) := by
  induction size : text.length using Nat.strongRecOn generalizing offset before quote text with
  | _ bound ih =>
      fun_cases body skipped start offset before quote text with
      | case1 => exact .inr ⟨unclosed_nil _, rfl⟩
      | case2 rest free =>
          obtain rfl : quote = none := Option.isNone_iff_eq_none.1 free
          exact .inl ⟨[], rest, closing_now rest, by rw [List.append_nil]; rfl⟩
      | case3 rest quoted =>
          obtain ⟨mark, rfl⟩ := Option.ne_none_iff_exists'.1 (mt Option.isNone_iff_eq_none.2 quoted)
          have same : quoteBehind (some mark) '}' = some mark := by
            have other : '}' ≠ mark := by rintro rfl; exact absurd (marked _ rfl) (by decide)
            simp [quoteBehind, other]
          refine Finds.cons (fun _ => not_closesAt_inside) ?_
          rw [Quoting.next_of (.inr (by decide)), same]
          exact ih _ (size ▸ Nat.lt_succ_self _) _ _ _ marked _ rfl
      | case4 c rest free =>
          obtain rfl : quote = none := Option.isNone_iff_eq_none.1 free
          refine Finds.cons (fun _ closes => by cases closes.1) ?_
          exact ih _ (size ▸ Nat.lt_succ_self _) _ _ none (by simp) _ rfl
      | case5 c rest quoted =>
          obtain ⟨mark, rfl⟩ := Option.ne_none_iff_exists'.1 (mt Option.isNone_iff_eq_none.2 quoted)
          refine Finds.cons (fun _ => not_closesAt_inside) (Finds.cons (fun _ => not_closesAt_escaped) ?_)
          exact ih _ (by simp only [← size, List.length_cons]; omega) _ _ _ marked _ rfl
      | case6 c rest open_ plain quote' =>
          by_cases takes : quote ≠ none ∧ c = '\\'
          · -- A backslash that ends the template inside quotes.
            obtain ⟨quoted, rfl⟩ := takes
            obtain ⟨mark, rfl⟩ := Option.ne_none_iff_exists'.1 quoted
            cases rest with
            | nil =>
                refine .inr ⟨Unclosed.cons (fun _ => not_closesAt_inside) (unclosed_nil _), ?_⟩
                rw [body]
            | cons d rest => exact (plain d rest rfl rfl).elim
          · refine Finds.cons (fun later closes => open_ later (List.cons.inj closes.1).1
              (List.cons.inj closes.1).2) ?_
            have same : quote' = quoteBehind quote c := by cases quote <;> rfl
            rw [Quoting.next_of (by simpa [or_iff_not_imp_left] using takes), same]
            exact ih _ (by simp [← size]) _ _ _ (isQuote_of_mem_quoteBehind marked) rest rfl

/-! ## The search -/

variable (skipped : List Range) (template : List Char)

/-- Behind `before` follows `{{` and then `rest`. -/
def OpensAt (before rest : List Char) : Prop := template = before ++ '{' :: '{' :: rest

/-- No skipped range holds the offset. -/
def Free (offset : Nat) : Prop := ∀ range ∈ skipped, ¬ range.holds offset

/-- The first `{{` at or after the offset `start` is the one behind `before`. -/
structure FirstFrom (start : Nat) (before rest : List Char) : Prop where
  opens : OpensAt template before rest
  le : start ≤ byteCount before
  first : ∀ other later, OpensAt template other later → start ≤ byteCount other →
    byteCount before ≤ byteCount other

/-- How the search goes on from one offset to another. -/
inductive Step (start : Nat) : Nat → Prop
  /-- Past a skipped range, and past the `{{` that begins in it. -/
  | past {before rest range} : FirstFrom template start before rest →
      skipped.find? (·.holds (byteCount before)) = some range →
      Step start (max range.stop (byteCount before + 2))
  /-- Behind a body that is closed. -/
  | behind {before rest inside later} : FirstFrom template start before rest →
      Free skipped (byteCount before) → Closing .outside rest inside later →
      Step start (byteCount before + 2 + byteCount inside + 2)

/-- The search goes on from the offset. -/
def Resumes : Nat → Prop := Relation.ReflTransGen (Step skipped template) 0

/-- The search comes to the `{{` behind `before` and ends there, as its body is never closed. -/
def Stuck (before : List Char) : Prop :=
  ∃ start rest, Resumes skipped template start ∧ FirstFrom template start before rest ∧
    Free skipped (byteCount before) ∧ Unclosed .outside rest

/-- The bytes an interpolation takes up in the template, with its braces. -/
def Located.span (item : Located) : Range := ⟨item.offset - 2, item.offset + item.text.utf8ByteSize + 2⟩

/-- The item is what stands between a `{{` that is not skipped and the first `}}` outside quotes behind it. -/
def IsInterpolation (item : Located) : Prop :=
  ∃ before rest inside later, OpensAt template before rest ∧ Free skipped (byteCount before) ∧
    Closing .outside rest inside later ∧ item = ⟨byteCount before + 2, String.ofList inside⟩

/-- What has become of the `{{` behind `before`. -/
inductive Accounted (found : List Located) (before : List Char) : Prop
  /-- It opens one of the interpolations, or lies in one. -/
  | within {item} : item ∈ found → item.span.start ≤ byteCount before →
      byteCount before + 2 ≤ item.span.stop → Accounted found before
  /-- Its first brace is the second of a `{{` that begins in a skipped range. -/
  | overlaps {earlier rest range} : OpensAt template earlier rest → range ∈ skipped →
      range.holds (byteCount earlier) → byteCount before = byteCount earlier + 1 → Accounted found before
  /-- The search has come to an end at it or in front of it. -/
  | ended {stuck} : Stuck skipped template stuck → byteCount stuck ≤ byteCount before → Accounted found before

/-- What is found from the offset `start` on lies there side by side, each is an interpolation, and every `{{`
from there on is accounted for. -/
structure Exact (start : Nat) (found : List Located) : Prop where
  ordered : found.Pairwise fun one two => one.span.stop ≤ two.span.start
  behind : ∀ item ∈ found, start ≤ item.span.start
  sound : ∀ item ∈ found, IsInterpolation skipped template item
  complete : ∀ before rest, OpensAt template before rest → Free skipped (byteCount before) →
    start ≤ byteCount before → Accounted skipped template found before

variable {skipped template}

/-- An occurrence at or behind the place in front of `c` is at that place or behind `c`. -/
theorem OpensAt.now_or_behind {front before text rest : List Char} {c : Char}
    (opens : OpensAt template before rest) (split : template = front ++ c :: text)
    (le : byteCount front ≤ byteCount before) :
    (before = front ∧ c = '{' ∧ text = '{' :: rest) ∨ byteCount (front ++ [c]) ≤ byteCount before := by
  obtain ⟨between, rfl, same⟩ := exists_between (split.symm.trans opens) le
  cases between with
  | nil => exact .inl ⟨List.append_nil _, (List.cons.inj same).1, (List.cons.inj same).2⟩
  | cons d between =>
      obtain rfl : c = d := (List.cons.inj same).1
      refine .inr ?_
      simp only [byteCount_append, byteCount]
      exact Nat.add_le_add_left (Nat.add_le_add_left (Nat.zero_le _) _) _

theorem seek_onward {offset resume : Nat} {c : Char} {text : List Char}
    (closed : ∀ rest, c = '{' → text = '{' :: rest → offset < resume) :
    seek skipped offset resume (c :: text) = seek skipped (offset + c.utf8Size) resume text := by
  by_cases brace : ∃ rest, c = '{' ∧ text = '{' :: rest
  · obtain ⟨rest, rfl, rfl⟩ := brace
    rw [seek, if_pos (closed rest rfl rfl)]
    rfl
  · rw [seek]
    exact fun rest one two => brace ⟨rest, one, two⟩

/-- **From a place on, the search comes to the first `{{` at or after `resume`.** -/
theorem seek_eq (front text : List Char) (resume : Nat) (split : template = front ++ text) :
    (seek skipped (byteCount front) resume text = [] ∧
      ∀ before rest, OpensAt template before rest → byteCount before < max resume (byteCount front)) ∨
    ∃ before rest, FirstFrom template (max resume (byteCount front)) before rest ∧
      seek skipped (byteCount front) resume text =
        match skipped.find? (·.holds (byteCount before)) with
        | some range =>
          seek skipped (byteCount before + 1) (max range.stop (byteCount before + 2)) ('{' :: rest)
        | none => body skipped (byteCount before + 2) (byteCount before + 2) [] none rest := by
  induction text generalizing front with
  | nil =>
      refine .inl ⟨by rw [seek], fun before rest opens => lt_max_of_lt_right ?_⟩
      rw [← List.append_nil front, ← split, opens, byteCount_append]
      exact Nat.lt_add_of_pos_right (byteCount_pos (by simp))
  | cons c text ih =>
      by_cases here : ∃ rest, (c = '{' ∧ text = '{' :: rest) ∧ resume ≤ byteCount front
      · obtain ⟨rest, ⟨rfl, rfl⟩, reached⟩ := here
        refine .inr ⟨front, rest,
          ⟨split, max_le reached le_rfl, fun _ _ _ => le_trans (le_max_right _ _)⟩, ?_⟩
        cases skip : skipped.find? (·.holds (byteCount front)) <;>
          simp only [seek, skip, if_neg (Nat.not_lt.2 reached)]
      · have onward : seek skipped (byteCount front) resume (c :: text) =
            seek skipped (byteCount (front ++ [c])) resume text := by
          rw [byteCount_append]
          exact seek_onward fun rest one two =>
            Nat.lt_of_not_le fun reached => here ⟨rest, ⟨one, two⟩, reached⟩
        -- So what is to be found lies behind `c`.
        have behind : ∀ before rest, OpensAt template before rest →
            max resume (byteCount front) ≤ byteCount before →
            max resume (byteCount (front ++ [c])) ≤ byteCount before := by
          intro before rest opens le
          obtain ⟨rfl, one, two⟩ | later := opens.now_or_behind split (le_trans (le_max_right _ _) le)
          · exact absurd ⟨rest, ⟨one, two⟩, le_trans (le_max_left _ _) le⟩ here
          · exact max_le (le_trans (le_max_left _ _) le) later
        have longer : max resume (byteCount front) ≤ max resume (byteCount (front ++ [c])) :=
          max_le_max le_rfl (by rw [byteCount_append]; exact Nat.le_add_right _ _)
        rw [onward]
        rcases ih (front ++ [c]) (by rw [split, List.append_assoc]; rfl) with
          ⟨ends, none_⟩ | ⟨before, rest, first, same⟩
        · exact .inl ⟨ends, fun before rest opens => Nat.lt_of_not_le fun le =>
            Nat.not_lt.2 (behind before rest opens le) (none_ before rest opens)⟩
        · exact .inr ⟨before, rest, ⟨first.opens, le_trans longer first.le, fun other later opens le =>
            first.first other later opens (behind other later opens le)⟩, same⟩

/-! ### Where it ends -/

theorem FirstFrom.unique {start : Nat} {one two rest later : List Char}
    (first : FirstFrom template start one rest) (second : FirstFrom template start two later) :
    one = two ∧ rest = later := by
  obtain ⟨between, longer, same⟩ :=
    exists_between (first.opens.symm.trans second.opens) (first.first _ _ second.opens second.le)
  have bytes := second.first _ _ first.opens first.le
  obtain rfl : between = [] := eq_nil_of_byteCount_le (longer ▸ bytes)
  exact ⟨(longer.trans (List.append_nil one)).symm, (List.cons.inj (List.cons.inj same).2).2⟩

theorem Closing.unique {quoting : Quoting} {text one two rest later : List Char}
    (first : Closing quoting text one rest) (second : Closing quoting text two later) :
    one = two ∧ rest = later := by
  obtain ⟨same, behind⟩ := List.append_inj (first.1.1.symm.trans second.1.1)
    (Nat.le_antisymm (first.2 _ _ second.1) (second.2 _ _ first.1))
  exact ⟨same, List.cons.inj (List.cons.inj behind).2 |>.2⟩

theorem not_free_of_find? {offset : Nat} {range : Range}
    (skip : skipped.find? (·.holds offset) = some range) : ¬ Free skipped offset :=
  fun free => free range (List.mem_of_find?_eq_some skip) (by simpa using List.find?_some skip)

theorem Step.unique : Relator.RightUnique (Step skipped template) := by
  rintro start _ _ (⟨first, skip⟩ | ⟨first, free, closing⟩) (⟨second, skip'⟩ | ⟨second, free', closing'⟩) <;>
    obtain ⟨rfl, rfl⟩ := first.unique second
  · rw [Option.some.inj (skip.symm.trans skip')]
  · exact absurd free' (not_free_of_find? skip)
  · exact absurd free (not_free_of_find? skip')
  · rw [(closing.unique closing').1]

/-- From a body that is never closed the search does not go on. -/
theorem eq_of_unclosed {start stop : Nat} {before rest : List Char}
    (first : FirstFrom template start before rest) (free : Free skipped (byteCount before))
    (unclosed : Unclosed .outside rest)
    (steps : Relation.ReflTransGen (Step skipped template) start stop) : start = stop := by
  obtain same | ⟨next, step, -⟩ := steps.cases_head
  · exact same
  · cases step with
    | past other skip => exact absurd ((first.unique other).1 ▸ free) (not_free_of_find? skip)
    | behind other _ closing => exact absurd ((first.unique other).2 ▸ closing.1) (unclosed _ _)

/-- **The search ends in one place.** -/
theorem Stuck.unique {one two : List Char} (first : Stuck skipped template one)
    (second : Stuck skipped template two) : one = two := by
  obtain ⟨start, rest, resumes, opens, free, unclosed⟩ := first
  obtain ⟨start', rest', resumes', opens', free', unclosed'⟩ := second
  obtain rfl : start = start' := by
    obtain steps | steps := Relation.ReflTransGen.total_of_right_unique Step.unique resumes resumes'
    · exact eq_of_unclosed opens free unclosed steps
    · exact (eq_of_unclosed opens' free' unclosed' steps).symm
  exact (opens.unique opens').1

/-! ### What it finds -/

theorem Accounted.cons {item : Located} {found : List Located} {before : List Char}
    (accounted : Accounted skipped template found before) :
    Accounted skipped template (item :: found) before := by
  cases accounted with
  | within member after until_ => exact .within (List.mem_cons_of_mem _ member) after until_
  | overlaps opens member holds next => exact .overlaps opens member holds next
  | ended stuck after => exact .ended stuck after

/-- A `{{` does not begin at the last brace of a body's end. -/
theorem OpensAt.before_or_behind {front text before rest : List Char} (opens : OpensAt template before rest)
    (split : template = front ++ '}' :: text) :
    byteCount before < byteCount front ∨ byteCount front < byteCount before := by
  refine or_iff_not_imp_left.2 fun after => ?_
  obtain ⟨-, brace, -⟩ | later := opens.now_or_behind split (Nat.not_lt.1 after)
  · exact absurd brace (by decide)
  · rwa [byteCount_append] at later

/-- What is exact past a skipped range is exact from the place that led there. -/
theorem Exact.past {start : Nat} {before rest : List Char} {range : Range} {found : List Located}
    (first : FirstFrom template start before rest)
    (skip : skipped.find? (·.holds (byteCount before)) = some range)
    (exact_ : Exact skipped template (max range.stop (byteCount before + 2)) found) :
    Exact skipped template start found where
  ordered := exact_.ordered
  behind item member := by
    have later := exact_.behind item member
    have ahead := first.le
    omega
  sound := exact_.sound
  complete other later opens free le := by
    have from_ := first.first other later opens le
    have holds : range.holds (byteCount before) := by simpa using List.find?_some skip
    have bounds : range.start ≤ byteCount before ∧ byteCount before < range.stop := by
      simpa [Range.holds] using holds
    by_cases far : max range.stop (byteCount before + 2) ≤ byteCount other
    · exact exact_.complete other later opens free far
    · have member := List.mem_of_find?_eq_some skip
      have out : range.stop ≤ byteCount other := by
        by_contra inside
        exact free range member (by simp [Range.holds]; omega)
      exact .overlaps first.opens member holds (by omega)

theorem span_interpolation (before inside : List Char) :
    (⟨byteCount before + 2, String.ofList inside⟩ : Located).span =
      ⟨byteCount before, byteCount before + 2 + byteCount inside + 2⟩ := by
  simp [Located.span, utf8ByteSize_ofList]

/-- What is exact behind a body that is closed is exact, with the body in front, from the place that led
there. -/
theorem Exact.closed {start : Nat} {before rest inside later : List Char} {found : List Located}
    (first : FirstFrom template start before rest) (free : Free skipped (byteCount before))
    (closing : Closing .outside rest inside later)
    (exact_ : Exact skipped template (byteCount before + 2 + byteCount inside + 2) found) :
    Exact skipped template start (⟨byteCount before + 2, String.ofList inside⟩ :: found) where
  ordered := by
    refine List.pairwise_cons.2 ⟨fun item member => ?_, exact_.ordered⟩
    rw [span_interpolation]
    exact exact_.behind item member
  behind := by
    rw [List.forall_mem_cons, span_interpolation]
    refine ⟨first.le, fun item member => ?_⟩
    have later := exact_.behind item member
    have ahead := first.le
    omega
  sound := by
    rw [List.forall_mem_cons]
    exact ⟨⟨before, rest, inside, later, first.opens, free, closing, rfl⟩, exact_.sound⟩
  complete other more opens free' le := by
    have from_ := first.first other more opens le
    by_cases far : byteCount before + 2 + byteCount inside + 2 ≤ byteCount other
    · exact (exact_.complete other more opens free' far).cons
    · -- The last brace in front of `later` is no `{`.
      have last : template = (before ++ '{' :: '{' :: inside ++ ['}']) ++ '}' :: later := by
        rw [first.opens, closing.1.1]
        simp
      have bytes : byteCount (before ++ '{' :: '{' :: inside ++ ['}']) + 1 =
          byteCount before + 2 + byteCount inside + 2 := by
        rw [← byteCount_interpolation, byteCount_append _ ['}'], byteCount_append _ ['}', '}']]
        rfl
      have apart := opens.before_or_behind last
      refine .within (List.mem_cons_self ..) ?_ ?_
      · rw [span_interpolation]
        exact from_
      · rw [span_interpolation]
        show byteCount other + 2 ≤ byteCount before + 2 + byteCount inside + 2
        omega

/-- At a body that is never closed nothing more is found. -/
theorem Exact.stuck {start : Nat} {before rest : List Char} (resumes : Resumes skipped template start)
    (first : FirstFrom template start before rest) (free : Free skipped (byteCount before))
    (unclosed : Unclosed .outside rest) : Exact skipped template start [] where
  ordered := .nil
  behind _ member := nomatch member
  sound _ member := nomatch member
  complete other later opens _ le :=
    .ended ⟨start, rest, resumes, first, free, unclosed⟩ (first.first other later opens le)

/-- **The search is exact from every place at which it goes on.** -/
theorem exact_seek (front text : List Char) (resume : Nat) (split : template = front ++ text)
    (resumes : Resumes skipped template (max resume (byteCount front))) :
    Exact skipped template (max resume (byteCount front)) (seek skipped (byteCount front) resume text) := by
  -- On what is left of the template; each case takes the search to the next place, with less left.
  induction size : text.length using Nat.strongRecOn generalizing front text resume with
  | _ bound ih =>
      rcases seek_eq front text resume split with ⟨ends, none_⟩ | ⟨before, rest, first, same⟩
      · rw [ends]
        exact ⟨.nil, nofun, nofun, fun before rest opens _ le =>
          absurd (none_ before rest opens) (Nat.not_lt.2 le)⟩
      · obtain ⟨between, -, rfl⟩ :=
          exists_between (split.symm.trans first.opens) (le_trans (le_max_right _ _) first.le)
        have shorter : rest.length + 1 < bound := by
          simp only [← size, List.length_append, List.length_cons]
          omega
        rw [same]
        cases skip : skipped.find? (·.holds (byteCount before)) with
        | some range =>
            have onward := ih _ shorter (before ++ ['{']) ('{' :: rest)
              (max range.stop (byteCount before + 2)) (by rw [first.opens, List.append_assoc]; rfl)
            have far : max (max range.stop (byteCount before + 2)) (byteCount before + 1) =
                max range.stop (byteCount before + 2) :=
              max_eq_left (le_trans (Nat.le_succ _) (le_max_right _ _))
            have here : byteCount (before ++ ['{']) = byteCount before + 1 := byteCount_append _ _
            rw [here, far] at onward
            exact .past first skip (onward (resumes.tail (.past first skip)) rfl)
        | none =>
            have free : Free skipped (byteCount before) := by simpa [Free] using List.find?_eq_none.1 skip
            rcases @finds_body skipped (byteCount before + 2) (byteCount before + 2) [] none nofun rest with
              ⟨inside, later, closing, found⟩ | ⟨unclosed, found⟩
            · have fewer : later.length < bound := by
                simp only [closing.1.1, List.length_append, List.length_cons] at shorter
                omega
              have onward := ih _ fewer (before ++ '{' :: '{' :: inside ++ ['}', '}']) later 0
                (by rw [first.opens, closing.1.1]; simp)
              rw [Nat.zero_max, byteCount_interpolation] at onward
              simp only [found]
              exact .closed first free closing (onward (resumes.tail (.behind first free closing)) rfl)
            · simp only [found]
              exact .stuck resumes first free unclosed

/-- **The search for interpolations is exact.** What it finds stands in the template one behind the other,
without overlap; each is the body of a `{{` that no range skips, up to the first `}}` outside quotes; and
every such `{{` opens an interpolation or lies in one, or overlaps a `{{` that is skipped, or stands where the
search ends at a body that is never closed, or behind that. The search ends so in one place at most. -/
theorem interpolations_exact (skipped : List Range) (template : List Char) :
    (interpolations skipped template).Pairwise
      (fun one two => one.offset < two.offset ∧ one.span.stop ≤ two.span.start) ∧
    (∀ item ∈ interpolations skipped template, IsInterpolation skipped template item) ∧
    (∀ before rest, OpensAt template before rest → Free skipped (byteCount before) →
      Accounted skipped template (interpolations skipped template) before) ∧
    ∀ one two, Stuck skipped template one → Stuck skipped template two → one = two := by
  have exact_ : Exact skipped template 0 (interpolations skipped template) :=
    exact_seek [] template 0 rfl .refl
  refine ⟨exact_.ordered.imp fun {one two} apart => ⟨?_, apart⟩, exact_.sound, fun before rest opens free =>
    exact_.complete before rest opens free (Nat.zero_le _), fun _ _ => Stuck.unique⟩
  simp only [Located.span] at apart
  omega

/-- `{{{{ "}}" }}{{` -/
def bracesInQuotes : List Char := "\x7b\x7b\x7b\x7b \"\x7d\x7d\" \x7d\x7d\x7b\x7b".toList

/-- Where its first brace is skipped, the second `{{` overlaps the first, the third opens a body that closes
behind the quotes, and the last one is never closed. -/
theorem interpolations_exact_overlapping :
    interpolations [⟨0, 1⟩] bracesInQuotes = [⟨4, " \"\x7d\x7d\" "⟩] ∧
    (Free [⟨0, 1⟩] (byteCount ['{']) ∧ OpensAt bracesInQuotes ['{'] (bracesInQuotes.drop 3)) ∧
    Accounted [⟨0, 1⟩] bracesInQuotes (interpolations [⟨0, 1⟩] bracesInQuotes) ['{'] := by
  have free : Free [⟨0, 1⟩] (byteCount ['{']) := by unfold Free; decide
  have opens : OpensAt bracesInQuotes ['{'] (bracesInQuotes.drop 3) := by unfold OpensAt; decide
  exact ⟨by decide, ⟨free, opens⟩, (interpolations_exact _ _).2.2.1 _ _ opens free⟩

end MessageKeys.Template
