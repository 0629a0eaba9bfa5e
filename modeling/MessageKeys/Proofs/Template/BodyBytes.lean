import MessageKeys.Proofs.Template.Bytes
/-!
# Proofs.Template.BodyBytes — the search for interpolations by bytes

`findBodies` looks for interpolations in the bytes of a template, one round for each `{{` it comes to, and cuts the
template at the offsets it finds. A backslash in quotes takes the byte behind it along, which may be the first of
several that make up a character. Still it comes out at the end of that character
(`Quoting.closingBraces_cons`), as only a byte that is a character of its own counts as a quote, a backslash or a
brace. So every offset is a place of the template, given that the skipped ranges end at places, and what is found
is what `interpolations` lists (`findBodies_start`).
-/
namespace MessageKeys.Template

/-! ## Braces -/

/-- The place of the first `{{`. The first of the bytes stands at `place`. -/
def findBraces (place : Nat) : List UInt8 → Option Nat
  | [] => none
  | b :: bytes =>
    if byteChar b = '{' ∧ bytes.head?.map byteChar = some '{' then some place
    else findBraces (place + 1) bytes

/-- The place of the first `}}` outside quotes. A backslash in quotes takes the next byte with it. -/
def closingBraces (quote : Option Char) (place : Nat) : List UInt8 → Option Nat
  | [] => none
  | b :: bytes =>
    match quote with
    | some mark =>
      if byteChar b = '\\' then closingBraces (some mark) (place + 2) bytes.tail
      else if byteChar b = mark then closingBraces none (place + 1) bytes
      else closingBraces (some mark) (place + 1) bytes
    | none =>
      if isQuote (byteChar b) then closingBraces (some (byteChar b)) (place + 1) bytes
      else if byteChar b = '}' ∧ bytes.head?.map byteChar = some '}' then some place
      else closingBraces none (place + 1) bytes
termination_by bytes => bytes.length

theorem findBraces_high (place : Nat) (b : UInt8) (bytes : List UInt8) (high : IsHigh b) :
    findBraces place (b :: bytes) = findBraces (place + 1) bytes := by
  rw [findBraces, if_neg fun braces => high.byteChar_ne (by decide) braces.1]

theorem findBraces_cons {c : Char} {text : List Char} (other : ¬ (c = '{' ∧ text.head? = some '{'))
    (place : Nat) : findBraces place (utf8 (c :: text)) = findBraces (place + c.utf8Size) (utf8 text) := by
  rcases encodeChar_cases c with ⟨one, b, spelled, rfl⟩ | ⟨-, high⟩
  · rw [utf8_cons, spelled, List.singleton_append, findBraces, one]
    simp only [head?_utf8 (by decide : '{'.toNat < 0x80), if_neg other]
  · exact run_of_high findBraces_high high place text

theorem findBraces_of_none {text : List Char} (none_ : ∀ before rest, ¬ OpensAt text before rest) (place : Nat) :
    findBraces place (utf8 text) = none := by
  induction text generalizing place with
  | nil => rfl
  | cons c text ih =>
      rw [findBraces_cons, ih]
      · exact fun before rest opens => none_ (c :: before) rest (congrArg (c :: ·) opens)
      · rintro ⟨rfl, next⟩
        obtain ⟨rest, rfl⟩ := List.head?_eq_some_iff.1 next
        exact none_ [] rest rfl

/-- It is found at the offset at which it first stands. -/
theorem findBraces_of_first {text before rest : List Char} (first : FirstFrom text 0 before rest) (place : Nat) :
    findBraces place (utf8 text) = some (place + byteCount before) := by
  induction before generalizing text place with
  | nil =>
      obtain rfl : text = '{' :: '{' :: rest := first.opens
      obtain ⟨b, spelled, brace⟩ := utf8_cons_ascii (by decide : '{'.toNat < 0x80) ('{' :: rest)
      rw [spelled, findBraces, if_pos ⟨brace, (head?_utf8 (by decide) _).2 rfl⟩]
      rfl
  | cons c before ih =>
      obtain rfl : text = c :: (before ++ '{' :: '{' :: rest) := first.opens
      have some_ := c.utf8Size_pos
      rw [findBraces_cons, ih ⟨rfl, Nat.zero_le _, ?_⟩, byteCount, Nat.add_assoc]
      · intro other later opens _
        have least := first.first (c :: other) later (congrArg (c :: ·) opens) (Nat.zero_le _)
        simp only [byteCount] at least
        omega
      · rintro ⟨rfl, next⟩
        obtain ⟨rest, same⟩ := List.head?_eq_some_iff.1 next
        have least := first.first [] rest (congrArg _ same) (Nat.zero_le _)
        simp only [byteCount] at least
        omega

/-! ## Where a body ends -/

/-- The same from the first byte of a character on, however that stands to the quotes in front of it. -/
def Quoting.closingBraces : Quoting → Nat → List UInt8 → Option Nat
  | .outside, place, bytes => Template.closingBraces none place bytes
  | .inside mark, place, bytes => Template.closingBraces (some mark) place bytes
  | .escaped mark, place, bytes => Template.closingBraces (some mark) (place + 1) bytes.tail

/-- The quotes that are open are quotes. -/
def Quoting.Marked : Quoting → Prop
  | .outside => True
  | .inside mark | .escaped mark => isQuote mark

theorem Quoting.Marked.outside : Quoting.Marked .outside := trivial

theorem toNat_of_isQuote {c : Char} (quote : isQuote c) : c.toNat < 0x80 := by
  simp only [isQuote, Bool.or_eq_true, beq_iff_eq] at quote
  rcases quote with (rfl | rfl) | rfl <;> decide

theorem Quoting.Marked.next {quoting : Quoting} (marked : quoting.Marked) (c : Char) :
    (quoting.next c).Marked := by
  cases quoting with
  | outside => rw [Quoting.next]; split <;> trivial
  | inside mark => rw [Quoting.next]; split <;> [exact marked; split <;> [trivial; exact marked]]
  | escaped mark => exact marked

theorem closingBraces_high {quote : Option Char} (marked : ∀ mark ∈ quote, isQuote mark) (place : Nat) (b : UInt8)
    (bytes : List UInt8) (high : IsHigh b) :
    closingBraces quote place (b :: bytes) = closingBraces quote (place + 1) bytes := by
  cases quote with
  | some mark =>
      rw [closingBraces, if_neg (high.byteChar_ne (by decide)),
        if_neg (high.byteChar_ne (toNat_of_isQuote (marked mark rfl)))]
  | none =>
      have plain : ¬ isQuote (byteChar b) := by
        intro quote
        exact high.byteChar_ne (toNat_of_isQuote quote) rfl
      rw [closingBraces, if_neg plain, if_neg fun braces => high.byteChar_ne (by decide) braces.1]

/-- **One character on.**  Where a text does not close at once, the search goes on behind its first character, even
if it has stepped into the middle of that. -/
theorem Quoting.closingBraces_cons {quoting : Quoting} {c : Char} {text : List Char} (marked : quoting.Marked)
    (open_ : ∀ rest, ¬ ClosesAt quoting (c :: text) [] rest) (place : Nat) :
    quoting.closingBraces place (utf8 (c :: text)) =
      (quoting.next c).closingBraces (place + c.utf8Size) (utf8 text) := by
  cases quoting with
  | outside =>
      rcases encodeChar_cases c with ⟨one, b, spelled, rfl⟩ | ⟨large, high⟩
      · have other : ¬ (byteChar b = '}' ∧ text.head? = some '}') := by
          rintro ⟨brace, next⟩
          obtain ⟨rest, rfl⟩ := List.head?_eq_some_iff.1 next
          exact open_ rest ⟨by rw [brace]; rfl, rfl⟩
        rw [utf8_cons, spelled, List.singleton_append, one]
        simp only [Quoting.closingBraces, Template.closingBraces, Quoting.next,
          head?_utf8 (by decide : '}'.toNat < 0x80), if_neg other]
        split <;> rfl
      · have plain : ¬ isQuote c := fun quote => absurd (toNat_of_isQuote quote) (Nat.not_lt.2 large)
        rw [Quoting.next, if_neg plain]
        exact run_of_high (closingBraces_high (by simp)) high place text
  | inside mark =>
      rcases encodeChar_cases c with ⟨one, b, spelled, rfl⟩ | ⟨large, high⟩
      · rw [utf8_cons, spelled, List.singleton_append, one]
        simp only [Quoting.closingBraces, Template.closingBraces, Quoting.next, beq_iff_eq]
        split <;> [rfl; split <;> rfl]
      · have other : ∀ d : Char, d.toNat < 0x80 → c ≠ d := by
          rintro d ascii rfl
          exact absurd ascii (Nat.not_lt.2 large)
        rw [Quoting.next, if_neg (by simpa using other '\\' (by decide)),
          if_neg (by simpa using other mark (toNat_of_isQuote marked))]
        exact run_of_high (closingBraces_high (by simpa [Quoting.Marked] using marked)) high place text
  | escaped mark =>
      exact run_tail (closingBraces_high (by simpa [Quoting.Marked] using marked)) c place text

theorem Quoting.closingBraces_of_unclosed {quoting : Quoting} {text : List Char} (marked : quoting.Marked)
    (unclosed : Unclosed quoting text) (place : Nat) : quoting.closingBraces place (utf8 text) = none := by
  induction text generalizing quoting place with
  | nil => cases quoting <;> exact Template.closingBraces.eq_1 ..
  | cons c text ih =>
      rw [Quoting.closingBraces_cons marked (unclosed [])]
      refine ih (marked.next c) (fun inside rest closes => ?_) _
      exact unclosed (c :: inside) rest ((closesAt_cons_iff inside rest).2 closes)

/-- **It is found where the body ends.** -/
theorem Quoting.closingBraces_of_closing {quoting : Quoting} {text inside rest : List Char}
    (marked : quoting.Marked) (closing : Closing quoting text inside rest) (place : Nat) :
    quoting.closingBraces place (utf8 text) = some (place + byteCount inside) := by
  induction inside generalizing quoting text place with
  | nil =>
      obtain ⟨⟨rfl, rfl⟩, -⟩ := closing
      obtain ⟨b, spelled, brace⟩ := utf8_cons_ascii (by decide : '}'.toNat < 0x80) ('}' :: rest)
      rw [List.nil_append, spelled]
      show Template.closingBraces none place (b :: utf8 ('}' :: rest)) = some place
      rw [Template.closingBraces, if_neg (by rw [brace]; decide),
        if_pos ⟨brace, (head?_utf8 (by decide) _).2 rfl⟩]
  | cons c inside ih =>
      obtain ⟨closes, least⟩ := closing
      obtain rfl : text = c :: (inside ++ '}' :: '}' :: rest) := closes.1
      have open_ : ∀ later, ¬ ClosesAt quoting (c :: (inside ++ '}' :: '}' :: rest)) [] later :=
        fun later now => absurd (least [] later now) (Nat.not_succ_le_zero _)
      rw [Quoting.closingBraces_cons marked open_, ih (marked.next c), byteCount, Nat.add_assoc]
      refine ⟨(closesAt_cons_iff inside rest).1 closes, fun earlier later now => ?_⟩
      exact Nat.le_of_succ_le_succ (least (c :: earlier) later ((closesAt_cons_iff earlier later).2 now))

/-! ## The search -/

variable (skipped : List Range) (template : List Char)

/-- What stands from an offset up to the first `}}` outside quotes, and where that stands. There is no result
where an offset at which the template is cut is none of its places. -/
def bodyAt? (start : Nat) : Option (Option (List Char × Nat)) := do
  let rest ← slice? template start (byteCount template)
  match closingBraces none start (utf8 rest) with
  | none => some none
  | some closing => (slice? template start closing).map fun inside => some (inside, closing)

/-- Looks for interpolations from the offset `position` on, for so many rounds. There is no result where an offset
at which the template is cut is none of its places, or where the rounds do not suffice. -/
def findBodies : Nat → Nat → Option (List Located)
  | 0, _ => none
  | rounds + 1, position => do
    let ahead ← slice? template position (byteCount template)
    match findBraces position (utf8 ahead) with
    | none => some []
    | some opening =>
      match skipped.find? (·.holds opening) with
      | some range => findBodies rounds (max range.stop (opening + 2))
      | none =>
        match ← bodyAt? template (opening + 2) with
        | none => some []
        | some (inside, closing) =>
          (findBodies rounds (closing + 2)).map (⟨opening + 2, String.ofList inside⟩ :: ·)

variable {skipped template}

/-- Where it first stands in the whole text is where it first stands from a place in front of that. -/
theorem FirstFrom.behind {front ahead before rest : List Char}
    (first : FirstFrom (front ++ ahead) (byteCount front) before rest) :
    ∃ between, before = front ++ between ∧ FirstFrom ahead 0 between rest := by
  obtain ⟨between, rfl, same⟩ := exists_between first.opens first.le
  refine ⟨between, rfl, same, Nat.zero_le _, fun other later opens _ => ?_⟩
  have least := first.first (front ++ other) later
    (by rw [OpensAt, List.append_assoc]; exact congrArg (front ++ ·) opens)
    (by rw [byteCount_append]; exact Nat.le_add_right ..)
  simpa only [byteCount_append, Nat.add_le_add_iff_left] using least

/-- So the bytes from that place on show where it stands. -/
theorem findBraces_of_firstFrom {front ahead before rest : List Char}
    (first : FirstFrom (front ++ ahead) (byteCount front) before rest) :
    findBraces (byteCount front) (utf8 ahead) = some (byteCount before) := by
  obtain ⟨between, rfl, nearer⟩ := first.behind
  rw [findBraces_of_first nearer, byteCount_append]

theorem findBraces_of_ended {front ahead : List Char}
    (none_ : ∀ before rest, OpensAt (front ++ ahead) before rest → byteCount before < byteCount front) :
    findBraces (byteCount front) (utf8 ahead) = none := by
  refine findBraces_of_none (fun between rest opens => ?_) _
  have less := none_ (front ++ between) rest
    (by rw [OpensAt, List.append_assoc]; exact congrArg (front ++ ·) opens)
  rw [byteCount_append] at less
  omega

theorem bodyAt?_of_closing {front rest inside later : List Char} (spelled : template = front ++ rest)
    (closing : Closing .outside rest inside later) :
    bodyAt? template (byteCount front) = some (some (inside, byteCount front + byteCount inside)) := by
  have closes : closingBraces none (byteCount front) (utf8 rest) = some (byteCount front + byteCount inside) :=
    Quoting.closingBraces_of_closing .outside closing _
  have body : slice? template (byteCount front) (byteCount front + byteCount inside) = some inside :=
    slice?_eq_some_iff.2 ⟨front, '}' :: '}' :: later, by rw [spelled, closing.1.1], rfl, rfl⟩
  rw [spelled] at body ⊢
  rw [bodyAt?, slice?_rest, Option.bind_eq_bind, Option.bind_some]
  simp only [closes, body, Option.map_some]

theorem bodyAt?_of_unclosed {front rest : List Char} (spelled : template = front ++ rest)
    (unclosed : Unclosed .outside rest) : bodyAt? template (byteCount front) = some none := by
  have open_ : closingBraces none (byteCount front) (utf8 rest) = none :=
    Quoting.closingBraces_of_unclosed .outside unclosed _
  rw [spelled, bodyAt?, slice?_rest, Option.bind_eq_bind, Option.bind_some]
  simp only [open_]

theorem byteCount_opened (before : List Char) : byteCount (before ++ ['{', '{']) = byteCount before + 2 :=
  byteCount_append _ _

section Round

variable {front ahead before rest : List Char} {rounds : Nat}

theorem findBodies_ended
    (none_ : ∀ before rest, OpensAt (front ++ ahead) before rest → byteCount before < byteCount front) :
    findBodies skipped (front ++ ahead) (rounds + 1) (byteCount front) = some [] := by
  rw [findBodies, slice?_rest, Option.bind_eq_bind, Option.bind_some, findBraces_of_ended none_]

variable (first : FirstFrom (front ++ ahead) (byteCount front) before rest)
include first

/-- A round that comes to a skipped range goes on behind it. -/
theorem findBodies_past {range : Range} (skip : skipped.find? (·.holds (byteCount before)) = some range) :
    findBodies skipped (front ++ ahead) (rounds + 1) (byteCount front) =
      findBodies skipped (front ++ ahead) rounds (max range.stop (byteCount before + 2)) := by
  rw [findBodies, slice?_rest, Option.bind_eq_bind, Option.bind_some, findBraces_of_firstFrom first]
  simp only [skip]

/-- The rest begins behind the two braces. -/
theorem FirstFrom.spelled : front ++ ahead = (before ++ ['{', '{']) ++ rest := by
  rw [first.opens, List.append_assoc]
  rfl

/-- A round that comes to a body goes on behind that. -/
theorem findBodies_behind (free : skipped.find? (·.holds (byteCount before)) = none) {inside later : List Char}
    (closing : Closing .outside rest inside later) :
    findBodies skipped (front ++ ahead) (rounds + 1) (byteCount front) =
      (findBodies skipped (front ++ ahead) rounds (byteCount before + 2 + byteCount inside + 2)).map
        (⟨byteCount before + 2, String.ofList inside⟩ :: ·) := by
  have body := bodyAt?_of_closing first.spelled closing
  rw [byteCount_opened] at body
  rw [findBodies, slice?_rest, Option.bind_eq_bind, Option.bind_some, findBraces_of_firstFrom first]
  simp only [free, body, Option.bind_eq_bind, Option.bind_some]

theorem findBodies_unclosed (free : skipped.find? (·.holds (byteCount before)) = none)
    (unclosed : Unclosed .outside rest) :
    findBodies skipped (front ++ ahead) (rounds + 1) (byteCount front) = some [] := by
  have body := bodyAt?_of_unclosed first.spelled unclosed
  rw [byteCount_opened] at body
  rw [findBodies, slice?_rest, Option.bind_eq_bind, Option.bind_some, findBraces_of_firstFrom first]
  simp only [free, body, Option.bind_eq_bind, Option.bind_some]

end Round

/-- **The search by bytes.**  From any place it finds what the search finds that goes on there, if the rounds
suffice for what is left of the template: each one takes it on by two bytes at least. -/
theorem findBodies_eq (placed : ∀ range ∈ skipped, IsPlace template range.stop) {rounds resume : Nat}
    {front text : List Char} (split : template = front ++ text)
    (place : IsPlace template (max resume (byteCount front)))
    (enough : byteCount template < max resume (byteCount front) + rounds) :
    findBodies skipped template rounds (max resume (byteCount front)) =
      some (seek skipped (byteCount front) resume text) := by
  induction rounds generalizing resume front text with
  | zero => exact absurd enough (Nat.not_lt.2 place.le)
  | succ rounds ih =>
      have found := @seek_eq skipped template front text resume split
      generalize at_ : max resume (byteCount front) = position at place enough found ⊢
      obtain ⟨passed, ahead, rfl, rfl⟩ := place
      rcases found with ⟨ends, none_⟩ | ⟨before, rest, first, same⟩
      · rw [findBodies_ended none_, ends]
      · have le := first.le
        have opens := first.opens
        rw [same]
        cases skip : skipped.find? (·.holds (byteCount before)) with
        | some range =>
            -- Only the first of the two braces has been read so far.
            have here : byteCount (before ++ ['{']) = byteCount before + 1 := byteCount_append _ _
            have far : max (max range.stop (byteCount before + 2)) (byteCount (before ++ ['{'])) =
                max range.stop (byteCount before + 2) := by omega
            have next : IsPlace (passed ++ ahead) (max range.stop (byteCount before + 2)) := by
              rcases max_choice range.stop (byteCount before + 2) with stop | two
              · rw [stop]
                exact placed range (List.mem_of_find?_eq_some skip)
              · rw [two]
                exact ⟨_, rest, first.spelled, byteCount_opened before⟩
            have onward := @ih (max range.stop (byteCount before + 2)) (before ++ ['{']) ('{' :: rest)
              (by rw [opens, List.append_assoc]; rfl) (by rwa [far]) (by omega)
            rw [far, here] at onward
            rw [findBodies_past first skip, onward]
        | none =>
            rcases @finds_body skipped (byteCount before + 2) (byteCount before + 2) [] none nofun rest with
              ⟨inside, later, closing, found⟩ | ⟨unclosed, found⟩
            · have behind := byteCount_interpolation before inside
              have all : passed ++ ahead = (before ++ '{' :: '{' :: inside ++ ['}', '}']) ++ later := by
                rw [opens, closing.1.1]
                simp
              have onward := @ih 0 (before ++ '{' :: '{' :: inside ++ ['}', '}']) later all
                (by rw [Nat.zero_max]; exact ⟨_, later, all, rfl⟩) (by omega)
              rw [Nat.zero_max, behind] at onward
              simp only [findBodies_behind first skip closing, found, onward, Option.map_some]
              rfl
            · simp only [findBodies_unclosed first skip unclosed, found]

/-- From the start of a template one round more than it has bytes suffices. -/
theorem findBodies_start (placed : ∀ range ∈ skipped, IsPlace template range.stop) {rounds : Nat}
    (enough : byteCount template < rounds) :
    findBodies skipped template rounds 0 = some (interpolations skipped template) :=
  @findBodies_eq skipped template placed rounds 0 [] template rfl ⟨[], template, rfl, rfl⟩
    (by simpa [byteCount] using enough)

/-- A body can be cut out of the template where it says that it stands. -/
theorem slice?_of_mem_interpolations {item : Located} (found : item ∈ interpolations skipped template) :
    slice? template item.offset (item.offset + item.text.utf8ByteSize) = some item.text.toList := by
  have exact_ : Exact skipped template 0 (interpolations skipped template) := exact_seek [] template 0 rfl .refl
  obtain ⟨before, rest, inside, later, opens, -, closing, rfl⟩ := exact_.sound item found
  rw [utf8ByteSize_ofList, String.toList_ofList]
  refine slice?_eq_some_iff.2 ⟨before ++ ['{', '{'], '}' :: '}' :: later, ?_, byteCount_append _ _, rfl⟩
  rw [opens, closing.1.1]
  simp

end MessageKeys.Template
