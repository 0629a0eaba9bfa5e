import MessageKeys.Proofs.Template.BodyBytes
import MessageKeys.Proofs.Template.PipeChain
import MessageKeys.Proofs.Template.PipeScan
/-!
# Proofs.Template.OperandBytes — pipe chains by bytes

`operandsOfBytes` reads the bytes of an expression, keeps the offsets at which parts start and pipes stand, and
cuts the expression there. What it has read is what the scanner over characters has read, by offsets instead of
numbers of characters (`PipeScan.inBytes`), from step to step and up to the end (`PipeScan.Placed.run?`). As the
parts start in front of their pipes and these follow each other (`Part.Placed`), every part can be cut
(`Part.Placed.handed?`). So it never fails, and neither does the search for interpolations (`scans_in_place`).
-/
namespace MessageKeys.Template

/-! ## Places of an expression -/

/-- The offset of the character with this number. -/
def byteAt (expression : List Char) (place : Nat) : Nat := byteCount (expression.take place)

section ByteAt

variable {expression : List Char}

theorem byteAt_length : byteAt expression expression.length = byteCount expression := by
  rw [byteAt, List.take_length]

/-- From one place to another one the offset grows by what stands between them. -/
theorem byteAt_add (place count : Nat) :
    byteAt expression (place + count) =
      byteAt expression place + byteCount ((expression.drop place).take count) := by
  rw [byteAt, List.take_add, byteCount_append, byteAt]

theorem byteAt_succ {place : Nat} {c : Char} {rest : List Char} (here : expression.drop place = c :: rest) :
    byteAt expression (place + 1) = byteAt expression place + c.utf8Size := by
  rw [byteAt_add, here, List.take_succ_cons, List.take_zero, byteCount, byteCount, Nat.add_zero]

/-- Places in order have offsets in order. -/
theorem byteAt_le_iff {one two : Nat} (inside : one ≤ expression.length) :
    byteAt expression one ≤ byteAt expression two ↔ one ≤ two := by
  refine ⟨fun bytes => ?_, fun le => ?_⟩
  · by_contra less
    obtain ⟨more, rfl⟩ : ∃ more, one = two + (more + 1) := ⟨one - two - 1, by omega⟩
    rw [byteAt_add] at bytes
    have some_ : (expression.drop two).take (more + 1) ≠ [] := by
      rw [Ne, List.take_eq_nil_iff, List.drop_eq_nil_iff]
      omega
    have pos := byteCount_pos some_
    omega
  · obtain ⟨more, rfl⟩ := Nat.exists_eq_add_of_le le
    rw [byteAt_add]
    exact Nat.le_add_right ..

/-- Between two places the expression can be cut out. -/
theorem slice?_byteAt {first past : Nat} (le : first ≤ past) :
    slice? expression (byteAt expression first) (byteAt expression past) =
      some ((expression.drop first).take (past - first)) := by
  obtain ⟨more, rfl⟩ := Nat.exists_eq_add_of_le le
  rw [Nat.add_sub_cancel_left]
  refine slice?_eq_some_iff.2 ⟨expression.take first, (expression.drop first).drop more, ?_, rfl, byteAt_add ..⟩
  rw [List.take_append_drop, List.take_append_drop]

end ByteAt

/-! ## Scanning bytes -/

/-- An open part of an expression: the offset at which it starts and those of its pipes. -/
structure Chain where
  start : Nat
  pipes : List Nat
deriving DecidableEq, Repr

/-- What the part that ends at the offset `stop` adds to the operands. There is no result where an offset at which
the expression is cut is none of its places. -/
def Chain.handed? (expression name : List Char) (chain : Chain) (stop : Nat) : Option (List Operand) :=
  match chain.pipes with
  | [] => some []
  | first :: later => do
    let called ← slice? expression (first + 1) (later.head?.getD stop)
    if Text.trimChars (called.takeWhile (· != ':')) == name then
      (slice? expression chain.start first).map fun text => [⟨chain.start, text⟩]
    else some []

/-- The open parts at the offset `place`, innermost first, and the operands of the parts that have ended. -/
structure ByteScan where
  place : Nat
  top : Chain
  outer : List Chain
  found : List Operand
deriving Repr

namespace ByteScan

variable (expression name : List Char)

def skip (scan : ByteScan) (count : Nat) : ByteScan := { scan with place := scan.place + count }

theorem skip_skip (scan : ByteScan) (first second : Nat) :
    (scan.skip first).skip second = scan.skip (first + second) := by
  rw [skip, skip, skip, Nat.add_assoc]

def enter (scan : ByteScan) : ByteScan :=
  { scan with place := scan.place + 1, top := ⟨scan.place + 1, []⟩, outer := scan.top :: scan.outer }

def leave? (scan : ByteScan) : Option ByteScan :=
  match scan.outer with
  | [] => some (scan.skip 1)
  | next :: outer => (scan.top.handed? expression name scan.place).map fun operands =>
      ⟨scan.place + 1, next, outer, scan.found ++ operands⟩

def cut? (scan : ByteScan) : Option ByteScan :=
  (scan.top.handed? expression name scan.place).map fun operands =>
    { scan with place := scan.place + 1, top := ⟨scan.place + 1, []⟩, found := scan.found ++ operands }

def pipe (scan : ByteScan) : ByteScan :=
  { scan with place := scan.place + 1, top := { scan.top with pipes := scan.top.pipes ++ [scan.place] } }

/-- The end of the text: the open parts end there, from the innermost one on. -/
def finish? (scan : ByteScan) : Option (List Operand) :=
  ((scan.top :: scan.outer).mapM fun chain : Chain => chain.handed? expression name (byteCount expression)).map
    fun operands => scan.found ++ operands.flatten

/-- Reads the bytes to their end. `quote` is the quote that is open; a backslash in quotes takes the next byte with
it. -/
def run? (quote : Option Char) (scan : ByteScan) (bytes : List UInt8) : Option (List Operand) :=
  match bytes with
  | [] => scan.finish? expression name
  | b :: bytes =>
    let c := byteChar b
    match quote with
    | some mark =>
      if c = '\\' then run? (some mark) (scan.skip 2) bytes.tail
      else run? (if c = mark then none else some mark) (scan.skip 1) bytes
    | none =>
      if c == '\'' || c == '"' || c == '\x60' then run? (some c) (scan.skip 1) bytes
      else if c == '(' || c == '[' || c == '{' then run? none scan.enter bytes
      else if c == ')' || c == ']' || c == '}' then
        (scan.leave? expression name).bind fun scan => run? none scan bytes
      else if c == ',' || c == ';' then
        (scan.cut? expression name).bind fun scan => run? none scan bytes
      else if c = '|' ∧ bytes.head?.map byteChar = some '|' then run? none (scan.skip 2) bytes.tail
      else if c == '|' then run? none scan.pipe bytes
      else run? none (scan.skip 1) bytes
termination_by bytes.length

end ByteScan

/-- The operands that the bytes of an expression show, by where they start. -/
def operandsOfBytes (expression name : List Char) : Option (List Operand) :=
  (ByteScan.run? expression name none ⟨0, ⟨0, []⟩, [], []⟩ (utf8 expression)).map fun operands =>
    operands.mergeSort fun a b => a.start ≤ b.start

/-! ## Places in characters and in bytes -/

variable {expression name rest : List Char}

/-- The same part by offsets. -/
def Part.inBytes (expression : List Char) (part : Part) : Chain :=
  ⟨byteAt expression part.start, part.pipes.map (byteAt expression)⟩

def Operand.inBytes (expression : List Char) (operand : Operand) : Operand :=
  ⟨byteAt expression operand.start, operand.text⟩

def PipeScan.inBytes (expression : List Char) (scan : PipeScan) : ByteScan :=
  ⟨byteAt expression scan.place, scan.top.inBytes expression, scan.outer.map (Part.inBytes expression),
    scan.found.map (Operand.inBytes expression)⟩

theorem Part.inBytes_new (place : Nat) (text : List Char) :
    (Part.mk place text []).inBytes expression = ⟨byteAt expression place, []⟩ := rfl

theorem Part.Placed.slice_eq {part : Part} {place first : Nat} (placed : part.Placed expression place)
    (le : part.start ≤ first) (past : Nat) :
    part.slice first past = (expression.drop first).take (past - first) := by
  rw [Part.slice, placed.text, List.drop_drop, Nat.add_sub_of_le le]

/-- **A part hands over the same by offsets.** -/
theorem Part.Placed.handed? {part : Part} {stop : Nat} (placed : part.Placed expression stop) :
    (part.inBytes expression).handed? expression name (byteAt expression stop) =
      some ((part.operand? name stop).toList.map (Operand.inBytes expression)) := by
  unfold Chain.handed? Part.operand? Part.inBytes
  cases pipes : part.pipes with
  | nil => rfl
  | cons first later =>
      obtain ⟨from_, before, bar⟩ := placed.pipes first (pipes ▸ List.mem_cons_self)
      have past : first + 1 ≤ later.head?.getD stop := by
        cases later with
        | nil => exact before
        | cons second more =>
            have ordered := placed.ordered
            rw [pipes] at ordered
            exact List.rel_of_pairwise_cons ordered List.mem_cons_self
      have one : byteAt expression first + 1 = byteAt expression (first + 1) := by
        obtain ⟨inside, here⟩ := List.getElem?_eq_some_iff.1 bar
        exact (byteAt_succ (by rw [List.drop_eq_getElem_cons inside, here])).symm
      simp only [List.map_cons, List.head?_map, Option.getD_map, one, slice?_byteAt past, slice?_byteAt from_,
        Option.bind_eq_bind, Option.bind_some, Part.pipeName, placed.slice_eq (Nat.le_succ_of_le from_),
        placed.slice_eq (Nat.le_refl _)]
      split <;> rfl

/-! ### The steps of the scanner by offsets -/

namespace PipeScan

variable {scan : PipeScan} {c : Char}

theorem Placed.inBytes_skip (placed : scan.Placed expression (c :: rest)) :
    (scan.skip 1).inBytes expression = (scan.inBytes expression).skip c.utf8Size := by
  rw [PipeScan.inBytes, PipeScan.skip, byteAt_succ placed.ahead]
  rfl

/-- The scanner has passed over a stretch. -/
theorem Placed.inBytes_passed {front : List Char} (placed : scan.Placed expression (front ++ rest)) :
    (scan.skip front.length).Placed expression rest ∧
      (scan.skip front.length).inBytes expression = (scan.inBytes expression).skip (byteCount front) := by
  induction front generalizing scan with
  | nil => exact ⟨placed, rfl⟩
  | cons c front ih =>
      obtain ⟨passed, same⟩ := ih placed.skip
      rw [skip_skip, Nat.add_comm] at passed same
      refine ⟨passed, same.trans ?_⟩
      rw [placed.inBytes_skip, ByteScan.skip_skip, byteCount]

theorem Placed.place_succ (placed : scan.Placed expression (c :: rest)) (one : c.utf8Size = 1) :
    byteAt expression (scan.place + 1) = byteAt expression scan.place + 1 := by
  rw [byteAt_succ placed.ahead, one]

theorem Placed.inBytes_enter (placed : scan.Placed expression (c :: rest)) (one : c.utf8Size = 1) :
    (scan.enter rest).inBytes expression = (scan.inBytes expression).enter := by
  simp only [PipeScan.inBytes, PipeScan.enter, Part.inBytes_new, ByteScan.enter, placed.place_succ one,
    List.map_cons]

theorem Placed.leave? (placed : scan.Placed expression (c :: rest)) (one : c.utf8Size = 1) :
    (scan.inBytes expression).leave? expression name = some ((scan.leave name).inBytes expression) := by
  have handed := @Part.Placed.handed? expression name _ _ (placed.parts _ List.mem_cons_self)
  unfold ByteScan.leave? PipeScan.leave
  cases outer : scan.outer with
  | nil =>
      have same := placed.inBytes_skip
      rw [one] at same
      simp only [same]
      simp only [PipeScan.inBytes, outer, List.map_nil]
  | cons next more =>
      simp only [PipeScan.inBytes, outer, List.map_cons, handed, Option.map_some, placed.place_succ one,
        List.map_append]

theorem Placed.cut? (placed : scan.Placed expression (c :: rest)) (one : c.utf8Size = 1) :
    (scan.inBytes expression).cut? expression name = some ((scan.cut name rest).inBytes expression) := by
  have handed := @Part.Placed.handed? expression name _ _ (placed.parts _ List.mem_cons_self)
  simp only [ByteScan.cut?, PipeScan.inBytes, PipeScan.cut, handed, Option.map_some, placed.place_succ one,
    List.map_append, Part.inBytes_new]

theorem Placed.inBytes_pipe (placed : scan.Placed expression (c :: rest)) (one : c.utf8Size = 1) :
    scan.pipe.inBytes expression = (scan.inBytes expression).pipe := by
  simp only [PipeScan.inBytes, PipeScan.pipe, Part.inBytes, ByteScan.pipe, placed.place_succ one, List.map_append,
    List.map_cons, List.map_nil]

theorem Placed.finish? (placed : scan.Placed expression []) :
    (scan.inBytes expression).finish? expression name =
      some ((scan.finish name).map (Operand.inBytes expression)) := by
  have all : byteCount expression = byteAt expression scan.place := by
    rw [Nat.le_antisymm placed.inside (List.drop_eq_nil_iff.1 placed.ahead), byteAt_length]
  have handed : ∀ parts : List Part, (∀ part ∈ parts, part.Placed expression scan.place) →
      (parts.map (Part.inBytes expression)).mapM
        (fun chain => chain.handed? expression name (byteAt expression scan.place)) =
        some (parts.map fun part => (part.operand? name scan.place).toList.map (Operand.inBytes expression)) := by
    intro parts
    induction parts with
    | nil => exact fun _ => rfl
    | cons part parts ih =>
        intro placed
        rw [List.forall_mem_cons] at placed
        simp only [List.map_cons, List.mapM_cons, placed.1.handed?, ih placed.2, Option.bind_eq_bind,
          Option.bind_some, Option.pure_def]
  have parts := handed _ placed.parts
  rw [List.map_cons] at parts
  simp only [ByteScan.finish?, PipeScan.inBytes, PipeScan.finish, all, parts, Option.map_some, List.map_append,
    List.filterMap_eq_flatMap_toList, List.flatMap_def, List.map_flatten, List.map_map]
  rfl

end PipeScan

/-! ### Whole runs -/

namespace ByteScan

variable {quote : Option Char}

/-- A byte that is no character is stepped over. -/
theorem run?_high (marked : ∀ mark ∈ quote, isQuote mark) (scan : ByteScan) (b : UInt8) (bytes : List UInt8)
    (high : IsHigh b) :
    run? expression name quote scan (b :: bytes) = run? expression name quote (scan.skip 1) bytes := by
  have other {d : Char} (ascii : d.toNat < 0x80) : byteChar b ≠ d := high.byteChar_ne ascii
  cases quote with
  | some mark => rw [run?, if_neg (other (by decide)), if_neg (other (toNat_of_isQuote (marked mark rfl)))]
  | none =>
      have differs {d : Char} (ascii : d.toNat < 0x80) : (byteChar b == d) = false :=
        beq_eq_false_iff_ne.2 (other ascii)
      rw [run?]
      simp (disch := decide) only [differs, other, Bool.or_self, Bool.false_eq_true, if_false, false_and]

variable (scan : ByteScan) (text : List Char)

/-- So is a character of several bytes. -/
theorem run?_of_high (marked : ∀ mark ∈ quote, isQuote mark) {c : Char}
    (high : ∀ b ∈ String.utf8EncodeChar c, IsHigh b) :
    run? expression name quote scan (utf8 (c :: text)) =
      run? expression name quote (scan.skip c.utf8Size) (utf8 text) :=
  @run_of_high _ (fun place bytes => run? expression name quote { scan with place } bytes)
    (fun _ => run?_high marked _) c high scan.place text

/-- A backslash in quotes and the character behind it. -/
theorem run?_escaped {mark : Char} (marked : isQuote mark) (c : Char) :
    run? expression name (some mark) scan (utf8 ('\\' :: c :: text)) =
      run? expression name (some mark) (scan.skip (1 + c.utf8Size)) (utf8 text) := by
  obtain ⟨b, spelled, slash⟩ := utf8_cons_ascii (by decide : '\\'.toNat < 0x80) (c :: text)
  rw [spelled, run?, if_pos slash]
  have onward := @run_tail _ (fun place bytes => run? expression name (some mark) { scan with place } bytes)
    (fun _ => run?_high (by simpa using marked) _) c (scan.place + 1) text
  rw [Nat.add_assoc, Nat.add_assoc] at onward
  exact onward

/-- Any other character in quotes. -/
theorem run?_quoted {mark : Char} (marked : isQuote mark) {c : Char} (other : c ≠ '\\') :
    run? expression name (some mark) scan (utf8 (c :: text)) =
      run? expression name (if c == mark then none else some mark) (scan.skip c.utf8Size) (utf8 text) := by
  rcases encodeChar_cases c with ⟨one, b, spelled, rfl⟩ | ⟨large, high⟩
  · rw [utf8_cons, spelled, List.singleton_append, run?, if_neg other, one]
    simp only [beq_iff_eq]
  · have unlike : c ≠ mark := by
      rintro rfl
      exact absurd (toNat_of_isQuote marked) (Nat.not_lt.2 large)
    rw [run?_of_high scan text (by simpa using marked) high, if_neg (by simpa using unlike)]

/-- What stands in quotes is passed over, up to the same closing quote. -/
theorem run?_quotedRun {mark : Char} (marked : isQuote mark) :
    run? expression name (some mark) scan (utf8 text) =
      run? expression name none (scan.skip (byteCount (quotedRun mark text).1)) (utf8 (quotedRun mark text).2) := by
  fun_induction quotedRun mark text generalizing scan with
  | case1 => rw [utf8_nil, run?, run?]; rfl
  | case2 c rest ih =>
      rw [run?_escaped _ _ marked, ih, skip_skip, byteCount, byteCount, ← Nat.add_assoc]
      rfl
  | case3 c rest noEscape closed =>
      have other : c ≠ '\\' := by
        rintro rfl
        obtain rfl := beq_iff_eq.1 closed
        exact absurd marked (by decide)
      rw [run?_quoted _ _ marked other, if_pos closed]
      rfl
  | case4 c rest noEscape open_ ih =>
      by_cases last : c = '\\'
      · -- The backslash ends the text: the scanner steps beyond the end, which it does not look at.
        subst last
        cases rest with
        | cons d rest => exact (noEscape d rest rfl rfl).elim
        | nil =>
            obtain ⟨b, spelled, same⟩ := utf8_cons_ascii (by decide : '\\'.toNat < 0x80) []
            rw [spelled, utf8_nil, run?, if_pos same, List.tail_nil, run?, quotedRun, utf8_nil, run?]
            rfl
      · rw [run?_quoted _ _ marked last, if_neg open_, ih, skip_skip, byteCount]

/-- A character outside quotes. -/
theorem run?_plain (c : Char) :
    run? expression name none scan (utf8 (c :: text)) =
      match Role.of c with
      | .quote => run? expression name (some c) (scan.skip 1) (utf8 text)
      | .opening => run? expression name none scan.enter (utf8 text)
      | .closing => (scan.leave? expression name).bind fun scan => run? expression name none scan (utf8 text)
      | .separator => (scan.cut? expression name).bind fun scan => run? expression name none scan (utf8 text)
      | .pipe =>
        if text.head? = some '|' then run? expression name none (scan.skip 2) (utf8 text).tail
        else run? expression name none scan.pipe (utf8 text)
      | .other => run? expression name none (scan.skip c.utf8Size) (utf8 text) := by
  rcases encodeChar_cases c with ⟨one, b, spelled, rfl⟩ | ⟨large, high⟩
  · rw [utf8_cons, spelled, List.singleton_append, run?, one, Role.of_eq]
    simp only [head?_utf8 (by decide : '|'.toNat < 0x80)]
    split_ifs <;> simp_all
  · have other {d : Char} (ascii : d.toNat < 0x80) : (c == d) = false := by
      rw [beq_eq_false_iff_ne]
      rintro rfl
      exact absurd ascii (Nat.not_lt.2 large)
    have role : Role.of c = .other := by
      rw [Role.of_eq]
      simp (disch := decide) only [other, Bool.or_self, Bool.false_eq_true, if_false]
    rw [run?_of_high scan text (by simp) high, role]

end ByteScan

/-- Whatever has a meaning outside quotes is one byte. -/
theorem utf8Size_of_role {c : Char} (marks : Role.of c ≠ .other) : c.utf8Size = 1 := by
  unfold Role.of at marks
  split at marks <;> first | rfl | exact absurd rfl marks

theorem isQuote_of_role {c : Char} (role : Role.of c = .quote) : isQuote c := by
  unfold Role.of at role
  split at role <;> first | rfl | cases role

/-- **The bytes show the same operands.**  No offset at which the expression is cut is out of place. -/
theorem PipeScan.Placed.run? {scan : PipeScan} (placed : scan.Placed expression rest) :
    (scan.inBytes expression).run? expression name none (utf8 rest) =
      some ((scan.run name none rest).map (Operand.inBytes expression)) := by
  -- A quoted text is passed over in one go, so the induction is on the length.
  induction size : rest.length using Nat.strongRecOn generalizing scan rest with
  | _ size ih =>
      have onward {after : List Char} {scan : PipeScan} (placed : scan.Placed expression after)
          (less : after.length < rest.length) :
          (scan.inBytes expression).run? expression name none (utf8 after) =
            some ((scan.run name none after).map (Operand.inBytes expression)) :=
        ih after.length (size ▸ less) placed rfl
      cases rest with
      | nil =>
          rw [utf8_nil, ByteScan.run?]
          exact placed.finish?
      | cons c rest =>
          have less : rest.length < (c :: rest).length := Nat.lt_succ_self _
          have one : Role.of c ≠ .other → c.utf8Size = 1 := utf8Size_of_role
          rw [ByteScan.run?_plain, run_cons]
          cases role : Role.of c with
          | quote =>
              have marked := isQuote_of_role role
              have placed' := placed.skip
              rw [← quotedRun_append c rest] at placed'
              obtain ⟨passed, same⟩ := placed'.inBytes_passed
              have first := placed.inBytes_skip
              rw [one (by simp [role])] at first
              dsimp only
              rw [ByteScan.run?_quotedRun _ _ marked, run_quoted name _ role, ← first, ← same]
              exact onward passed (Nat.lt_succ_of_le (length_quotedRun_le c rest))
          | opening =>
              rw [← placed.inBytes_enter (one (by simp [role]))]
              exact onward placed.enter less
          | closing =>
              rw [placed.leave? (one (by simp [role]))]
              exact onward placed.leave less
          | separator =>
              rw [placed.cut? (one (by simp [role]))]
              exact onward placed.cut less
          | pipe =>
              obtain rfl := Role.of_eq_pipe role
              dsimp only
              split_ifs with double
              · obtain ⟨after, rfl⟩ := List.head?_eq_some_iff.1 double
                obtain ⟨b, spelled, -⟩ := utf8_cons_ascii (by decide : '|'.toNat < 0x80) after
                have placed' : scan.Placed expression (['|', '|'] ++ after) := placed
                obtain ⟨passed, same⟩ := placed'.inBytes_passed
                rw [spelled]
                exact (congrArg (ByteScan.run? expression name none · _) same.symm).trans
                  (onward passed ((Nat.lt_succ_self _).trans less))
              · rw [← placed.inBytes_pipe rfl]
                exact onward placed.pipe less
          | other =>
              rw [← placed.inBytes_skip]
              exact onward placed.skip less

/-- The bytes of an expression show the operands that are handed to the pipe, in the same order. -/
theorem operandsOfBytes_eq (expression name : List Char) :
    operandsOfBytes expression name = some ((pipedOperands expression name).map (Operand.inBytes expression)) := by
  have start := PipeScan.Placed.start expression
  have run : ByteScan.run? expression name none ⟨0, ⟨0, []⟩, [], []⟩ (utf8 expression) =
      some (((PipeScan.start expression).run name none expression).map (Operand.inBytes expression)) :=
    start.run?
  rw [operandsOfBytes, run, Option.map_some, pipedOperands, List.map_mergeSort]
  intro one member two _
  exact decide_eq_decide.2 (byteAt_le_iff (start.run none one member).2).symm

/-- An operand can be cut out of the expression where it says that it stands. -/
theorem slice?_of_mem_pipedOperands {operand : Operand} (member : operand ∈ pipedOperands expression name) :
    slice? expression (byteAt expression operand.start)
      (byteAt expression operand.start + byteCount operand.text) = some operand.text := by
  obtain ⟨behind, spelled⟩ := (isStretch_of_mem member).split
  exact slice?_eq_some_iff.2 ⟨_, behind, spelled, rfl, rfl⟩

/-- **The scanners come to an end and cut nothing out of place.**  Where the ranges to be skipped end at places of
the template, the search by bytes finds the interpolations in no more rounds than the template has bytes, and one;
and the scan of the bytes of any expression finds what is handed to the pipe. Each offset at which they cut is a
place of the text, and each cut ends where it starts or behind that, or there would be no result. Every body and
every operand stands in its text where it says. -/
theorem scans_in_place {skipped : List Range} {template : List Char}
    (placed : ∀ range ∈ skipped, IsPlace template range.stop) (expression name : List Char) :
    (∀ rounds, byteCount template < rounds →
      findBodies skipped template rounds 0 = some (interpolations skipped template)) ∧
    (∀ item ∈ interpolations skipped template,
      slice? template item.offset (item.offset + item.text.utf8ByteSize) = some item.text.toList) ∧
    operandsOfBytes expression name = some ((pipedOperands expression name).map (Operand.inBytes expression)) ∧
    ∀ operand ∈ pipedOperands expression name,
      slice? expression (byteAt expression operand.start)
        (byteAt expression operand.start + byteCount operand.text) = some operand.text :=
  ⟨fun _ => findBodies_start placed, fun _ => slice?_of_mem_interpolations, operandsOfBytes_eq expression name,
    fun _ => slice?_of_mem_pipedOperands⟩

/-- `<!--{{ä-->{{'\é'|t}}` -/
def escapedInQuotes : List Char := "<!--\x7b\x7bä-->\x7b\x7b'\\é'|t\x7d\x7d".toList

/-- Behind a comment a backslash takes along the first of the two bytes of the character behind it. -/
theorem scans_in_place_escaped :
    IsPlace escapedInQuotes 11 ∧
      findBodies [⟨0, 11⟩] escapedInQuotes 23 0 = some [⟨13, "'\\é'|t"⟩] ∧
      operandsOfBytes "'\\é'|t".toList ['t'] = some [⟨0, "'\\é'".toList⟩] := by
  have place : IsPlace escapedInQuotes 11 :=
    ⟨escapedInQuotes.take 10, escapedInQuotes.drop 10, by decide, by decide⟩
  have placed : ∀ range ∈ [Range.mk 0 11], IsPlace escapedInQuotes range.stop := List.forall_mem_singleton.2 place
  obtain ⟨bodies, -, operands, -⟩ := scans_in_place placed "'\\é'|t".toList ['t']
  exact ⟨place, (bodies 23 (by decide)).trans (by decide +kernel), operands.trans (by decide +kernel)⟩

end MessageKeys.Template
