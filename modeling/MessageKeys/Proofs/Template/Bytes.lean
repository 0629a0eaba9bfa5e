import MessageKeys.Proofs.Template.Interpolation
import MessageKeys.Proofs.Text.ByteOrder
/-!
# Proofs.Template.Bytes — texts by their bytes

An offset is a place of a text only if it lies between two of its characters. `slice?` cuts a text at two offsets,
and gives nothing where one of them is no place or they are the wrong way round (`slice?_eq_some_iff`). A character
below U+0080 is one byte that has its code, and any other one is made up of bytes that are no characters
(`encodeChar_cases`). So whoever looks for such characters only may read bytes, and even step into the middle of a
character (`run_of_high`, `run_tail`).
-/
namespace MessageKeys.Template

/-! ## Places and slices -/

/-- The text in front of an offset and the text behind it, if the offset is a place of the text. -/
def cutAt? : Nat → List Char → Option (List Char × List Char)
  | 0, text => some ([], text)
  | _ + 1, [] => none
  | offset + 1, c :: text =>
    if c.utf8Size ≤ offset + 1 then
      (cutAt? (offset + 1 - c.utf8Size) text).map fun cut => (c :: cut.1, cut.2)
    else none

theorem cutAt?_append (front behind : List Char) :
    cutAt? (byteCount front) (front ++ behind) = some (front, behind) := by
  induction front with
  | nil => cases behind <;> rfl
  | cons c front ih =>
      have one := c.utf8Size_pos
      obtain ⟨offset, same⟩ : ∃ offset, c.utf8Size + byteCount front = offset + 1 :=
        ⟨_, (Nat.succ_pred (by omega)).symm⟩
      have left : offset + 1 - c.utf8Size = byteCount front := by omega
      rw [byteCount, same, List.cons_append, cutAt?, if_pos (by omega), left, ih]
      rfl

theorem cutAt?_eq_some_iff {offset : Nat} {text front behind : List Char} :
    cutAt? offset text = some (front, behind) ↔ text = front ++ behind ∧ byteCount front = offset := by
  refine ⟨fun cut => ?_, ?_⟩
  · induction text generalizing offset front with
    | nil =>
        cases offset with
        | zero => cases cut; exact ⟨rfl, rfl⟩
        | succ offset => cases cut
    | cons c text ih =>
        cases offset with
        | zero => cases cut; exact ⟨rfl, rfl⟩
        | succ offset =>
            rw [cutAt?, Option.ite_none_right_eq_some] at cut
            obtain ⟨fits, cut⟩ := cut
            obtain ⟨⟨inner, after⟩, later, same⟩ := Option.map_eq_some_iff.1 cut
            cases same
            obtain ⟨rfl, bytes⟩ := ih later
            exact ⟨rfl, by rw [byteCount, bytes]; omega⟩
  · rintro ⟨rfl, rfl⟩
    exact cutAt?_append front behind

/-- The offset lies between two characters of the text, or at one of its ends. -/
def IsPlace (text : List Char) (offset : Nat) : Prop :=
  ∃ front behind, text = front ++ behind ∧ byteCount front = offset

theorem IsPlace.le {text : List Char} {offset : Nat} (place : IsPlace text offset) : offset ≤ byteCount text := by
  obtain ⟨front, behind, rfl, rfl⟩ := place
  rw [byteCount_append]
  exact Nat.le_add_right ..

/-- The text from one offset to another one, if that can be cut out. -/
def slice? (text : List Char) (first past : Nat) : Option (List Char) :=
  if first ≤ past then
    (cutAt? first text).bind fun cut => (cutAt? (past - first) cut.2).map Prod.fst
  else none

/-- **What can be cut out.**  The two offsets are places of the text, in this order, and what is cut out stands
between them. -/
theorem slice?_eq_some_iff {text part : List Char} {first past : Nat} :
    slice? text first past = some part ↔
      ∃ front behind, text = front ++ (part ++ behind) ∧ byteCount front = first ∧
        past = first + byteCount part := by
  rw [slice?, Option.ite_none_right_eq_some]
  constructor
  · rintro ⟨ordered, found⟩
    obtain ⟨⟨front, rest⟩, cut, found⟩ := Option.bind_eq_some_iff.1 found
    obtain ⟨⟨inside, behind⟩, cut', same⟩ := Option.map_eq_some_iff.1 found
    cases same
    obtain ⟨rfl, rfl⟩ := cutAt?_eq_some_iff.1 cut
    obtain ⟨rfl, bytes⟩ := cutAt?_eq_some_iff.1 cut'
    refine ⟨front, behind, rfl, rfl, ?_⟩
    simp only at bytes ⊢
    omega
  · rintro ⟨front, behind, rfl, rfl, rfl⟩
    have width : byteCount front + byteCount part - byteCount front = byteCount part := by omega
    refine ⟨Nat.le_add_right .., ?_⟩
    rw [cutAt?_append, Option.bind_some, width, cutAt?_append]
    rfl

/-- The text from an offset on. -/
theorem slice?_rest (front behind : List Char) :
    slice? (front ++ behind) (byteCount front) (byteCount (front ++ behind)) = some behind :=
  slice?_eq_some_iff.2 ⟨front, [], by rw [List.append_nil], rfl, byteCount_append ..⟩

/-! ## Characters as bytes -/

/-- The bytes of a text in UTF-8. -/
def utf8 (text : List Char) : List UInt8 := text.flatMap String.utf8EncodeChar

/-- A byte as the character that has it for its code. -/
def byteChar (b : UInt8) : Char := Char.ofNat b.toNat

/-- The byte is no character of its own, but belongs to one of several bytes. -/
def IsHigh (b : UInt8) : Prop := 0x80 ≤ b.toNat

theorem IsHigh.byteChar_ne {b : UInt8} (high : IsHigh b) {c : Char} (ascii : c.toNat < 0x80) : byteChar b ≠ c := by
  rintro rfl
  have valid : b.toNat.isValidChar := .inl (Nat.lt_of_lt_of_le b.toNat_lt (by decide))
  rw [byteChar, Char.ofNat, dif_pos valid] at ascii
  exact absurd ascii (Nat.not_lt.2 high)

/-- **How a character is spelled.**  It is one byte with its code, or several bytes that are no characters. -/
theorem encodeChar_cases (c : Char) :
    (c.utf8Size = 1 ∧ ∃ b, String.utf8EncodeChar c = [b] ∧ byteChar b = c) ∨
      (0x80 ≤ c.toNat ∧ ∀ b ∈ String.utf8EncodeChar c, IsHigh b) := by
  rcases Nat.lt_or_ge c.toNat 0x80 with ascii | high
  · have one : c.utf8Size = 1 := by
      rw [Char.utf8Size_eq_one_iff, UInt32.le_iff_toNat_le]
      exact Nat.le_of_lt_succ ascii
    refine .inl ⟨one, _, String.utf8EncodeChar_eq_singleton one, ?_⟩
    have code : (c.val.toUInt8).toNat = c.toNat := by
      rw [UInt32.toNat_toUInt8]
      exact Nat.mod_eq_of_lt (Nat.lt_trans ascii (by decide))
    rw [byteChar, code, Char.ofNat_toNat]
  · refine .inr ⟨high, ?_⟩
    have bound := Text.toNat_lt_of_char c
    have high' : 0x80 ≤ c.val.toNat := high
    unfold String.utf8EncodeChar
    generalize c.val.toNat = v at *
    dsimp only
    repeat' split
    all_goals
      simp only [List.forall_mem_cons, IsHigh, UInt8.toNat_ofNat', Nat.reducePow,
        List.not_mem_nil, false_imp_iff, implies_true, and_true]
      omega

theorem utf8_nil : utf8 [] = [] := rfl

theorem utf8_cons (c : Char) (text : List Char) : utf8 (c :: text) = String.utf8EncodeChar c ++ utf8 text :=
  List.flatMap_cons

theorem utf8_cons_ascii {c : Char} (ascii : c.toNat < 0x80) (text : List Char) :
    ∃ b, utf8 (c :: text) = b :: utf8 text ∧ byteChar b = c := by
  rcases encodeChar_cases c with ⟨-, b, spelled, same⟩ | ⟨high, -⟩
  · exact ⟨b, by rw [utf8_cons, spelled]; rfl, same⟩
  · exact absurd ascii (Nat.not_lt.2 high)

/-- The first byte tells whether a text begins with a character below U+0080. -/
theorem head?_utf8 {c : Char} (ascii : c.toNat < 0x80) (text : List Char) :
    (utf8 text).head?.map byteChar = some c ↔ text.head? = some c := by
  cases text with
  | nil => rfl
  | cons d text =>
      rw [utf8_cons, List.head?_cons, Option.some.injEq]
      rcases encodeChar_cases d with ⟨-, b, spelled, rfl⟩ | ⟨high, bytes⟩
      · rw [spelled]
        simp
      · obtain ⟨b, later, spelled⟩ := List.exists_cons_of_ne_nil (Text.encodeChar_ne_nil d)
        rw [spelled, List.forall_mem_cons] at bytes
        rw [spelled, List.cons_append, List.head?_cons, Option.map_some, Option.some.injEq]
        refine iff_of_false (bytes.1.byteChar_ne ascii) ?_
        rintro rfl
        exact absurd ascii (Nat.not_lt.2 high)

/-! ## Reading bytes instead of characters -/

section Passing

variable {α : Type} {run : Nat → List UInt8 → α}

/-- Whoever steps over each byte that is no character steps over all of them. -/
theorem run_append_high (passes : ∀ place b bytes, IsHigh b → run place (b :: bytes) = run (place + 1) bytes)
    {front : List UInt8} (high : ∀ b ∈ front, IsHigh b) (place : Nat) (bytes : List UInt8) :
    run place (front ++ bytes) = run (place + front.length) bytes := by
  induction front generalizing place with
  | nil => rfl
  | cons b front ih =>
      rw [List.forall_mem_cons] at high
      rw [List.cons_append, passes _ _ _ high.1, ih high.2, List.length_cons, Nat.add_assoc,
        Nat.add_comm 1]

/-- So it steps over a character of several bytes. -/
theorem run_of_high (passes : ∀ place b bytes, IsHigh b → run place (b :: bytes) = run (place + 1) bytes)
    {c : Char} (high : ∀ b ∈ String.utf8EncodeChar c, IsHigh b) (place : Nat) (text : List Char) :
    run place (utf8 (c :: text)) = run (place + c.utf8Size) (utf8 text) := by
  rw [utf8_cons, run_append_high passes high, String.length_utf8EncodeChar]

/-- And having stepped over the first byte of a character, whatever it is, it comes to the end of it. -/
theorem run_tail (passes : ∀ place b bytes, IsHigh b → run place (b :: bytes) = run (place + 1) bytes)
    (c : Char) (place : Nat) (text : List Char) :
    run (place + 1) (utf8 (c :: text)).tail = run (place + c.utf8Size) (utf8 text) := by
  rw [utf8_cons]
  rcases encodeChar_cases c with ⟨one, b, spelled, -⟩ | ⟨-, high⟩
  · rw [spelled, one]
    rfl
  · obtain ⟨b, later, spelled⟩ := List.exists_cons_of_ne_nil (Text.encodeChar_ne_nil c)
    have size : later.length + 1 = c.utf8Size := by
      rw [← String.length_utf8EncodeChar, spelled, List.length_cons]
    rw [spelled, List.forall_mem_cons] at high
    rw [spelled, List.cons_append, List.tail_cons, run_append_high passes high.2]
    congr 1
    omega

end Passing

end MessageKeys.Template
