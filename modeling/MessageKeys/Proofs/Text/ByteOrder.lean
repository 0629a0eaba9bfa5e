import MessageKeys.Text.Split
/-!
# Proofs.Text.ByteOrder — texts are ordered by their bytes

Texts are compared character by character. In UTF-8 a smaller character has smaller bytes, and no
character begins like another one, so the bytes of texts compare in the same way (`lt_iff_bytes_lt`).
-/
namespace MessageKeys.Text

/-- The bytes of a text in UTF-8. -/
def bytes (text : String) : List UInt8 := text.toUTF8.data.toList

theorem bytes_eq_flatMap (text : String) : bytes text = text.toList.flatMap String.utf8EncodeChar := by
  rw [bytes, String.toUTF8_eq_toByteArray, ← String.utf8Encode_toList, List.utf8Encode,
    List.data_toByteArray]

theorem toNat_lt_of_char (c : Char) : c.val.toNat < 0x110000 := by
  have valid := c.valid
  simp only [UInt32.isValidChar, Nat.isValidChar] at valid
  omega

/-- Smaller characters have smaller bytes, whatever follows. -/
theorem encodeChar_append_lt {c d : Char} (less : c < d) (r s : List UInt8) :
    String.utf8EncodeChar c ++ r < String.utf8EncodeChar d ++ s := by
  have small : c.val.toNat < d.val.toNat := less
  have cBound := toNat_lt_of_char c
  have dBound := toNat_lt_of_char d
  unfold String.utf8EncodeChar
  generalize c.val.toNat = v at *
  generalize d.val.toNat = w at *
  -- The first byte tells how many bytes there are; with as many of them the digits decide.
  dsimp only
  repeat' split
  case isFalse.isFalse.isFalse.isFalse.isFalse.isFalse =>
    simp only [List.cons_append, List.nil_append, List.cons_lt_cons_iff, UInt8.lt_iff_toNat_lt,
      ← UInt8.toNat_inj, UInt8.toNat_ofNat', Nat.reducePow]
    rcases Nat.lt_or_ge (v / 4096) (w / 4096) with high | low
    · omega
    · have same : v / 4096 = w / 4096 := by omega
      have first : v / 262144 = w / 262144 := by omega
      rw [same, first]
      omega
  all_goals
    simp only [List.cons_append, List.nil_append, List.cons_lt_cons_iff, UInt8.lt_iff_toNat_lt,
      ← UInt8.toNat_inj, UInt8.toNat_ofNat', Nat.reducePow]
    omega

theorem encodeChar_ne_nil (c : Char) : String.utf8EncodeChar c ≠ [] := by
  unfold String.utf8EncodeChar
  dsimp only
  repeat' split
  all_goals simp

theorem append_lt_append_left (front : List UInt8) {r s : List UInt8} (less : r < s) :
    front ++ r < front ++ s := by
  induction front with
  | nil => exact less
  | cons byte front ih => exact List.cons_lt_cons_iff.2 (Or.inr ⟨rfl, ih⟩)

theorem flatMap_encodeChar_lt {a b : List Char} (less : a < b) :
    a.flatMap String.utf8EncodeChar < b.flatMap String.utf8EncodeChar := by
  induction a generalizing b with
  | nil =>
      cases b with
      | nil => exact absurd less (List.lt_irrefl _)
      | cons d b =>
          obtain ⟨byte, rest, first⟩ := List.exists_cons_of_ne_nil (encodeChar_ne_nil d)
          rw [List.flatMap_nil, List.flatMap_cons, first, List.cons_append]
          exact List.nil_lt_cons _ _
  | cons c a ih =>
      cases b with
      | nil => exact absurd less (List.not_lt_nil _)
      | cons d b =>
          rw [List.flatMap_cons, List.flatMap_cons]
          rcases List.cons_lt_cons_iff.1 less with differ | ⟨rfl, later⟩
          · exact encodeChar_append_lt differ _ _
          · exact append_lt_append_left _ (ih later)

/-- Texts are ordered as their bytes are. -/
theorem lt_iff_bytes_lt (a b : String) : a < b ↔ bytes a < bytes b := by
  have forward : ∀ {a b : String}, a < b → bytes a < bytes b := by
    intro a b less
    rw [bytes_eq_flatMap, bytes_eq_flatMap]
    exact flatMap_encodeChar_lt less
  refine ⟨forward, fun less => String.not_le.1 fun notLess => ?_⟩
  by_cases same : b = a
  · exact List.lt_irrefl _ (same ▸ less)
  · exact List.lt_asymm less (forward (Std.lt_of_le_of_ne notLess same))

end MessageKeys.Text
