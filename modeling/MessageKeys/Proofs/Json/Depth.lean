import MessageKeys.Proofs.Json.Nesting
/-!
# Proofs.Json.Depth — values that are nested too deep

A reader allows arrays and objects to be nested only so deep. What it reads with one limit it reads with
any larger one, and to the same value (`Raw.value?_of_le`), and a path through this value has no more
names than the limit allows (`Raw.length_le_of_at?`). So a printed object is not read again if some path
through it is longer than that (`ofString?_toPrettyString_eq_none`).
-/
namespace MessageKeys.Json

namespace Raw

mutual

theorem value?_of_le {depth deeper : Nat} (le : depth ≤ deeper) {raw : Raw} {value : Json}
    (read : raw.value? depth = some value) : raw.value? deeper = some value := by
  match raw with
  | .null | .bool _ | .number _ | .string _ =>
      simpa only [value?] using read
  | .array items =>
      match depth, deeper with
      | 0, _ => simp [value?] at read
      | depth + 1, deeper + 1 =>
          rw [value?] at read ⊢
          obtain ⟨values, inner, rfl⟩ := Option.map_eq_some_iff.1 read
          rw [values?_of_le (Nat.le_of_succ_le_succ le) inner, Option.map_some]
  | .object fields =>
      match depth, deeper with
      | 0, _ => simp [value?] at read
      | depth + 1, deeper + 1 =>
          rw [value?] at read ⊢
          obtain ⟨values, inner, rfl⟩ := Option.map_eq_some_iff.1 read
          rw [fields?_of_le (Nat.le_of_succ_le_succ le) inner, Option.map_some]

theorem values?_of_le {depth deeper : Nat} (le : depth ≤ deeper) {raws : List Raw} {values : List Json}
    (read : values? depth raws = some values) : values? deeper raws = some values := by
  match raws with
  | [] => simpa only [values?] using read
  | raw :: raws =>
      rw [values?] at read ⊢
      cases first : value? depth raw with
      | none => simp [first] at read
      | some value =>
          simp only [first] at read
          obtain ⟨others, rest, rfl⟩ := Option.map_eq_some_iff.1 read
          simp only [value?_of_le le first, values?_of_le le rest, Option.map_some]

theorem fields?_of_le {depth deeper : Nat} (le : depth ≤ deeper) {before : List (String × Json)}
    {raws : List (Option String × Raw)} {fields : List (String × Json)}
    (read : fields? depth before raws = some fields) : fields? deeper before raws = some fields := by
  match raws with
  | [] => simpa only [fields?] using read
  | (none, _) :: _ => simp [fields?] at read
  | (some name, raw) :: raws =>
      rw [fields?] at read ⊢
      cases first : value? depth raw with
      | none => simp [first] at read
      | some value =>
          simp only [first] at read
          simp only [value?_of_le le first]
          exact fields?_of_le le read

end

/-- A field was there before, or its value was read. -/
theorem exists_of_mem_fields? {depth : Nat} {before fields : List (String × Json)}
    {raws : List (Option String × Raw)} (read : fields? depth before raws = some fields)
    {field : String × Json} (member : field ∈ fields) :
    field ∈ before ∨ ∃ raw : Raw, raw.value? depth = some field.2 := by
  induction raws generalizing before with
  | nil =>
      rw [fields?] at read
      cases read
      exact Or.inl member
  | cons first raws ih =>
      obtain ⟨_ | name, raw⟩ := first
      · simp [fields?] at read
      · rw [fields?] at read
        cases here : value? depth raw with
        | none => simp [here] at read
        | some value =>
            simp only [here] at read
            -- A value may replace an earlier one of its name; the others stay as they were.
            rcases ih read with put | later
            · rcases mem_putField put with rfl | ⟨old, -⟩
              · exact Or.inr ⟨raw, here⟩
              · exact Or.inl old
            · exact Or.inr later

/-- Every name of a path goes through one more object. -/
theorem length_le_of_at? {path : List String} {depth : Nat} {raw : Raw} {value found : Json}
    (read : raw.value? depth = some value) (leads : at? path value = some found) :
    path.length ≤ depth := by
  induction path generalizing depth raw value with
  | nil => exact Nat.zero_le _
  | cons name path ih =>
      cases value with
      | object fields =>
          obtain ⟨inner, looked, deeper⟩ := Option.bind_eq_some_iff.1 leads
          cases raw with
          | object raws =>
              cases depth with
              | zero => simp [value?] at read
              | succ depth =>
                  rw [value?] at read
                  obtain ⟨fields', inside, same⟩ := Option.map_eq_some_iff.1 read
                  cases same
                  rcases exists_of_mem_fields? inside (mem_of_lookup looked) with none_ | ⟨raw, meant⟩
                  · cases none_
                  · exact Nat.succ_le_succ (ih meant deeper)
          | array items => cases depth <;> simp [value?] at read
          | _ => simp [value?] at read
      | _ => cases leads

end Raw

/-- A printed value with a path through more objects than may be nested is not read again. -/
theorem ofString?_toPrettyString_eq_none {depth : Nat} {value found : Json}
    (textual : Textual depth value) {indentation blanks : String}
    (blank : ∀ c ∈ indentation.toList, isSpace c) (ending : ∀ c ∈ blanks.toList, isSpace c)
    {path : List String} (leads : at? path value = some found) (long : maxDepth < path.length) :
    Json.ofString? (value.toPrettyString indentation ++ blanks) = none := by
  obtain ⟨raw, shown, meant⟩ := ofString?_toPrettyString_raw textual blank ending
  rw [Json.ofString?, shown, Option.bind_some, Option.eq_none_iff_forall_ne_some]
  intro other read
  have deep := Raw.length_le_of_at? meant leads
  have within : maxDepth ≤ depth := Nat.le_trans (Nat.le_of_lt long) deep
  have same : other = value :=
    Option.some.inj ((Raw.value?_of_le within read).symm.trans meant)
  have short := Raw.length_le_of_at? read (same ▸ leads)
  omega

end MessageKeys.Json
