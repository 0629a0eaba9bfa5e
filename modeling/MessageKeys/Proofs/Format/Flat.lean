import MessageKeys.Format.Flat
import MessageKeys.Proofs.Format.ReadBack
import MessageKeys.Proofs.Json.Pretty
import MessageKeys.Proofs.KeyTable.Entries
/-!
# Proofs.Format.Flat — a table written as one JSON object reads back

The object of a table has a field for each key, so it is read again as it was printed, and every field
gives its key with what is left of its wording.
-/
namespace MessageKeys

theorem textual_toJson (depth : Nat) (value : Wording) : Json.Textual depth value.toJson := by
  cases value with
  | none => exact .null depth
  | some text => exact .string depth text

theorem textual_toFlatJson (table : KeyTable) (depth : Nat) :
    Json.Textual (depth + 1) table.toFlatJson := by
  refine .object ?_ fun field member => ?_
  · rw [List.map_map]
    exact table.nodup_keys
  · obtain ⟨entry, -, rfl⟩ := List.mem_map.1 member
    exact textual_toJson depth entry.2

theorem leaves_toJson (path : String) (value : Wording) :
    Json.leaves path value.toJson = .ok [(path, value.readBack)] := by
  cases value with
  | none => rfl
  | some text => rw [Wording.toJson, Json.leaves, Wording.readBack_some]

/-- The fields of a flat object give its entries. -/
theorem leavesOfFields_flat (entries : List (String × Wording)) :
    Json.leavesOfFields "" (entries.map fun (key, value) => (key, Wording.toJson value)) =
      .ok (entries.map fun entry => (entry.1, entry.2.readBack)) := by
  induction entries with
  | nil => rfl
  | cons entry entries ih =>
      have path : joinKey "" entry.1 = entry.1 := rfl
      rw [List.map_cons, Json.leavesOfFields, path, leaves_toJson, ih]
      rfl

theorem trim_ne_empty {first : Char} {rest : List Char} {text : String}
    (shape : text.toList = first :: rest) (visible : Text.isBlank first = false) :
    (Text.trim text).isEmpty = false := by
  have keeps : first ∈ ((first :: rest).reverse.dropWhile Text.isBlank) := by
    rw [List.reverse_cons, List.dropWhile_append]
    split <;> simp [visible]
  have shown : (Text.trim text).toList ≠ [] := by
    rw [Text.trim, String.toList_ofList, Text.trimChars, shape, List.dropWhile_cons, visible,
      if_neg Bool.false_ne_true]
    exact fun none_ => List.ne_nil_of_mem keeps (List.reverse_eq_nil_iff.1 none_)
  rw [Bool.eq_false_iff]
  exact fun empty => shown (by simpa using empty)

/-- The printed lines of an object are no blank text. -/
theorem trim_toPrettyString_ne_empty (fields : List (String × Json)) (indentation : String) :
    (Text.trim ((Json.object fields).toPrettyString indentation ++ "\n")).isEmpty = false := by
  have shape : ∃ rest,
      ((Json.object fields).toPrettyString indentation ++ "\n").toList = '{' :: rest := by
    cases fields <;> exact ⟨_, by simp [Json.toPrettyString, Json.prettyAt]; rfl⟩
  obtain ⟨rest, starts⟩ := shape
  exact trim_ne_empty starts rfl

/-- A printed object is read as the table of its texts. -/
theorem KeyTable.ofJsonText_object {fields : List (String × Json)} {indentation : String}
    (textual : Json.Textual Json.maxDepth (.object fields))
    (blank : ∀ c ∈ indentation.toList, Json.isSpace c) :
    KeyTable.ofJsonText ((Json.object fields).toPrettyString indentation ++ "\n") =
      (Json.leavesOfFields "" fields).map KeyTable.ofList := by
  have ending : ∀ c ∈ "\n".toList, Json.isSpace c := List.all_eq_true.1 rfl
  have back := Json.ofString?_toPrettyString textual blank ending
  rw [ofJsonText, trim_toPrettyString_ne_empty, back, if_neg Bool.false_ne_true]

/-- **A flat table reads back.**  Its entries keep their order, and an empty wording has become none. -/
theorem KeyTable.ofJsonText_toFlatJson (table : KeyTable) {indentation : String}
    (blank : ∀ c ∈ indentation.toList, Json.isSpace c) :
    ∃ read, KeyTable.ofJsonText (table.toFlatJson.toPrettyString indentation ++ "\n") = .ok read ∧
      read.toList = table.toList.map fun entry => (entry.1, entry.2.readBack) := by
  refine ⟨KeyTable.ofList (table.toList.map fun entry => (entry.1, entry.2.readBack)), ?_, ?_⟩
  · rw [toFlatJson, ofJsonText_object (textual_toFlatJson table 126) blank, leavesOfFields_flat]
    rfl
  · apply toList_ofList
    rw [List.map_map]
    exact table.nodup_keys

end MessageKeys
