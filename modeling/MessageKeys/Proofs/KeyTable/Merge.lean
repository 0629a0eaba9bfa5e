import MessageKeys.Lookup
import MessageKeys.Proofs.KeyTable.Entries
/-!
# Proofs.KeyTable.Merge — two tables in one

`merge` goes through the entries of the second table one by one. What comes out is said
by the two views of a table: the keys are those of the first table and then those that only
the second one holds (`keys_merge`), and the first wording counts (`wording_merge`).
-/
namespace MessageKeys.KeyTable

section Entry

variable (table : KeyTable) (entry : String × Wording)

theorem keys_mergeEntry_of_mem (member : entry.1 ∈ table.keys) :
    (table.mergeEntry entry).keys = table.keys := by
  obtain ⟨value, held⟩ := (table.mem_keys_iff entry.1).1 member
  unfold mergeEntry
  rw [held]
  cases value with
  | some _ => rfl
  | none =>
      simp only
      split
      · exact keys_set_of_mem table entry.2 member
      · rfl

theorem keys_mergeEntry_of_notMem (absent : entry.1 ∉ table.keys) :
    (table.mergeEntry entry).keys = table.keys ++ [entry.1] := by
  unfold mergeEntry
  rw [(table.get?_eq_none_iff entry.1).2 absent]
  exact keys_set_of_notMem table entry.2 absent

/-- A wording stands only where there is none. -/
theorem wording_mergeEntry (key : String) :
    (table.mergeEntry entry).wording key =
      if key = entry.1 then (table.wording key).or entry.2 else table.wording key := by
  unfold mergeEntry
  cases held : table.get? entry.1 with
  | none =>
      rw [wording_set]
      split
      · rename_i same
        rw [wording, same, held, Option.join_none, Option.none_or]
      · rfl
  | some value =>
      cases value with
      | some old =>
          simp only
          split
          · rename_i same
            rw [wording, same, held, Option.join_some, Option.some_or]
          · rfl
      | none =>
          cases fresh : entry.2 with
          | none => simp
          | some new =>
              rw [Option.isSome_some, if_pos rfl, wording_set]
              split
              · rename_i same
                rw [wording, same, held, Option.join_some, Option.none_or]
              · rfl

end Entry

theorem keys_foldl_mergeEntry (entries : List (String × Wording)) (table : KeyTable)
    (distinct : (entries.map (·.1)).Nodup) :
    (entries.foldl mergeEntry table).keys =
      table.keys ++ (entries.map (·.1)).filter (· ∉ table.keys) := by
  induction entries generalizing table with
  | nil => simp
  | cons entry entries ih =>
      simp only [List.map_cons, List.nodup_cons] at distinct
      rw [List.foldl_cons, ih _ distinct.2, List.map_cons]
      by_cases member : entry.1 ∈ table.keys
      · rw [keys_mergeEntry_of_mem table entry member, List.filter_cons_of_neg (by simpa using member)]
      · rw [keys_mergeEntry_of_notMem table entry member,
          List.filter_cons_of_pos (by simpa using member), List.append_assoc, List.singleton_append]
        have others : ∀ key ∈ entries.map (·.1), key ≠ entry.1 := fun key later same =>
          distinct.1 (same ▸ later)
        congr 2
        apply List.filter_congr
        intro key later
        simp [others key later]

theorem wording_foldl_mergeEntry (entries : List (String × Wording)) (table : KeyTable)
    (distinct : (entries.map (·.1)).Nodup) (key : String) :
    (entries.foldl mergeEntry table).wording key =
      (table.wording key).or (entries.lookup key).join := by
  induction entries generalizing table with
  | nil => simp
  | cons entry entries ih =>
      simp only [List.map_cons, List.nodup_cons] at distinct
      rw [List.foldl_cons, ih _ distinct.2, wording_mergeEntry, List.lookup_cons]
      by_cases same : key = entry.1
      · have later : entries.lookup key = none := by
          rw [List.lookup_eq_none_iff]
          intro other member
          rw [same, bne_iff_ne]
          rintro equal
          exact distinct.1 (equal ▸ List.mem_map_of_mem member)
        rw [if_pos same, later, Option.join_none, Option.or_none, same, beq_self_eq_true]
        simp
      · rw [if_neg same, beq_false_of_ne same]

theorem get?_eq_lookup (table : KeyTable) (key : String) :
    table.get? key = table.toList.lookup key := by
  ext value
  rw [← mem_toList_iff_get?]
  exact ⟨lookup_of_mem table.nodup_keys, mem_of_lookup⟩

theorem get?_ofList {entries : List (String × Wording)} (distinct : (entries.map (·.1)).Nodup)
    (key : String) : (ofList entries).get? key = entries.lookup key := by
  rw [get?_eq_lookup, toList_ofList distinct]

/-- The keys of the first table come first, then those that only the second one holds. -/
theorem keys_merge (a b : KeyTable) :
    (a.merge b).keys = a.keys ++ b.keys.filter (· ∉ a.keys) :=
  keys_foldl_mergeEntry b.toList a b.nodup_keys

/-- Where both tables word a key the first one wins. -/
theorem wording_merge (a b : KeyTable) (key : String) :
    (a.merge b).wording key = (a.wording key).or (b.wording key) := by
  rw [merge, wording_foldl_mergeEntry b.toList a b.nodup_keys, ← get?_eq_lookup]
  rfl

theorem mem_keys_merge (a b : KeyTable) (key : String) :
    key ∈ (a.merge b).keys ↔ key ∈ a.keys ∨ key ∈ b.keys := by
  rw [keys_merge, List.mem_append, List.mem_filter, decide_eq_true_eq]
  tauto

@[simp] theorem merge_empty (table : KeyTable) : table.merge ∅ = table := rfl

end MessageKeys.KeyTable
