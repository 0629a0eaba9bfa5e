import MessageKeys.Proofs.KeyTable.Merge
import MessageKeys.Proofs.Occurrences
/-!
# Proofs.KeyTable.Algebra — the laws of merging

A merge is seen through the two views of a table. Its keys are the first occurrences among all keys
(`keys_foldl_merge`), and the wording of a key is the first one that there is (`wording_foldl_merge`).
Both are laws of lists, and so merging is associative, has the empty table as its unit and does
nothing with a table that is there already. It is commutative as far as the set of keys goes, and for
a key that the tables do not word in different ways.
-/
namespace MessageKeys.KeyTable
open Occurrences

/-! ## Adding keys -/

theorem keys_addKey (table : KeyTable) (key : String) :
    (table.addKey key).keys = (table.keys ++ [key]).eraseDups := by
  rw [eraseDups_concat, eraseDups_of_nodup table.nodup_keys]
  by_cases member : key ∈ table.keys
  · rw [if_pos member, addKey_of_mem table member]
  · rw [if_neg member, addKey_of_notMem table member, keys_set_of_notMem table none member]

theorem keys_addKeys (table : KeyTable) (keys : List String) :
    (table.addKeys keys).keys = (table.keys ++ keys).eraseDups := by
  unfold addKeys
  induction keys generalizing table with
  | nil =>
      show table.keys = (table.keys ++ []).eraseDups
      rw [List.append_nil, eraseDups_of_nodup table.nodup_keys]
  | cons key keys ih =>
      rw [List.foldl_cons, ih, keys_addKey, eraseDups_left, List.append_assoc,
        List.singleton_append]

theorem keys_ofKeys (keys : List String) : (ofKeys keys).keys = keys.eraseDups := by
  have start : (empty : KeyTable).keys = [] := rfl
  rw [ofKeys, keys_addKeys, start, List.nil_append]

/-! ## Merges of many tables -/

/-- The keys of both tables, each where it comes first. -/
theorem keys_merge_eq_eraseDups (a b : KeyTable) :
    (a.merge b).keys = (a.keys ++ b.keys).eraseDups := by
  have fresh : b.keys.removeAll a.keys = b.keys.filter (· ∉ a.keys) := by
    unfold List.removeAll
    exact List.filter_congr fun key _ => by simp
  have once : (b.keys.filter (· ∉ a.keys)).Nodup := b.nodup_keys.filter _
  rw [keys_merge, List.eraseDups_append, eraseDups_of_nodup a.nodup_keys, fresh,
    eraseDups_of_nodup once]

theorem keys_foldl_merge (tables : List KeyTable) (start : KeyTable) :
    (tables.foldl merge start).keys = (start.keys ++ tables.flatMap keys).eraseDups := by
  induction tables generalizing start with
  | nil =>
      show start.keys = (start.keys ++ []).eraseDups
      rw [List.append_nil, eraseDups_of_nodup start.nodup_keys]
  | cons table tables ih =>
      rw [List.foldl_cons, ih, keys_merge_eq_eraseDups, eraseDups_left, List.flatMap_cons,
        List.append_assoc]

/-- The first wording counts. -/
theorem wording_foldl_merge (tables : List KeyTable) (start : KeyTable) (key : String) :
    (tables.foldl merge start).wording key =
      (start.wording key).or (tables.findSome? (·.wording key)) := by
  induction tables generalizing start with
  | nil => simp
  | cons table tables ih =>
      rw [List.foldl_cons, ih, wording_merge, List.findSome?_cons, Option.or_assoc]
      cases table.wording key with
      | none => simp
      | some text => simp

/-- What a table holds for a key, by its two views. -/
theorem get?_eq_ite (table : KeyTable) (key : String) :
    table.get? key = if key ∈ table.keys then some (table.wording key) else none := by
  by_cases member : key ∈ table.keys
  · rw [if_pos member, get?_of_mem table member]
  · rw [if_neg member, (table.get?_eq_none_iff key).2 member]

/-- What a merge of tables holds for a key: nothing if no table holds it, else the first wording. -/
theorem get?_foldl_merge (tables : List KeyTable) (key : String) :
    (tables.foldl merge ∅).get? key =
      if ∃ table ∈ tables, key ∈ table.keys then some (tables.findSome? (·.wording key)) else none := by
  have member : key ∈ (tables.foldl merge ∅).keys ↔ ∃ table ∈ tables, key ∈ table.keys := by
    simp [keys_foldl_merge]
  have first : (tables.foldl merge ∅).wording key = tables.findSome? (·.wording key) := by
    simp [wording_foldl_merge]
  rw [get?_eq_ite, first]
  simp only [member]

/-- A merge of many tables may be made in two parts. -/
theorem toList_foldl_merge_append (first second : List KeyTable) :
    ((first ++ second).foldl merge ∅).toList =
      ((first.foldl merge ∅).merge (second.foldl merge ∅)).toList := by
  refine toList_eq_of ?_ fun key _ => ?_
  · simp only [keys_merge_eq_eraseDups, keys_foldl_merge, keys_empty, List.nil_append]
    rw [eraseDups_left, eraseDups_right, List.flatMap_append]
  · simp only [wording_merge, wording_foldl_merge, wording_empty, Option.none_or,
      List.findSome?_append]

/-! ## The laws -/

section Laws

variable (a b c : KeyTable)

theorem toList_merge_assoc : ((a.merge b).merge c).toList = (a.merge (b.merge c)).toList := by
  refine toList_eq_of ?_ fun key _ => ?_
  · simp only [keys_merge_eq_eraseDups]
    rw [eraseDups_left, eraseDups_right, List.append_assoc]
  · simp only [wording_merge, Option.or_assoc]

theorem toList_empty_merge : ((∅ : KeyTable).merge a).toList = a.toList := by
  refine toList_eq_of ?_ fun key _ => ?_
  · simp [keys_merge]
  · simp [wording_merge]

theorem toList_merge_self : (a.merge a).toList = a.toList := by
  refine toList_eq_of ?_ fun key _ => ?_
  · simp [keys_merge]
  · simp [wording_merge]

/-- The two orders of merging differ only where both tables have a wording, and not the same one. -/
theorem get?_merge_comm_iff (key : String) :
    (a.merge b).get? key = (b.merge a).get? key ↔
      ¬ ∃ first second, a.get? key = some (some first) ∧ b.get? key = some (some second) ∧
        first ≠ second := by
  have sameKeys : key ∈ (a.merge b).keys ↔ key ∈ (b.merge a).keys := by
    rw [mem_keys_merge, mem_keys_merge, or_comm]
  have worded : ∀ table : KeyTable, ∀ text, table.get? key = some (some text) ↔
      table.wording key = some text := by
    intro table text
    simp [wording, Option.join_eq_some_iff]
  rw [get?_eq_ite, get?_eq_ite, wording_merge, wording_merge]
  simp only [worded, sameKeys]
  by_cases member : key ∈ (b.merge a).keys
  · simp only [member, if_true, Option.some.injEq]
    cases a.wording key with
    | none => simp
    | some first =>
        cases b.wording key with
        | none => simp
        | some second => simp
  · have unworded := wording_of_notMem _ member
    rw [wording_merge, Option.or_eq_none_iff] at unworded
    simp [member, unworded.1]

end Laws

/-- **Merging is an idempotent, associative union.**  The empty table is its unit on both sides; the keys
of the first table come first, then those that only the second one holds; in a merge of any tables
the first wording of a key counts, and it has none only where none of them words it. The other order
gives the same set of keys, and the same wording wherever the two tables do not contradict each other. -/
theorem merge_laws (a b c : KeyTable) (tables : List KeyTable) :
    ((a.merge b).merge c).toList = (a.merge (b.merge c)).toList ∧
    ((∅ : KeyTable).merge a).toList = a.toList ∧
    (a.merge ∅).toList = a.toList ∧
    (a.merge a).toList = a.toList ∧
    (a.merge b).keys = a.keys ++ b.keys.filter (· ∉ a.keys) ∧
    (∀ key, (tables.foldl merge ∅).get? key =
      if ∃ table ∈ tables, key ∈ table.keys then some (tables.findSome? (·.wording key)) else none) ∧
    (∀ key, key ∈ (a.merge b).keys ↔ key ∈ (b.merge a).keys) ∧
    (∀ key, (a.merge b).get? key = (b.merge a).get? key ↔
      ¬ ∃ first second, a.get? key = some (some first) ∧ b.get? key = some (some second) ∧
        first ≠ second) := by
  refine ⟨toList_merge_assoc a b c, toList_empty_merge a, ?_, toList_merge_self a, keys_merge a b,
    get?_foldl_merge tables, fun key => ?_, get?_merge_comm_iff a b⟩
  · rw [merge_empty]
  · rw [mem_keys_merge, mem_keys_merge, or_comm]

end MessageKeys.KeyTable
