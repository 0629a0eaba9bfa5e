import Mathlib.Data.List.Sort
import MessageKeys.Proofs.KeyTable.Algebra
import MessageKeys.Proofs.Text.ByteOrder
/-!
# Proofs.KeyTable.Reference — a table is an ordered list of entries

`Entries` is a table said without an index: a list in which every operation looks for keys from the
front. A `Build` says how a table is made, from nothing or from a list, by any operations, with
tables made in the same way as their second operands. Whatever the build, the table and the list agree
entry by entry, and the index of the table leads to the places in that list (`Build.table_exact`).
-/
namespace MessageKeys
open Occurrences

/-- Entries in order. -/
abbrev Entries := List (String × Wording)

namespace Entries

variable (entries : Entries)

def names : List String := entries.map (·.1)

/-- Adds a key at the end unless it is there. -/
def addKey (key : String) : Entries :=
  if key ∈ names entries then entries else entries ++ [(key, none)]

/-- Adds at the end, each once, those of the keys that are not there. -/
def addKeys (keys : List String) : Entries :=
  entries ++ (keys.removeAll (names entries)).eraseDups.map fun key => (key, none)

/-- Gives a key a wording in its place; a key that is not there goes to the end. -/
def set (key : String) (value : Wording) : Entries :=
  if key ∈ names entries then
    entries.map fun entry => if entry.1 = key then (key, value) else entry
  else entries ++ [(key, value)]

/-- Each key once, in its first place and with its last wording. -/
def collect (pairs : List (String × Wording)) : Entries :=
  (names pairs).eraseDups.map fun key => (key, (pairs.reverse.lookup key).join)

/-- The entries of `a`, worded by `b` where they have no wording, and then those that only `b` has. -/
def merge (a b : Entries) : Entries :=
  (a.map fun entry => (entry.1, entry.2.or (b.lookup entry.1).join)) ++
    b.filter fun entry => entry.1 ∉ names a

def removeKeys (keys : List String) : Entries := entries.filter fun entry => entry.1 ∉ keys

def intersect (a b : Entries) : Entries := a.filter fun entry => entry.1 ∈ names b

def filter (keep : String → Wording → Bool) : Entries :=
  List.filter (fun entry => keep entry.1 entry.2) entries

def mapValues (f : String → Wording → Wording) : Entries :=
  entries.map fun entry => (entry.1, f entry.1 entry.2)

/-- The bytes of the first key are not greater than those of the second one. -/
def Ascends (a b : String × Wording) : Prop := Text.bytes a.1 ≤ Text.bytes b.1

instance : DecidableRel Ascends := fun a b =>
  inferInstanceAs (Decidable (Text.bytes a.1 ≤ Text.bytes b.1))

theorem ascends_iff (a b : String × Wording) : Ascends a b ↔ a.1 ≤ b.1 := by
  rw [Ascends, ← List.not_lt, ← Text.lt_iff_bytes_lt, String.not_lt]

instance : Std.Total Ascends := ⟨fun a b => by
  rw [ascends_iff, ascends_iff]
  exact String.le_total a.1 b.1⟩

instance : IsTrans (String × Wording) Ascends := ⟨fun a b c => by
  rw [ascends_iff, ascends_iff, ascends_iff]
  exact String.le_trans⟩

def sorted : Entries := entries.insertionSort Ascends

end Entries

/-- How a table is made. -/
inductive Build where
  | new
  | collect (pairs : List (String × Wording))
  | collectKeys (keys : List String)
  | addKey (start : Build) (key : String)
  | addKeys (start : Build) (keys : List String)
  | addValue (start : Build) (key : String) (value : Wording)
  | merge (a b : Build)
  | removeKeys (start : Build) (keys : List String)
  | intersect (a b : Build)
  | filter (start : Build) (keep : String → Wording → Bool)
  | mapValues (start : Build) (f : String → Wording → Wording)
  | sorted (start : Build)

namespace Build

/-- The table that is made. -/
def table : Build → KeyTable
  | .new => ∅
  | .collect pairs => .ofList pairs
  | .collectKeys keys => .ofKeys keys
  | .addKey start key => start.table.addKey key
  | .addKeys start keys => start.table.addKeys keys
  | .addValue start key value => start.table.set key value
  | .merge a b => a.table.merge b.table
  | .removeKeys start keys => start.table.removeKeys keys
  | .intersect a b => a.table.intersect b.table
  | .filter start keep => start.table.filter keep
  | .mapValues start f => start.table.mapValues f
  | .sorted start => start.table.sorted

/-- The list that is made in the same way. -/
def entries : Build → Entries
  | .new => []
  | .collect pairs => .collect pairs
  | .collectKeys keys => .addKeys [] keys
  | .addKey start key => .addKey start.entries key
  | .addKeys start keys => .addKeys start.entries keys
  | .addValue start key value => .set start.entries key value
  | .merge a b => .merge a.entries b.entries
  | .removeKeys start keys => .removeKeys start.entries keys
  | .intersect a b => .intersect a.entries b.entries
  | .filter start keep => .filter start.entries keep
  | .mapValues start f => .mapValues start.entries f
  | .sorted start => .sorted start.entries

end Build

namespace KeyTable

/-! ## One operation -/

section Step

variable (table : KeyTable)

@[simp] theorem names_toList : Entries.names table.toList = table.keys := rfl

theorem toList_addKey (key : String) :
    (table.addKey key).toList = Entries.addKey table.toList key := by
  by_cases member : key ∈ table.keys
  · rw [addKey_of_mem table member, Entries.addKey, names_toList, if_pos member]
  · rw [addKey_of_notMem table member, toList_set_of_notMem table none member, Entries.addKey,
      names_toList, if_neg member]

theorem toList_addKeys (keys : List String) :
    (table.addKeys keys).toList = Entries.addKeys table.toList keys := by
  have late : ∀ key ∈ (keys.removeAll table.keys).eraseDups, key ∉ table.keys := by
    intro key member
    simp only [List.mem_eraseDups, List.removeAll, List.mem_filter] at member
    simpa using member.2
  rw [toList_eq_map_keys, keys_addKeys, List.eraseDups_append, eraseDups_of_nodup table.nodup_keys,
    List.map_append]
  simp only [wording_addKeys]
  rw [← toList_eq_map_keys, Entries.addKeys, names_toList]
  congr 1
  exact List.map_congr_left fun key member => by rw [wording_of_notMem table (late key member)]

theorem toList_set (key : String) (value : Wording) :
    (table.set key value).toList = Entries.set table.toList key value := by
  by_cases member : key ∈ table.keys
  · rw [Entries.set, names_toList, if_pos member, toList_eq_map_keys,
      keys_set_of_mem table value member, toList_eq_map_keys table, List.map_map]
    refine List.map_congr_left fun other _ => ?_
    rw [wording_set]
    by_cases same : other = key
    · simp [same]
    · simp [same]
  · rw [toList_set_of_notMem table value member, Entries.set, names_toList, if_neg member]

theorem toList_merge (other : KeyTable) :
    (table.merge other).toList = Entries.merge table.toList other.toList := by
  have looked : ∀ key, (other.toList.lookup key).join = other.wording key := by
    intro key
    rw [← get?_eq_lookup, wording]
  have old : (table.keys.map fun key => (key, (table.merge other).wording key)) =
      table.toList.map fun entry => (entry.1, entry.2.or (other.toList.lookup entry.1).join) := by
    rw [toList_eq_map_keys table, List.map_map]
    refine List.map_congr_left fun key _ => ?_
    simp only [Function.comp_apply]
    rw [wording_merge, looked]
  have fresh : ((other.keys.filter (· ∉ table.keys)).map fun key =>
      (key, (table.merge other).wording key)) = other.toList.filter fun entry => entry.1 ∉ table.keys := by
    rw [toList_eq_map_keys other, List.filter_map]
    refine List.map_congr_left fun key member => ?_
    have absent : key ∉ table.keys := by simpa using (List.mem_filter.1 member).2
    rw [wording_merge, wording_of_notMem table absent, Option.none_or]
  rw [toList_eq_map_keys (table.merge other), keys_merge, List.map_append, old, fresh]
  rfl

theorem toList_removeKeys (keys : List String) :
    (table.removeKeys keys).toList = Entries.removeKeys table.toList keys := by
  rw [removeKeys, toList_filter, Entries.removeKeys]
  exact List.filter_congr fun entry _ => by simp

theorem toList_intersect (other : KeyTable) :
    (table.intersect other).toList = Entries.intersect table.toList other.toList := by
  rw [intersect, toList_filter, Entries.intersect]
  refine List.filter_congr fun entry _ => ?_
  rw [Bool.eq_iff_iff, contains_iff, decide_eq_true_eq]
  rfl

/-- Keys are distinct, so there is only one ascending order of the entries. -/
theorem toList_sorted_eq : table.sorted.toList = Entries.sorted table.toList := by
  have ascending : table.sorted.toList.Pairwise Entries.Ascends := by
    have byKeys := table.keys_sorted_pairwise
    rw [keys, List.pairwise_map] at byKeys
    exact byKeys.imp fun less => (Entries.ascends_iff _ _).2 (Std.le_of_lt less)
  have sameEntries : table.sorted.toList.Perm table.toList := by
    rw [toList_sorted]
    exact List.mergeSort_perm _ _
  have perm : table.sorted.toList.Perm (Entries.sorted table.toList) :=
    sameEntries.trans (List.perm_insertionSort _ _).symm
  refine perm.eq_of_pairwise ?_ ascending (List.pairwise_insertionSort _ _)
  intro a b first second below above
  have sameKey : a.1 = b.1 :=
    String.le_antisymm ((Entries.ascends_iff a b).1 below) ((Entries.ascends_iff b a).1 above)
  have held := table.wording_of_mem (sameEntries.mem_iff.1 first)
  have held' := table.wording_of_mem (sameEntries.mem_iff.1 (perm.mem_iff.2 second))
  rw [← sameKey, held] at held'
  exact Prod.ext sameKey held'

end Step

theorem ofList_concat (pairs : List (String × Wording)) (pair : String × Wording) :
    ofList (pairs ++ [pair]) = (ofList pairs).set pair.1 pair.2 := by
  rw [ofList, List.foldl_append]
  rfl

theorem keys_ofList (pairs : List (String × Wording)) :
    (ofList pairs).keys = (pairs.map (·.1)).eraseDups := by
  induction pairs using List.reverseRecOn with
  | nil => rfl
  | append_singleton pairs pair ih =>
      rw [ofList_concat, List.map_append, List.map_singleton, eraseDups_concat, ← ih]
      by_cases member : pair.1 ∈ (ofList pairs).keys
      · have earlier : pair.1 ∈ pairs.map (·.1) := by simpa [ih] using member
        rw [if_pos earlier, keys_set_of_mem _ _ member]
      · have new : pair.1 ∉ pairs.map (·.1) := by simpa [ih] using member
        rw [if_neg new, keys_set_of_notMem _ _ member]

/-- The last wording of a key counts. -/
theorem wording_ofList (pairs : List (String × Wording)) (key : String) :
    (ofList pairs).wording key = (pairs.reverse.lookup key).join := by
  induction pairs using List.reverseRecOn with
  | nil => exact wording_empty key
  | append_singleton pairs pair ih =>
      rw [ofList_concat, wording_set, ih, List.reverse_append, List.reverse_singleton,
        List.singleton_append, List.lookup_cons]
      by_cases same : key = pair.1
      · simp [same]
      · rw [if_neg same, beq_false_of_ne same]

theorem toList_ofList_eq (pairs : List (String × Wording)) :
    (ofList pairs).toList = Entries.collect pairs := by
  rw [toList_eq_map_keys, keys_ofList, Entries.collect]
  exact List.map_congr_left fun key _ => by rw [wording_ofList]

example : Entries.collect [("a", none), ("b", none), ("a", some "x")] = [("a", some "x"), ("b", none)] := by
  decide

end KeyTable

namespace Build

/-- Every operation on a table is the one on its list of entries. -/
theorem toList_table (build : Build) : build.table.toList = build.entries := by
  induction build with
  | new => rfl
  | collect pairs => exact KeyTable.toList_ofList_eq pairs
  | collectKeys keys => exact KeyTable.toList_addKeys _ keys
  | addKey start key ih => rw [table, entries, KeyTable.toList_addKey, ih]
  | addKeys start keys ih => rw [table, entries, KeyTable.toList_addKeys, ih]
  | addValue start key value ih => rw [table, entries, KeyTable.toList_set, ih]
  | merge a b first second => rw [table, entries, KeyTable.toList_merge, first, second]
  | removeKeys start keys ih => rw [table, entries, KeyTable.toList_removeKeys, ih]
  | intersect a b first second => rw [table, entries, KeyTable.toList_intersect, first, second]
  | filter start keep ih => rw [table, entries, KeyTable.toList_filter, ih, Entries.filter]
  | mapValues start f ih => rw [table, entries, KeyTable.toList_mapValues, ih, Entries.mapValues]
  | sorted start ih => rw [table, entries, KeyTable.toList_sorted_eq, ih]

/-- **A table is its list of entries.**  However it is made, it holds the entries that the list made in
the same way holds, in the same order, and no key twice. Its index has exactly their keys, leads each
to its place and never beyond the entries; so looking a key up finds what a search from the front
finds, and the size is the number of distinct keys. -/
theorem table_exact (build : Build) :
    build.table.toList = build.entries ∧
    (Entries.names build.entries).Nodup ∧
    (∀ (key : String) (i : Nat), build.table.index[key]? = some i ↔ ∃ value, build.entries[i]? = some (key, value)) ∧
    (∀ key : String, (build.table.index[key]?).all (· < build.table.entries.size)) ∧
    (∀ key, build.table.get? key = build.entries.lookup key) ∧
    (∀ key, build.table.contains key = build.entries.any (·.1 == key)) ∧
    build.table.size = (Entries.names build.entries).eraseDups.length := by
  have same := toList_table build
  have distinct : (Entries.names build.entries).Nodup := by
    rw [← same]
    exact build.table.nodup_keys
  refine ⟨same, distinct, fun key i => ?_, fun key => ?_, fun key => ?_, fun key => ?_, ?_⟩
  · rw [build.table.index_iff, ← same, KeyTable.toList, Array.getElem?_toList]
  · cases found : build.table.index[key]? with
    | none => rfl
    | some i => simpa using build.table.lt_size_of_index found
  · rw [build.table.get?_eq_lookup, same]
  · rw [Bool.eq_iff_iff, KeyTable.contains_iff, ← same]
    simp [KeyTable.keys]
  · rw [eraseDups_of_nodup distinct, ← same]
    simp [KeyTable.size, KeyTable.toList, Entries.names]

end Build
end MessageKeys
