import Mathlib.Data.List.Basic
import Mathlib.Data.List.Nodup
import MessageKeys.KeyTable
/-!
# Proofs.KeyTable.Entries — what each operation does to the entries

A table is known by its keys in order (`keys`) and by what it holds for each of them (`get?`):
tables that agree on both have the same entries (`toList_eq_of`). Every operation is
described by these two views, so that later proofs look neither at the array nor at the index.
-/
namespace MessageKeys.KeyTable

/-! ## The two views -/

section View

variable (table : KeyTable)

theorem mem_toList_iff_get? (key : String) (value : Wording) :
    (key, value) ∈ table.toList ↔ table.get? key = some value := by
  unfold toList get?
  rw [Array.mem_toList_iff, Array.mem_iff_getElem?]
  constructor
  · rintro ⟨i, at_⟩
    have found := (table.index_iff key i).2 ⟨value, at_⟩
    simp [found, at_]
  · intro held
    cases found : table.index[key]? with
    | none => simp [found] at held
    | some i =>
        obtain ⟨old, at_⟩ := (table.index_iff key i).1 found
        simp only [found, at_, Option.map_some, Option.some.injEq] at held
        exact ⟨i, held ▸ at_⟩

theorem mem_keys_iff (key : String) : key ∈ table.keys ↔ ∃ value, table.get? key = some value := by
  simp only [keys, List.mem_map, Prod.exists, mem_toList_iff_get?]
  exact ⟨fun ⟨_, value, held, same⟩ => ⟨value, same ▸ held⟩, fun ⟨value, held⟩ => ⟨_, value, held, rfl⟩⟩

theorem get?_eq_none_iff (key : String) : table.get? key = none ↔ key ∉ table.keys := by
  rw [mem_keys_iff, Option.eq_none_iff_forall_ne_some]
  simp

theorem index_isSome_iff (key : String) : (table.index[key]?).isSome ↔ key ∈ table.keys := by
  rw [mem_keys_iff, Option.isSome_iff_exists]
  constructor
  · rintro ⟨i, found⟩
    obtain ⟨value, at_⟩ := (table.index_iff key i).1 found
    exact ⟨value, by simp [get?, found, at_]⟩
  · rintro ⟨value, held⟩
    cases found : table.index[key]? with
    | none => simp [get?, found] at held
    | some i => exact ⟨i, rfl⟩

theorem index_eq_none_iff (key : String) : table.index[key]? = none ↔ key ∉ table.keys := by
  rw [← index_isSome_iff, Option.not_isSome_iff_eq_none]

@[simp] theorem contains_iff (key : String) : table.contains key = true ↔ key ∈ table.keys := by
  rw [contains, Std.HashMap.contains_eq_isSome_getElem?, index_isSome_iff]

/-- No key comes twice: the index has only one place for it. -/
theorem nodup_keys : table.keys.Nodup := by
  rw [keys, toList, List.Nodup, List.pairwise_map, List.pairwise_iff_getElem]
  intro i j hi hj less same
  have first := (table.index_iff _ i).2 ⟨table.entries[i].2, Array.getElem?_eq_getElem hi⟩
  have second := (table.index_iff _ j).2 ⟨table.entries[j].2, Array.getElem?_eq_getElem hj⟩
  have places : some i = some j := first.symm.trans ((congrArg (table.index[·]?) same).trans second)
  exact absurd (Option.some.inj places) (Nat.ne_of_lt less)

/-- The wording of a key; none where the table has none for it. -/
def wording (key : String) : Wording := (table.get? key).join

theorem wording_of_mem {key : String} {value : Wording} (member : (key, value) ∈ table.toList) :
    table.wording key = value := by
  rw [wording, (table.mem_toList_iff_get? key value).1 member, Option.join_some]

theorem wording_of_notMem {key : String} (absent : key ∉ table.keys) : table.wording key = none := by
  rw [wording, (table.get?_eq_none_iff key).2 absent, Option.join_none]

theorem wording_eq_some_iff {key text : String} :
    table.wording key = some text ↔ table.get? key = some (some text) :=
  Option.join_eq_some_iff

theorem wording_of_unset {table : KeyTable}
    (unset : ∀ key ∈ table.keys, table.get? key = some none) (key : String) :
    table.wording key = none := by
  by_cases member : key ∈ table.keys
  · rw [wording, unset key member, Option.join_some]
  · exact table.wording_of_notMem member

theorem get?_of_mem {key : String} (member : key ∈ table.keys) :
    table.get? key = some (table.wording key) := by
  obtain ⟨value, held⟩ := (table.mem_keys_iff key).1 member
  rw [wording, held, Option.join_some]

/-- The entries are the keys with their wordings. -/
theorem toList_eq_map_keys : table.toList = table.keys.map fun key => (key, table.wording key) := by
  rw [keys, List.map_map]
  conv => lhs; rw [← List.map_id table.toList]
  apply List.map_congr_left
  intro entry member
  exact Prod.ext rfl (table.wording_of_mem member).symm

end View

/-- Tables with the same keys and wordings have the same entries. -/
theorem toList_eq_of {a b : KeyTable} (sameKeys : a.keys = b.keys)
    (sameWordings : ∀ key ∈ a.keys, a.wording key = b.wording key) : a.toList = b.toList := by
  rw [toList_eq_map_keys a, toList_eq_map_keys b, ← sameKeys]
  exact List.map_congr_left fun key member => by rw [sameWordings key member]

theorem size_congr {a b : KeyTable} (same : a.toList = b.toList) : a.size = b.size :=
  congrArg List.length same

/-- The same in any order. -/
theorem toList_perm_of {a b : KeyTable} (sameKeys : a.keys.Perm b.keys)
    (sameWordings : ∀ key ∈ a.keys, a.wording key = b.wording key) : a.toList.Perm b.toList := by
  have words : a.keys.map (fun key => (key, a.wording key)) =
      a.keys.map fun key => (key, b.wording key) :=
    List.map_congr_left fun key member => by rw [sameWordings key member]
  rw [toList_eq_map_keys a, toList_eq_map_keys b, words]
  exact sameKeys.map _

theorem wording_of_perm {a b : KeyTable} (perm : a.toList.Perm b.toList) (key : String) :
    a.wording key = b.wording key := by
  have same : a.get? key = b.get? key := by
    ext value
    rw [← mem_toList_iff_get?, ← mem_toList_iff_get?, perm.mem_iff]
  rw [wording, wording, same]

/-! ## Setting and adding -/

@[simp] theorem toList_empty : (∅ : KeyTable).toList = [] := rfl

@[simp] theorem keys_empty : (∅ : KeyTable).keys = [] := rfl

@[simp] theorem wording_empty (key : String) : (∅ : KeyTable).wording key = none :=
  wording_of_notMem _ (by simp)

section Change

variable (table : KeyTable)

theorem toList_set_of_notMem {key : String} (value : Wording) (absent : key ∉ table.keys) :
    (table.set key value).toList = table.toList ++ [(key, value)] := by
  have unlisted := (table.index_eq_none_iff key).2 absent
  unfold set
  split
  · rename_i i found
    rw [unlisted] at found
    cases found
  · simp [push, toList]

theorem keys_set_of_notMem {key : String} (value : Wording) (absent : key ∉ table.keys) :
    (table.set key value).keys = table.keys ++ [key] := by
  simp [keys, toList_set_of_notMem table value absent]

theorem get?_set (key other : String) (value : Wording) :
    (table.set key value).get? other = if other = key then some value else table.get? other := by
  unfold set
  split
  · rename_i i found
    have within := table.lt_size_of_index found
    by_cases same : other = key
    · subst same
      simp [get?, overwrite, found, within]
    · rw [if_neg same, get?, get?, overwrite]
      cases there : table.index[other]? with
      | none => rfl
      | some j =>
          obtain ⟨held, at_⟩ := (table.index_iff key i).1 found
          obtain ⟨elsewhere, at'⟩ := (table.index_iff other j).1 there
          have apart : i ≠ j := by
            rintro rfl
            rw [at_] at at'
            exact same (congrArg Prod.fst (Option.some.inj at')).symm
          simp [apart]
  · rename_i absent
    by_cases same : other = key
    · subst same
      simp [get?, push]
    · simp only [get?, push, Std.HashMap.getElem?_insert, same, if_false, beq_iff_eq, Ne.symm same]
      cases there : table.index[other]? with
      | none => rfl
      | some j =>
          have earlier := table.lt_size_of_index there
          simp [Array.getElem?_push, Nat.ne_of_lt earlier]

theorem wording_set (key other : String) (value : Wording) :
    (table.set key value).wording other = if other = key then value else table.wording other := by
  rw [wording, get?_set, wording]
  split <;> simp

theorem keys_set_of_mem {key : String} (value : Wording) (member : key ∈ table.keys) :
    (table.set key value).keys = table.keys := by
  unfold set
  split
  · rename_i i found
    obtain ⟨old, at_⟩ := (table.index_iff key i).1 found
    have here : table.keys[i]? = some key := by simp [keys, toList, at_]
    obtain ⟨within, same⟩ := List.getElem?_eq_some_iff.1 here
    have kept : table.keys.set i key = table.keys := by
      rw [← same, List.set_getElem_self]
    simpa [keys, toList, overwrite, List.map_set] using kept
  · rename_i unlisted
    exact absurd member ((table.index_eq_none_iff key).1 unlisted)

theorem addKey_of_mem {key : String} (member : key ∈ table.keys) : table.addKey key = table := by
  unfold addKey
  split
  · rfl
  · rename_i absent
    exact absurd member ((table.index_eq_none_iff key).1 absent)

theorem addKey_of_notMem {key : String} (absent : key ∉ table.keys) :
    table.addKey key = table.set key none := by
  have unlisted := (table.index_eq_none_iff key).2 absent
  unfold addKey set
  split
  · rename_i i found
    rw [unlisted] at found
    cases found
  · rfl

@[simp] theorem wording_addKey (key other : String) :
    (table.addKey key).wording other = table.wording other := by
  by_cases member : key ∈ table.keys
  · rw [addKey_of_mem table member]
  · rw [addKey_of_notMem table member, wording_set]
    split
    · rename_i same
      rw [same, wording_of_notMem table member]
    · rfl

@[simp] theorem wording_addKeys (keys : List String) (other : String) :
    (table.addKeys keys).wording other = table.wording other := by
  unfold addKeys
  induction keys generalizing table with
  | nil => rfl
  | cons key keys ih => rw [List.foldl_cons, ih, wording_addKey]

end Change

/-! ## Tables of lists -/

theorem toList_foldl_set (entries : List (String × Wording)) (table : KeyTable)
    (fresh : ∀ key ∈ entries.map (·.1), key ∉ table.keys) (distinct : (entries.map (·.1)).Nodup) :
    (entries.foldl (fun table entry => table.set entry.1 entry.2) table).toList =
      table.toList ++ entries := by
  induction entries generalizing table with
  | nil => simp
  | cons entry entries ih =>
      simp only [List.map_cons, List.nodup_cons, List.forall_mem_cons] at fresh distinct
      have put := toList_set_of_notMem table entry.2 fresh.1
      rw [List.foldl_cons, ih _ _ distinct.2, put, List.append_assoc, List.singleton_append]
      intro key member
      rw [keys_set_of_notMem table entry.2 fresh.1, List.mem_append, List.mem_singleton]
      rintro (old | rfl)
      · exact fresh.2 key member old
      · exact distinct.1 member

/-- Entries with distinct keys stay as they are. -/
theorem toList_ofList {entries : List (String × Wording)} (distinct : (entries.map (·.1)).Nodup) :
    (ofList entries).toList = entries :=
  toList_foldl_set entries ∅ (by simp) distinct

@[simp] theorem wording_ofKeys (keys : List String) (key : String) :
    (ofKeys keys).wording key = none :=
  (wording_addKeys ∅ keys key).trans (wording_empty key)

theorem get?_ofKeys {keys : List String} {key : String} (member : key ∈ (ofKeys keys).keys) :
    (ofKeys keys).get? key = some none := by
  rw [get?_of_mem _ member, wording_ofKeys]

/-! ## Filtering, mapping and sorting -/

theorem toList_filter (keep : String → Wording → Bool) (table : KeyTable) :
    (table.filter keep).toList = table.toList.filter fun entry => keep entry.1 entry.2 :=
  toList_ofList ((List.filter_sublist.map _).nodup table.nodup_keys)

theorem toList_mapValues (f : String → Wording → Wording) (table : KeyTable) :
    (table.mapValues f).toList = table.toList.map fun entry => (entry.1, f entry.1 entry.2) := by
  apply toList_ofList
  rw [List.map_map]
  exact table.nodup_keys

@[simp] theorem keys_mapValues (f : String → Wording → Wording) (table : KeyTable) :
    (table.mapValues f).keys = table.keys := by
  rw [keys, toList_mapValues, List.map_map]
  rfl

theorem wording_mapValues (f : String → Wording → Wording) (table : KeyTable) {key : String}
    (member : key ∈ table.keys) : (table.mapValues f).wording key = f key (table.wording key) := by
  apply wording_of_mem
  rw [toList_mapValues, List.mem_map]
  obtain ⟨value, held⟩ := (table.mem_keys_iff key).1 member
  have entry := (table.mem_toList_iff_get? key value).2 held
  exact ⟨(key, value), entry, by rw [table.wording_of_mem entry]⟩

theorem keys_intersect (a b : KeyTable) :
    (a.intersect b).keys = a.keys.filter fun key => b.contains key := by
  rw [keys, intersect, toList_filter, keys, List.filter_map]
  rfl

theorem wording_intersect (a b : KeyTable) {key : String} (member : key ∈ b.keys) :
    (a.intersect b).wording key = a.wording key := by
  have same : (a.intersect b).get? key = a.get? key := by
    ext value
    rw [← mem_toList_iff_get?, intersect, toList_filter, List.mem_filter, contains_iff,
      mem_toList_iff_get?]
    exact and_iff_left member
  rw [wording, wording, same]

theorem toList_sorted (table : KeyTable) :
    table.sorted.toList = table.toList.mergeSort fun a b => a.1 ≤ b.1 :=
  toList_ofList (((List.mergeSort_perm _ _).map _).nodup_iff.2 table.nodup_keys)

theorem toList_sorted_perm (table : KeyTable) : table.sorted.toList.Perm table.toList := by
  rw [toList_sorted]
  exact List.mergeSort_perm _ _

theorem keys_sorted_perm (table : KeyTable) : table.sorted.keys.Perm table.keys :=
  table.toList_sorted_perm.map _

/-- The keys of a sorted table ascend, none of them twice. -/
theorem keys_sorted_pairwise (table : KeyTable) : table.sorted.keys.Pairwise (· < ·) := by
  have ascending : table.sorted.keys.Pairwise (· ≤ ·) := by
    rw [keys, toList_sorted, List.pairwise_map]
    refine (List.pairwise_mergeSort ?_ ?_ _).imp fun ordered => by simpa using ordered
    · intro a b c first second
      simp only [decide_eq_true_eq] at first second ⊢
      exact String.le_trans first second
    · intro a b
      simpa using String.le_total a.1 b.1
  exact (ascending.and table.sorted.nodup_keys).imp fun ⟨ordered, apart⟩ =>
    Std.lt_of_le_of_ne ordered apart

theorem wording_sorted (table : KeyTable) (key : String) :
    table.sorted.wording key = table.wording key :=
  wording_of_perm table.toList_sorted_perm key

/-- Keys can ascend in one order only. -/
theorem eq_of_ascending {first second : List String} (perm : first.Perm second)
    (one : first.Pairwise (· < ·)) (other : second.Pairwise (· < ·)) : first = second := by
  refine perm.eq_of_pairwise (fun a b _ _ ab ba => ?_) one other
  exact absurd (String.lt_trans ab ba) (String.lt_irrefl a)

/-- The order of the entries is lost in sorting. -/
theorem toList_sorted_congr {a b : KeyTable} (perm : a.toList.Perm b.toList) :
    a.sorted.toList = b.sorted.toList := by
  have sameKeys : a.sorted.keys = b.sorted.keys :=
    eq_of_ascending ((keys_sorted_perm a).trans ((perm.map _).trans (keys_sorted_perm b).symm))
      (keys_sorted_pairwise a) (keys_sorted_pairwise b)
  refine toList_eq_of sameKeys fun key _ => ?_
  rw [wording_sorted, wording_sorted, wording_of_perm perm]

end MessageKeys.KeyTable
