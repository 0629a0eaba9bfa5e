import MessageKeys.Format
import MessageKeys.Proofs.Json.Nesting
import MessageKeys.Proofs.KeyTable.Merge
import MessageKeys.Proofs.Text.Pieces
/-!
# Proofs.Format.Nested — no wording is lost among groups

A table has no text as nested objects if one of its keys lies in a group that is a key as well. This is
looked up among texts, by what stands before a dot; the objects go by paths, the pieces between the dots.
Both say the same: a key lies in a group if the path of the group leads to the key and further
(`inGroup_iff`). So where no conflict is found, the paths of the keys are apart, and everything known of
`Json.Nests` holds of the object that is written (`render_namespacedJson`).
-/
namespace MessageKeys

/-! ## Groups -/

/-- The key lies in this group: its name goes on after the name of the group and a dot. -/
def InGroup (key group : String) : Prop := group.toList ++ ['.'] <+: key.toList

instance (key group : String) : Decidable (InGroup key group) :=
  inferInstanceAs (Decidable (_ <+: _))

/-- No key is a group that another one lies in. -/
def GroupFree (keys : List String) : Prop := ∀ key ∈ keys, ∀ group ∈ keys, ¬ InGroup key group

theorem GroupFree.mono {keys fewer : List String} (free : GroupFree keys) (subset : fewer ⊆ keys) :
    GroupFree fewer :=
  fun key listed group present => free key (subset listed) group (subset present)

/-- No key is a group of itself. -/
theorem groupFree_singleton (key : String) : GroupFree [key] := by
  intro one first other second within
  rw [List.mem_singleton] at first second
  subst first second
  have longer := List.IsPrefix.length_le within
  rw [List.length_append, List.length_singleton] at longer
  omega

theorem mem_keyGroups {group text : List Char} : group ∈ keyGroups text ↔ group ++ ['.'] <+: text := by
  induction text generalizing group with
  | nil => simp [keyGroups]
  | cons c rest ih =>
      cases group with
      | nil =>
          by_cases dot : c = '.'
          · simp [keyGroups, dot]
          · simp [keyGroups, dot, List.cons_prefix_cons, Ne.symm dot]
      | cons first group =>
          -- The groups that begin with a character are those of the rest; a dot adds the empty one.
          have deeper : first :: group ∈ (keyGroups rest).map (c :: ·) ↔
              first :: group ++ ['.'] <+: c :: rest := by
            rw [List.cons_append, List.cons_prefix_cons, List.mem_map]
            constructor
            · rintro ⟨inner, listed, same⟩
              cases same
              exact ⟨rfl, ih.1 listed⟩
            · rintro ⟨rfl, within⟩
              exact ⟨group, ih.2 within, rfl⟩
          rw [← deeper, keyGroups]
          by_cases dot : c = '.'
          · simp [dot]
          · simp [dot]

/-- The groups of a key come with the outermost first. -/
theorem pairwise_keyGroups (text : List Char) :
    (keyGroups text).Pairwise fun outer inner => outer.length < inner.length := by
  induction text with
  | nil => exact .nil
  | cons c rest ih =>
      have deeper : ((keyGroups rest).map (c :: ·)).Pairwise
          fun outer inner => outer.length < inner.length := by
        rw [List.pairwise_map]
        exact ih.imp fun less => Nat.succ_lt_succ less
      rw [keyGroups]
      split
      · refine List.pairwise_cons.2 ⟨fun inner member => ?_, deeper⟩
        obtain ⟨group, -, rfl⟩ := List.mem_map.1 member
        exact Nat.succ_pos _
      · exact deeper

theorem mem_map_keyGroups {key group : String} :
    group ∈ (keyGroups key.toList).map String.ofList ↔ InGroup key group := by
  rw [InGroup, ← mem_keyGroups]
  constructor
  · intro member
    obtain ⟨text, listed, rfl⟩ := List.mem_map.1 member
    rwa [String.toList_ofList]
  · intro member
    exact List.mem_map.2 ⟨_, member, String.ofList_toList⟩

namespace KeyTable

variable (table : KeyTable)

theorem groupConflict?_eq_none_iff {key : String} :
    table.groupConflict? key = none ↔ ∀ group ∈ table.keys, ¬ InGroup key group := by
  rw [groupConflict?, Option.map_eq_none_iff, List.find?_eq_none]
  simp only [contains_iff, mem_map_keyGroups]
  exact ⟨fun absent group listed within => absent group within listed,
    fun absent group within listed => absent group listed within⟩

/-- The group of a conflict is the shortest one that is a key. -/
theorem groupConflict?_eq_some {key : String} {conflict : KeyConflict}
    (found : table.groupConflict? key = some conflict) :
    conflict.key = key ∧ conflict.group ∈ table.keys ∧ InGroup key conflict.group ∧
      ∀ group ∈ table.keys, InGroup key group → conflict.group.length ≤ group.length := by
  obtain ⟨shortest, first, rfl⟩ := Option.map_eq_some_iff.1 found
  obtain ⟨listed, shorter, longer, groups, absent⟩ := List.find?_eq_some_iff_append.1 first
  rw [contains_iff] at listed
  have within : InGroup key shortest := by
    rw [← mem_map_keyGroups, groups]
    simp
  refine ⟨rfl, listed, within, fun group present inside => ?_⟩
  have ascending : ((keyGroups key.toList).map String.ofList).Pairwise
      fun outer inner => outer.length < inner.length := by
    rw [List.pairwise_map]
    exact (pairwise_keyGroups _).imp fun less => by simpa using less
  -- Groups come by length: one before the shortest is no key, and one after it is longer.
  rw [groups] at ascending
  rw [← mem_map_keyGroups, groups, List.mem_append, List.mem_cons] at inside
  rcases inside with before | rfl | after
  · have missing := absent group before
    rw [Bool.not_eq_true', Bool.eq_false_iff, Ne, contains_iff] at missing
    exact absurd present missing
  · exact Nat.le_refl _
  · have later := (List.pairwise_append.1 ascending).2.1
    exact Nat.le_of_lt (List.rel_of_pairwise_cons later after)

theorem conflict?_eq_none_iff : table.conflict? = none ↔ GroupFree table.keys := by
  rw [conflict?, List.findSome?_eq_none_iff]
  exact forall₂_congr fun key _ => groupConflict?_eq_none_iff table

/-- A conflict is that of the first key that lies in a group which is a key. -/
theorem conflict?_eq_some {conflict : KeyConflict} (found : table.conflict? = some conflict) :
    ∃ before after, table.keys = before ++ conflict.key :: after ∧
      (∀ earlier ∈ before, ∀ group ∈ table.keys, ¬ InGroup earlier group) ∧
      conflict.group ∈ table.keys ∧ InGroup conflict.key conflict.group ∧
      ∀ group ∈ table.keys, InGroup conflict.key group → conflict.group.length ≤ group.length := by
  obtain ⟨before, key, after, keys, here, earlier⟩ := List.findSome?_eq_some_iff.1 found
  obtain ⟨rfl, present, within, shortest⟩ := table.groupConflict?_eq_some here
  exact ⟨before, after, keys, fun other member => table.groupConflict?_eq_none_iff.1 (earlier other member),
    present, within, shortest⟩

end KeyTable

/-! ## Paths -/

/-- The pieces of a key between its dots. -/
def keyPath (key : String) : List String := Text.splitString '.' key

theorem keyPath_ne_nil (key : String) : keyPath key ≠ [] := by
  rw [keyPath, Text.splitString, Ne, List.map_eq_nil_iff]
  exact Text.split_ne_nil '.' key.toList

theorem map_toList_keyPath (key : String) :
    (keyPath key).map String.toList = Text.split '.' key.toList := by
  rw [keyPath, Text.splitString, List.map_map]
  exact (List.map_congr_left fun piece _ => String.toList_ofList).trans (List.map_id _)

theorem length_keyPath (key : String) :
    (keyPath key).length = (Text.split '.' key.toList).length := by
  rw [← map_toList_keyPath, List.length_map]

theorem keyPath_injective : Function.Injective keyPath := by
  intro key other same
  have pieces : Text.split '.' key.toList = Text.split '.' other.toList := by
    rw [← map_toList_keyPath, same, map_toList_keyPath]
  rw [← String.toList_inj, ← Text.join_split '.' key.toList, pieces, Text.join_split]

/-- A key lies in a group if its path goes on after that of the group. -/
theorem inGroup_iff {key group : String} :
    InGroup key group ↔ ∃ rest, rest ≠ [] ∧ keyPath key = keyPath group ++ rest := by
  constructor
  · rintro ⟨inner, whole⟩
    have cut : Text.split '.' key.toList = Text.split '.' group.toList ++ Text.split '.' inner := by
      rw [← whole, List.append_assoc]
      exact Text.split_append_mark '.' _ _
    refine ⟨(Text.split '.' inner).map String.ofList, ?_, ?_⟩
    · rw [Ne, List.map_eq_nil_iff]
      exact Text.split_ne_nil '.' inner
    · rw [keyPath, Text.splitString, cut, List.map_append]
      rfl
  · rintro ⟨rest, some_, longer⟩
    have cut : Text.split '.' key.toList = Text.split '.' group.toList ++ rest.map String.toList := by
      rw [← map_toList_keyPath, longer, List.map_append, map_toList_keyPath]
    have inside : rest.map String.toList ≠ [] := by simpa using some_
    have joined := Text.join_append '.' (Text.split_ne_nil '.' group.toList) inside
    rw [← cut, Text.join_split, Text.join_split] at joined
    refine ⟨Text.join '.' (rest.map String.toList), ?_⟩
    rw [joined, List.append_assoc]
    rfl

example : keyPath "b.." = ["b", "", ""] ∧ InGroup "b.." "b" ∧ InGroup "b.." "b." := by decide

/-- The path of one key leads through the end of another one only where there is a group. -/
theorem eq_or_inGroup_of_keyPath_prefix {key other : String} (leads : keyPath other <+: keyPath key) :
    key = other ∨ InGroup key other := by
  obtain ⟨rest, longer⟩ := leads
  by_cases ends : rest = []
  · rw [ends, List.append_nil] at longer
    exact Or.inl (keyPath_injective longer.symm)
  · exact Or.inr (inGroup_iff.2 ⟨rest, ends, longer.symm⟩)

/-! ## Entries as nested objects -/

section Entries

open Json

/-- The object made of entries, as they come. -/
def nestedFields (entries : List (String × Wording)) : List (String × Json) :=
  entries.foldl (fun fields entry => insertAt entry.2.toJson (keyPath entry.1) fields) []

/-- Entries with the paths of their keys. -/
def pathEntries (entries : List (String × Wording)) : Paths :=
  entries.map fun entry => (keyPath entry.1, entry.2.toJson)

theorem isLeaf_toJson (value : Wording) : IsLeaf value.toJson := by
  cases value with
  | none => exact trivial
  | some text => exact trivial

variable {entries : List (String × Wording)}

theorem apart_of_groupFree {entry : String × Wording}
    (distinct : ((entries ++ [entry]).map (·.1)).Nodup)
    (free : GroupFree ((entries ++ [entry]).map (·.1))) :
    Apart (pathEntries entries) (keyPath entry.1) := by
  intro other member
  obtain ⟨old, listed, rfl⟩ := List.mem_map.1 member
  have here : entry.1 ∈ (entries ++ [entry]).map (·.1) := by simp
  have there : old.1 ∈ (entries ++ [entry]).map (·.1) :=
    List.mem_map_of_mem (List.mem_append_left _ listed)
  have unlike : old.1 ≠ entry.1 := by
    rw [List.map_append, List.nodup_append] at distinct
    exact distinct.2.2 old.1 (List.mem_map_of_mem listed) entry.1 (by simp)
  -- Where one path leads through the end of the other, its key lies in the group of that name.
  constructor
  · intro leads
    rcases eq_or_inGroup_of_keyPath_prefix leads with same | within
    · exact unlike same.symm
    · exact free _ here _ there within
  · intro leads
    rcases eq_or_inGroup_of_keyPath_prefix leads with same | within
    · exact unlike same
    · exact free _ there _ here within

/-- Entries whose keys are in no group of each other make their object, in whatever order they come. -/
theorem nests_nestedFields (distinct : (entries.map (·.1)).Nodup) (free : GroupFree (entries.map (·.1))) :
    Nests (pathEntries entries) (.object (nestedFields entries)) := by
  induction entries using List.reverseRecOn with
  | nil => exact nests_nil
  | append_singleton entries entry ih =>
      have before : (entries.map (·.1)).Sublist ((entries ++ [entry]).map (·.1)) :=
        (List.sublist_append_left entries [entry]).map _
      have made := ih (distinct.sublist before) (free.mono before.subset)
      rw [nestedFields, List.foldl_append, pathEntries, List.map_append]
      exact nests_insertAt (isLeaf_toJson entry.2) _ (keyPath_ne_nil entry.1) made
        (apart_of_groupFree distinct free)

/-- The fields hold these entries, and nothing else, below the paths of their keys. -/
structure HoldsEntries (entries : List (String × Wording)) (fields : List (String × Json)) : Prop where
  /-- There is one leaf for each entry, and no other. -/
  leaves : (leafPaths (.object fields)).Perm (pathEntries entries)
  /-- The path of a key leads to its wording. -/
  reached : ∀ entry ∈ entries, at? (keyPath entry.1) (.object fields) = some entry.2.toJson
  /-- In every object the fields come in the order of the first keys below them. -/
  ordered : ∀ path inner, at? path (.object fields) = some (.object inner) →
    inner.map (·.1) = (entries.filterMap fun entry => nextName? path (keyPath entry.1)).eraseDups

theorem holdsEntries_nestedFields (distinct : (entries.map (·.1)).Nodup)
    (free : GroupFree (entries.map (·.1))) : HoldsEntries entries (nestedFields entries) where
  leaves := leafPaths_perm (nests_nestedFields distinct free)
  reached entry member := at?_of_mem (nests_nestedFields distinct free)
    (List.mem_map_of_mem (f := fun entry : String × Wording => (keyPath entry.1, entry.2.toJson)) member)
  ordered path inner leads := by
    rw [names_of_at? (nests_nestedFields distinct free) leads, pathEntries, List.filterMap_map]
    rfl

end Entries

namespace Format

section Render

variable (indentation : String) (table : KeyTable)

theorem render_eq_error_iff (conflict : KeyConflict) :
    namespacedJson.render indentation table = .error conflict ↔ table.conflict? = some conflict := by
  rw [render]
  cases table.conflict? with
  | none => exact ⟨fun same => (by cases same), fun same => (by cases same)⟩
  | some other => exact ⟨fun same => by cases same; rfl, fun same => by cases same; rfl⟩

/-- **Nested objects lose nothing.**  Writing fails if and only if a key lies in a group that is a key. The
conflict it tells of is that of the first such key with the shortest such group. Otherwise the text is
that of an object which holds the entries and nothing else, and which is read from the text again as long
as it is not nested too deep. No entry gets in the way of another one, in whatever order they are put in:
while some of them are there, the place of any other one is vacant. -/
theorem render_namespacedJson :
    ((∃ conflict, namespacedJson.render indentation table = .error conflict) ↔
      ∃ key ∈ table.keys, ∃ group ∈ table.keys, InGroup key group) ∧
    (∀ conflict, namespacedJson.render indentation table = .error conflict →
      ∃ before after, table.keys = before ++ conflict.key :: after ∧
        (∀ earlier ∈ before, ∀ group ∈ table.keys, ¬ InGroup earlier group) ∧
        conflict.group ∈ table.keys ∧ InGroup conflict.key conflict.group ∧
        ∀ group ∈ table.keys, InGroup conflict.key group → conflict.group.length ≤ group.length) ∧
    (GroupFree table.keys →
      (∃ text, namespacedJson.render indentation table = .ok text ∧
        text = (Json.object (nestedFields table.toList)).toPrettyString indentation ++ "\n" ∧
        ((∀ c ∈ indentation.toList, Json.isSpace c) →
          (∀ key ∈ table.keys, (keyPath key).length ≤ Json.maxDepth) →
          Json.ofString? text = some (.object (nestedFields table.toList)))) ∧
      HoldsEntries table.toList (nestedFields table.toList) ∧
      ∀ put rest, (put ++ rest).Perm table.toList →
        HoldsEntries put (nestedFields put) ∧
        ∀ entry ∈ rest, Json.Vacant (keyPath entry.1) (.object (nestedFields put))) := by
  refine ⟨?_, fun conflict failed => ?_, fun free => ⟨?_, ?_, fun put rest order => ?_⟩⟩
  · simp only [render_eq_error_iff]
    rw [← Option.isSome_iff_exists, ← Option.ne_none_iff_isSome, Ne, table.conflict?_eq_none_iff]
    simp only [GroupFree, not_forall, not_not, exists_prop]
  · exact table.conflict?_eq_some ((render_eq_error_iff indentation table conflict).1 failed)
  · have clear := table.conflict?_eq_none_iff.2 free
    have written : namespacedJson.render indentation table =
        .ok (table.toNestedJson.toPrettyString indentation ++ "\n") := by rw [render, clear]
    refine ⟨_, written, rfl, fun blank short => ?_⟩
    have ending : ∀ c ∈ "\n".toList, Json.isSpace c := List.all_eq_true.1 rfl
    refine Json.ofString?_toPrettyString ?_ blank ending
    refine Json.textual_of_nests (nests_nestedFields table.nodup_keys free) ?_ ?_ (Or.inr (by decide))
    · intro entry member
      obtain ⟨⟨key, value⟩, -, rfl⟩ := List.mem_map.1 member
      cases value with
      | none => exact .null 0
      | some text => exact .string 0 text
    · intro entry member
      obtain ⟨⟨key, value⟩, listed, rfl⟩ := List.mem_map.1 member
      exact short key (List.mem_map_of_mem listed)
  · exact holdsEntries_nestedFields table.nodup_keys free
  · have distinct : ((put ++ rest).map (·.1)).Nodup := (order.map _).nodup_iff.2 table.nodup_keys
    have freeAll : GroupFree ((put ++ rest).map (·.1)) := free.mono (order.map _).subset
    have part : (put.map (·.1)).Sublist ((put ++ rest).map (·.1)) :=
      (List.sublist_append_left put rest).map _
    refine ⟨holdsEntries_nestedFields (distinct.sublist part) (freeAll.mono part.subset), ?_⟩
    intro entry member
    -- Whatever is still to come may come next.
    have next : ((put ++ [entry]).map (·.1)).Sublist ((put ++ rest).map (·.1)) :=
      ((List.Sublist.refl put).append (List.singleton_sublist.2 member)).map _
    exact Json.vacant_of_apart (nests_nestedFields (distinct.sublist part) (freeAll.mono part.subset))
      (keyPath_ne_nil entry.1)
      (apart_of_groupFree (distinct.sublist next) (freeAll.mono next.subset))

end Render

/-- Dots at the front, at the end and side by side cut off empty pieces. -/
def manyDots : KeyTable := .ofList [(".a", none), ("b.c", some "x"), ("b..", none)]

/-- Two keys lie in groups that are keys, one of them in two. -/
def groupedTwice : KeyTable := .ofList [("X", none), ("A.B.C", none), ("A.B", none), ("A", some "y")]

theorem render_namespacedJson_dots :
    GroupFree manyDots.keys ∧
    (∃ text, namespacedJson.render " " manyDots = .ok text ∧
      Json.ofString? text = some (.object [("", .object [("a", .null)]),
        ("b", .object [("c", .string "x"), ("", .object [("", .null)])])])) ∧
    HoldsEntries manyDots.toList (nestedFields manyDots.toList) ∧
    Json.Vacant ["b", "c"] (.object (nestedFields [("b..", none)])) ∧
    namespacedJson.render " " groupedTwice = .error ⟨"A.B.C", "A"⟩ ∧
    "A" ∈ groupedTwice.keys ∧ InGroup "A.B.C" "A" := by
  have dots : manyDots.toList = [(".a", none), ("b.c", some "x"), ("b..", none)] :=
    KeyTable.toList_ofList (by decide)
  have keys : manyDots.keys = [".a", "b.c", "b.."] := congrArg (List.map Prod.fst) dots
  have free : GroupFree manyDots.keys := by
    rw [keys]
    unfold GroupFree
    decide
  have short : ∀ key ∈ manyDots.keys, (keyPath key).length ≤ Json.maxDepth := by
    rw [keys]
    decide
  have blank : ∀ c ∈ " ".toList, Json.isSpace c := List.all_eq_true.1 rfl
  have backwards : [("b..", none), ("b.c", some "x"), (".a", none)].Perm manyDots.toList := by
    rw [dots]
    exact List.reverse_perm [(".a", none), ("b.c", some "x"), ("b..", none)]
  have grouped : groupedTwice.keys = ["X", "A.B.C", "A.B", "A"] :=
    congrArg (List.map Prod.fst) (KeyTable.toList_ofList (by decide))
  have contains : groupedTwice.contains = fun key => decide (key ∈ ["X", "A.B.C", "A.B", "A"]) := by
    funext key
    rw [Bool.eq_iff_iff, KeyTable.contains_iff, grouped, decide_eq_true_iff]
  have found : groupedTwice.conflict? = some ⟨"A.B.C", "A"⟩ := by
    rw [KeyTable.conflict?, grouped]
    unfold KeyTable.groupConflict?
    rw [contains]
    decide
  have failed := (render_eq_error_iff " " groupedTwice ⟨"A.B.C", "A"⟩).2 found
  obtain ⟨-, -, written⟩ := render_namespacedJson " " manyDots
  obtain ⟨⟨text, rendered, -, readable⟩, holds, vacant⟩ := written free
  obtain ⟨-, reported, -⟩ := render_namespacedJson " " groupedTwice
  obtain ⟨_, _, _, _, present, within, _⟩ := reported _ failed
  refine ⟨free, ⟨text, rendered, ?_⟩, holds, ?_, failed, present, within⟩
  · rw [readable blank short, dots]
    rfl
  · exact (vacant [("b..", none)] [("b.c", some "x"), (".a", none)] backwards).2 ("b.c", some "x") (by simp)

end Format

end MessageKeys
