import Mathlib.Algebra.Order.BigOperators.Group.List
import Mathlib.Algebra.Order.Group.Nat
import MessageKeys.Proofs.Format.Flat
import MessageKeys.Proofs.Format.Nested
import MessageKeys.Proofs.Json.Depth
import MessageKeys.Proofs.Json.Leaves
import MessageKeys.Proofs.Text.ByteOrder
/-!
# Proofs.Format.Regrouping — what is read of nested objects

Reading goes through the objects and joins the names on the way to each text. What comes out is known
from the leaves of the object that was written: `regrouped` lists the entries in that order. No entry is
lost on the way, for the names of a key join to the key again unless it starts with a dot
(`joinPath_keyPath`), and entries with ascending keys keep their order, since between two keys of one
group there are only keys of this group (`grouped_of_ascending`).
-/
namespace MessageKeys

/-! ## Names joined again -/

/-- The key that is made of the names on the way to a text. -/
def joinPath (path : List String) : String := path.foldl joinKey ""

theorem toList_foldl_joinKey {path : String} (some_ : path ≠ "") (names : List String) :
    (names.foldl joinKey path).toList = Text.join '.' (path.toList :: names.map String.toList) := by
  induction names generalizing path with
  | nil => rfl
  | cons name names ih =>
      have step : joinKey path name = path ++ "." ++ name := by
        rw [joinKey, if_neg (by simpa using some_)]
      have longer : path ++ "." ++ name ≠ "" := by
        intro nothing
        have characters := congrArg String.toList nothing
        simp at characters
      have shown : (path ++ "." ++ name).toList = path.toList ++ '.' :: name.toList := by simp
      rw [List.foldl_cons, step, ih longer, shown, List.map_cons]
      cases names with
      | nil => rfl
      | cons next names => simp [Text.join]

/-- The path does not lead below an empty outermost name. -/
def Json.Rooted (path : List String) : Prop := path.head? = some "" → path = [""]

/-- Names are joined with dots, but an empty outermost name is left out together with its dot. -/
theorem joinPath_of_rooted {path : List String} (rooted : Json.Rooted path) :
    joinPath path = Text.joinStrings '.' path := by
  cases path with
  | nil => rfl
  | cons first rest =>
      have start : joinKey "" first = first := rfl
      rw [joinPath, List.foldl_cons, start]
      by_cases empty : first = ""
      · subst empty
        cases rooted rfl
        rfl
      · rw [← String.toList_inj, toList_foldl_joinKey empty, Text.joinStrings, String.toList_ofList]
        rfl

theorem joinStrings_keyPath (key : String) : Text.joinStrings '.' (keyPath key) = key := by
  rw [Text.joinStrings, map_toList_keyPath, Text.join_split, String.ofList_toList]

/-- The pieces of a key join to the key again, unless the first one is empty and others follow. -/
theorem joinPath_keyPath {key : String} (plain : key.toList.head? ≠ some '.') :
    joinPath (keyPath key) = key := by
  have whole := map_toList_keyPath key
  rw [joinPath_of_rooted, joinStrings_keyPath]
  intro empty
  obtain ⟨rest, pieces⟩ := List.head?_eq_some_iff.1 empty
  rw [pieces] at whole ⊢
  cases rest with
  | nil => rfl
  | cons next rest =>
      rw [← Text.join_split '.' key.toList, ← whole] at plain
      exact absurd rfl plain

/-! ## Leaves read -/

namespace Json

/-- The wording that a leaf is read as. -/
def leafWording : Json → Wording
  | .string text => Wording.readBack (some text)
  | _ => none

theorem leafWording_toJson (value : Wording) : leafWording value.toJson = value.readBack := by
  cases value with
  | none => rfl
  | some text => rfl

/-- What is read in fields is what is read in each of them. -/
theorem leavesOfFields_eq {fields : List (String × Json)} (path : String)
    (each : ∀ field ∈ fields, ∀ path, leaves path field.2 =
      .ok ((leafPaths field.2).map fun leaf => (leaf.1.foldl joinKey path, leaf.2.leafWording))) :
    leavesOfFields path fields =
      .ok ((fieldPaths fields).map fun leaf => (leaf.1.foldl joinKey path, leaf.2.leafWording)) := by
  induction fields with
  | nil => rfl
  | cons field fields ih =>
      obtain ⟨name, value⟩ := field
      rw [List.forall_mem_cons] at each
      rw [leavesOfFields, each.1, ih each.2, fieldPaths, List.map_append, List.map_map]
      rfl

/-- Reading gives the leaves, each with the key that its path joins to. -/
theorem leaves_eq {depth : Nat} {value : Json} (textual : Textual depth value) (path : String) :
    leaves path value =
      .ok ((leafPaths value).map fun leaf => (leaf.1.foldl joinKey path, leaf.2.leafWording)) := by
  induction textual generalizing path with
  | null depth => rfl
  | string depth text =>
      rw [leaves, ← Wording.readBack_some]
      rfl
  | object distinct inner ih =>
      rw [leaves, leafPaths]
      exact leavesOfFields_eq path ih

end Json

section Entries

open Json

/-- Entries in the order in which they are read from the object that they make. -/
def regrouped (entries : List (String × Wording)) : List (String × Wording) :=
  (leafPaths (.object (nestedFields entries))).map fun leaf => (joinPath leaf.1, leaf.2.leafWording)

variable {entries : List (String × Wording)}

theorem textual_nestedFields {depth : Nat} (distinct : (entries.map (·.1)).Nodup)
    (free : GroupFree (entries.map (·.1))) (some_ : 0 < depth)
    (short : ∀ entry ∈ entries, (keyPath entry.1).length ≤ depth) :
    Textual depth (.object (nestedFields entries)) := by
  refine textual_of_nests (nests_nestedFields distinct free) ?_ ?_ (Or.inr some_)
  · intro leaf member
    obtain ⟨entry, -, rfl⟩ := List.mem_map.1 member
    exact textual_toJson 0 entry.2
  · intro leaf member
    obtain ⟨entry, listed, rfl⟩ := List.mem_map.1 member
    exact short entry listed

theorem map_pathEntries (plain : ∀ entry ∈ entries, entry.1.toList.head? ≠ some '.') :
    (pathEntries entries).map (fun leaf => (joinPath leaf.1, leaf.2.leafWording)) =
      entries.map fun entry => (entry.1, entry.2.readBack) := by
  rw [pathEntries, List.map_map]
  refine List.map_congr_left fun entry member => ?_
  exact Prod.ext (joinPath_keyPath (plain entry member)) (leafWording_toJson entry.2)

/-- No entry is lost and none comes up that was not there. -/
theorem regrouped_perm (distinct : (entries.map (·.1)).Nodup) (free : GroupFree (entries.map (·.1)))
    (plain : ∀ entry ∈ entries, entry.1.toList.head? ≠ some '.') :
    (regrouped entries).Perm (entries.map fun entry => (entry.1, entry.2.readBack)) := by
  rw [← map_pathEntries plain]
  exact (leafPaths_perm (nests_nestedFields distinct free)).map _

/-- In every object the names come up as they did. -/
theorem firstNames_regrouped (distinct : (entries.map (·.1)).Nodup)
    (free : GroupFree (entries.map (·.1)))
    (plain : ∀ entry ∈ entries, entry.1.toList.head? ≠ some '.') (path : List String) :
    firstNames (underPath path (pathEntries (regrouped entries))) =
      firstNames (underPath path (pathEntries entries)) := by
  have nests := nests_nestedFields distinct free
  have alike := alike_leafPaths nests
  have back : ∀ leaf ∈ leafPaths (.object (nestedFields entries)), keyPath (joinPath leaf.1) = leaf.1 := by
    intro leaf member
    obtain ⟨entry, listed, rfl⟩ := List.mem_map.1 (alike.perm.mem_iff.1 member)
    exact congrArg keyPath (joinPath_keyPath (plain entry listed))
  rw [← alike.names path, firstNames_underPath, firstNames_underPath, pathEntries, regrouped,
    List.map_map, List.filterMap_map]
  refine congrArg List.eraseDups (List.filterMap_congr fun leaf member => ?_)
  exact congrArg (nextName? path) (back leaf member)

/-- Entries make the same object in any order in which the names come up alike in every object. -/
theorem nestedFields_eq_of {others : List (String × Wording)} (distinct : (entries.map (·.1)).Nodup)
    (free : GroupFree (entries.map (·.1))) (perm : others.Perm entries)
    (names : ∀ path, firstNames (underPath path (pathEntries others)) =
      firstNames (underPath path (pathEntries entries))) : nestedFields others = nestedFields entries := by
  have keys := perm.map (·.1)
  have one := nests_nestedFields (keys.nodup_iff.2 distinct) (free.mono keys.subset)
  have other := nests_nestedFields distinct free
  have same := one.unique other ⟨perm.map _, names⟩
  injection same

/-! ## Ascending keys -/

/-- What lies between two texts with the same front has this front too. -/
theorem prefix_between {front first middle last : List Char} (below : front <+: first)
    (above : front <+: last) (less : first < middle) (more : middle < last) : front <+: middle := by
  induction front generalizing first middle last with
  | nil => exact List.nil_prefix
  | cons c front ih =>
      obtain ⟨first, rfl⟩ := below
      obtain ⟨last, rfl⟩ := above
      cases middle with
      | nil => exact absurd less (List.not_lt_nil _)
      | cons d middle =>
          rw [List.cons_append, List.cons_lt_cons_iff] at less more
          rcases less with smaller | ⟨rfl, less⟩
          · rcases more with larger | ⟨rfl, -⟩
            · exact absurd larger (Char.lt_asymm smaller)
            · exact absurd smaller (Char.lt_irrefl _)
          · rcases more with larger | ⟨-, more⟩
            · exact absurd larger (Char.lt_irrefl _)
            · rw [List.cons_prefix_cons]
              exact ⟨rfl, ih (List.prefix_append _ _) (List.prefix_append _ _) less more⟩

/-- A front of the path of a key is the path of some key: of itself or of a group that it lies in. -/
theorem exists_keyPath_eq {key : String} {front : List String} (some_ : front ≠ [])
    (below : front <+: keyPath key) :
    ∃ group, keyPath group = front ∧ (key = group ∨ InGroup key group) := by
  have clear : ∀ piece ∈ front.map String.toList, '.' ∉ piece := by
    intro piece member
    have listed : piece ∈ (keyPath key).map String.toList :=
      (below.map String.toList).subset member
    rw [map_toList_keyPath] at listed
    exact Text.notMem_of_mem_split listed
  have path : keyPath (Text.joinStrings '.' front) = front := by
    have filled : front.map String.toList ≠ [] := by simpa using some_
    rw [keyPath, Text.splitString, Text.joinStrings, String.toList_ofList,
      Text.split_join filled clear, List.map_map]
    exact (List.map_congr_left fun piece _ => String.ofList_toList).trans (List.map_id _)
  exact ⟨_, path, eq_or_inGroup_of_keyPath_prefix (path.symm ▸ below)⟩

/-- Between two keys below one path there are only keys below it. -/
theorem grouped_of_ascending (ascending : (entries.map (·.1)).Pairwise (· < ·))
    (free : GroupFree (entries.map (·.1))) : Grouped (pathEntries entries) := by
  intro path first middle last within below above
  have same : (pathEntries entries).map (·.1) = (entries.map (·.1)).map keyPath := by
    simp [pathEntries]
  rw [same] at within
  obtain ⟨keys, listed, shape⟩ := List.sublist_map_iff.1 within
  have three := shape.symm
  simp only [List.map_eq_cons_iff, List.map_eq_nil_iff] at three
  obtain ⟨a, _, rfl, rfl, b, _, rfl, rfl, c, _, rfl, rfl, rfl⟩ := three
  have order := ascending.sublist listed
  simp only [List.pairwise_cons, List.mem_cons, List.not_mem_nil, or_false, forall_eq_or_imp,
    forall_eq] at order
  obtain ⟨⟨ab, ac⟩, bc, -⟩ := order
  have members : a ∈ entries.map (·.1) ∧ c ∈ entries.map (·.1) :=
    ⟨listed.subset (by simp), listed.subset (by simp)⟩
  by_cases some_ : path = []
  · exact some_ ▸ List.nil_prefix
  · obtain ⟨group, rfl, inside⟩ := exists_keyPath_eq some_ below
    -- A key at the end of the path would be a group of the other one.
    have inGroup : InGroup a group ∧ InGroup c group := by
      rcases eq_or_inGroup_of_keyPath_prefix above with rfl | there
      · rcases inside with rfl | here
        · exact absurd ac (String.lt_irrefl _)
        · exact absurd here (free a members.1 c members.2)
      · rcases inside with rfl | here
        · exact absurd there (free c members.2 a members.1)
        · exact ⟨here, there⟩
    have less : a.toList < b.toList := ab
    have more : b.toList < c.toList := bc
    have between : InGroup b group := prefix_between inGroup.1 inGroup.2 less more
    obtain ⟨rest, -, longer⟩ := inGroup_iff.1 between
    exact ⟨rest, longer.symm⟩

/-- Entries with ascending keys are read in their order. -/
theorem regrouped_of_ascending (ascending : (entries.map (·.1)).Pairwise (· < ·))
    (free : GroupFree (entries.map (·.1)))
    (plain : ∀ entry ∈ entries, entry.1.toList.head? ≠ some '.') :
    regrouped entries = entries.map fun entry => (entry.1, entry.2.readBack) := by
  have distinct : (entries.map (·.1)).Nodup := ascending.imp fun less => String.ne_of_lt less
  have leaves := leafPaths_of_grouped (nests_nestedFields distinct free)
    (grouped_of_ascending ascending free)
  rw [regrouped, leaves, map_pathEntries plain]

end Entries

/-! ## Tables -/

namespace Format

variable {indentation : String} {table : KeyTable}

theorem render_eq_ok_iff {text : String} :
    namespacedJson.render indentation table = .ok text ↔ GroupFree table.keys ∧
      text = (Json.object (nestedFields table.toList)).toPrettyString indentation ++ "\n" := by
  rw [← table.conflict?_eq_none_iff, render]
  cases table.conflict? with
  | none =>
      have nested : table.toNestedJson = .object (nestedFields table.toList) := rfl
      simp only [nested, Except.ok.injEq, true_and]
      exact eq_comm
  | some conflict => simp

/-- A table with the same entries has the same text if the names come up alike in every object. -/
theorem render_of_perm {other : KeyTable} {text : String}
    (rendered : namespacedJson.render indentation table = .ok text)
    (perm : other.toList.Perm table.toList)
    (names : ∀ path, Json.firstNames (Json.underPath path (pathEntries other.toList)) =
      Json.firstNames (Json.underPath path (pathEntries table.toList))) :
    namespacedJson.render indentation other = .ok text := by
  obtain ⟨free, rfl⟩ := render_eq_ok_iff.1 rendered
  rw [render_eq_ok_iff, nestedFields_eq_of table.nodup_keys free perm names]
  exact ⟨free.mono (perm.map _).subset, rfl⟩

/-- A table with no more pieces in a key than objects may be nested is read again. -/
theorem parse_nested (blank : ∀ c ∈ indentation.toList, Json.isSpace c) (free : GroupFree table.keys)
    (short : ∀ key ∈ table.keys, (keyPath key).length ≤ Json.maxDepth) :
    namespacedJson.parse
        ((Json.object (nestedFields table.toList)).toPrettyString indentation ++ "\n") =
      .ok (KeyTable.ofList (regrouped table.toList)) := by
  have textual : Json.Textual Json.maxDepth (.object (nestedFields table.toList)) :=
    textual_nestedFields table.nodup_keys free (by decide) fun entry member =>
      short _ (List.mem_map_of_mem member)
  have leaves := Json.leaves_eq textual ""
  rw [Json.leaves] at leaves
  rw [parse, KeyTable.ofJsonText_object textual blank, leaves]
  rfl

/-- A table with more pieces in a key than that is not. -/
theorem parse_nested_deep (blank : ∀ c ∈ indentation.toList, Json.isSpace c)
    (free : GroupFree table.keys) {key : String} (member : key ∈ table.keys)
    (long : Json.maxDepth < (keyPath key).length) :
    namespacedJson.parse
        ((Json.object (nestedFields table.toList)).toPrettyString indentation ++ "\n") =
      .error .notJson := by
  obtain ⟨entry, listed, rfl⟩ := List.mem_map.1 member
  -- Some depth is enough for the text to be read as far as its words go.
  have textual : Json.Textual ((table.toList.map fun entry => (keyPath entry.1).length).sum + 1)
      (.object (nestedFields table.toList)) := by
    refine textual_nestedFields table.nodup_keys free (Nat.succ_pos _) fun other among => ?_
    have below := List.le_sum_of_mem
      (List.mem_map_of_mem (f := fun entry : String × Wording => (keyPath entry.1).length) among)
    exact Nat.le_succ_of_le below
  have reached := (holdsEntries_nestedFields table.nodup_keys free).reached entry listed
  have ending : ∀ c ∈ "\n".toList, Json.isSpace c := List.all_eq_true.1 rfl
  have nothing := Json.ofString?_toPrettyString_eq_none textual blank ending reached long
  rw [parse, KeyTable.ofJsonText, trim_toPrettyString_ne_empty, nothing, if_neg Bool.false_ne_true]

theorem toList_ofList_regrouped (free : GroupFree table.keys)
    (plain : ∀ key ∈ table.keys, key.toList.head? ≠ some '.') :
    (KeyTable.ofList (regrouped table.toList)).toList = regrouped table.toList := by
  have perm := regrouped_perm table.nodup_keys free fun entry member =>
    plain _ (List.mem_map_of_mem member)
  apply KeyTable.toList_ofList
  rw [(perm.map (·.1)).nodup_iff, List.map_map]
  exact table.nodup_keys

/-- **Nested objects read back.**  A text that a table has as nested objects is read again if and only if no
key has more pieces than objects may be nested. If besides no key starts with a dot, the table that is
read holds the same keys with their wordings, an empty one having become none; and the keys are in the
order in which they were if that was the order of their bytes. -/
theorem parse_render_namespacedJson (blank : ∀ c ∈ indentation.toList, Json.isSpace c) {text : String}
    (rendered : namespacedJson.render indentation table = .ok text) :
    ((∃ read, namespacedJson.parse text = .ok read) ↔
      ∀ key ∈ table.keys, (keyPath key).length ≤ Json.maxDepth) ∧
    ((∀ key ∈ table.keys, (keyPath key).length ≤ Json.maxDepth ∧ key.toList.head? ≠ some '.') →
      ∃ read, namespacedJson.parse text = .ok read ∧
        read.toList.Perm (table.toList.map fun entry => (entry.1, entry.2.readBack)) ∧
        (table.keys.Pairwise (fun a b => Text.bytes a < Text.bytes b) →
          read.toList = table.toList.map fun entry => (entry.1, entry.2.readBack))) := by
  obtain ⟨free, rfl⟩ := render_eq_ok_iff.1 rendered
  refine ⟨⟨?_, fun short => ⟨_, parse_nested blank free short⟩⟩, fun fits => ?_⟩
  · rintro ⟨read, parsed⟩ key member
    by_contra long
    rw [parse_nested_deep blank free member (Nat.lt_of_not_le long)] at parsed
    cases parsed
  · have plain : ∀ entry ∈ table.toList, entry.1.toList.head? ≠ some '.' := fun entry member =>
      (fits _ (List.mem_map_of_mem member)).2
    have entries := toList_ofList_regrouped free fun key member => (fits key member).2
    refine ⟨_, parse_nested blank free fun key member => (fits key member).1, ?_, fun sorted => ?_⟩
    · rw [entries]
      exact regrouped_perm table.nodup_keys free plain
    · rw [entries]
      refine regrouped_of_ascending ?_ free plain
      exact sorted.imp fun less => (Text.lt_iff_bytes_lt _ _).2 less

/-- Entries with keys apart from each other are written as the object that they make. -/
theorem render_ofList {entries : List (String × Wording)} (distinct : (entries.map (·.1)).Nodup)
    (free : GroupFree (entries.map (·.1))) :
    namespacedJson.render indentation (.ofList entries) =
      .ok ((Json.object (nestedFields entries)).toPrettyString indentation ++ "\n") := by
  have same := KeyTable.toList_ofList distinct
  rw [render_eq_ok_iff, KeyTable.keys, same]
  exact ⟨free, rfl⟩

/-- Dots at the end and side by side, and a wording that is empty. -/
def trailing : List (String × Wording) := [("a.", some "x"), ("a.b", none), ("b..c", some "")]

theorem parse_render_namespacedJson_trailing :
    (∀ c ∈ " ".toList, Json.isSpace c) ∧
    (∃ text read, namespacedJson.render " " (.ofList trailing) = .ok text ∧
      namespacedJson.parse text = .ok read ∧
      read.toList = [("a.", some "x"), ("a.b", none), ("b..c", none)]) ∧
    ∃ text read, namespacedJson.render " " (.ofList trailing.reverse) = .ok text ∧
      namespacedJson.parse text = .ok read ∧
      read.toList.Perm [("b..c", none), ("a.b", none), ("a.", some "x")] := by
  have blank : ∀ c ∈ " ".toList, Json.isSpace c := List.all_eq_true.1 rfl
  have free : GroupFree (trailing.map (·.1)) := by
    unfold GroupFree
    decide
  have forwards : (KeyTable.ofList trailing).toList = trailing := KeyTable.toList_ofList (by decide)
  have backwards : (KeyTable.ofList trailing.reverse).toList = trailing.reverse :=
    KeyTable.toList_ofList (by decide)
  have rendered : namespacedJson.render " " (.ofList trailing) = _ := render_ofList (by decide) free
  have renderedBack : namespacedJson.render " " (.ofList trailing.reverse) = _ :=
    render_ofList (by decide) (free.mono (by decide))
  obtain ⟨-, whole⟩ := parse_render_namespacedJson blank rendered
  obtain ⟨-, wholeBack⟩ := parse_render_namespacedJson blank renderedBack
  rw [KeyTable.keys, forwards] at whole
  rw [KeyTable.keys, backwards] at wholeBack
  obtain ⟨read, parsed, -, ordered⟩ := whole (by decide)
  obtain ⟨again, parsedBack, entries, -⟩ := wholeBack (by decide)
  exact ⟨blank, ⟨_, read, rendered, parsed, ordered (by decide)⟩, _, again, renderedBack, parsedBack,
    entries⟩

/-- A key in 128 pieces. -/
def manyPieces : String := .ofList ('a' :: List.replicate 127 '.')

theorem length_keyPath_manyPieces : (keyPath manyPieces).length = 128 := by
  have text : manyPieces.toList = 'a' :: List.replicate 127 '.' := String.toList_ofList
  rw [length_keyPath, text]
  decide +kernel

/-- A key that starts with a dot is read without it, and one that is cut into too many pieces is written
but not read. -/
theorem parse_render_namespacedJson_lost :
    (∃ text read, namespacedJson.render "\t" (.ofList [(".a", some "x")]) = .ok text ∧
      namespacedJson.parse text = .ok read ∧ read.toList = [("a", some "x")]) ∧
    ∃ text, namespacedJson.render "\t" (.ofList [(manyPieces, some "x")]) = .ok text ∧
      namespacedJson.parse text = .error .notJson := by
  have blank : ∀ c ∈ "\t".toList, Json.isSpace c := List.all_eq_true.1 rfl
  have alone : ∀ key, (KeyTable.ofList [(key, some "x")]).toList = [(key, some "x")] := fun key =>
    KeyTable.toList_ofList (List.nodup_singleton key)
  have keys : ∀ key, (KeyTable.ofList [(key, some "x")]).keys = [key] := fun key =>
    congrArg (List.map Prod.fst) (alone key)
  have free : ∀ key, GroupFree (KeyTable.ofList [(key, some "x")]).keys := by
    intro key
    rw [keys]
    exact groupFree_singleton key
  constructor
  · have short : ∀ key ∈ (KeyTable.ofList [(".a", some "x")]).keys,
        (keyPath key).length ≤ Json.maxDepth := by
      rw [keys]
      decide
    refine ⟨_, _, render_eq_ok_iff.2 ⟨free _, rfl⟩, parse_nested blank (free _) short, ?_⟩
    rw [alone]
    exact KeyTable.toList_ofList (by decide)
  · have member : manyPieces ∈ (KeyTable.ofList [(manyPieces, some "x")]).keys := by
      rw [keys]
      exact List.mem_singleton_self manyPieces
    have long : Json.maxDepth < (keyPath manyPieces).length := by
      rw [length_keyPath_manyPieces]
      decide
    exact ⟨_, render_eq_ok_iff.2 ⟨free _, rfl⟩, parse_nested_deep blank (free _) member long⟩

end Format

end MessageKeys
