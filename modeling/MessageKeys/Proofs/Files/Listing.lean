import Mathlib.Data.List.Induction
import Mathlib.Data.List.Nodup
import MessageKeys.Proofs.Files.Spelling
/-!
# Proofs.Files.Listing — what is listed below a location

The ways down from a location are those to whatever lies below it (`mem_ways_iff`), in ascending order and
none twice. So where a tree has more than another one, its ways are the other ones and some more, and
leaving these out gives back the list (`filter_ways`). Following a way leads where it says.
-/
namespace MessageKeys.Files

namespace Tree

variable {tree : Tree} {location : Location}

/-- The ways down from a location. -/
def ways (tree : Tree) (location : Location) : List Location := (tree.below location).map (·.1)

theorem mem_below_iff {way : Location} {entry : Entry} :
    (way, entry) ∈ tree.below location ↔ way ≠ [] ∧ tree.at? (location ++ way) = some entry := by
  unfold below
  simp only [List.mem_mergeSort, List.mem_map, List.mem_filter, Bool.and_eq_true,
    List.isPrefixOf_iff_prefix, decide_eq_true_eq, Prod.mk.injEq]
  constructor
  · rintro ⟨⟨place, held⟩, ⟨listed, ⟨rest, shape⟩, deeper⟩, rfl, rfl⟩
    simp only at shape deeper ⊢
    subst shape
    rw [List.drop_left]
    have longer : rest ≠ [] := by
      rintro rfl
      simp at deeper
    exact ⟨longer, (at?_eq_some_iff _ (by simp [longer]) _).2 listed⟩
  · rintro ⟨longer, found⟩
    refine ⟨(location ++ way, entry), ⟨?_, List.prefix_append _ _, ?_⟩, by simp, rfl⟩
    · exact (at?_eq_some_iff _ (by simp [longer]) _).1 found
    · simpa [List.length_pos_iff] using longer

theorem mem_ways_iff {way : Location} :
    way ∈ tree.ways location ↔ way ≠ [] ∧ (tree.at? (location ++ way)).isSome := by
  simp only [ways, List.mem_map, Prod.exists, mem_below_iff, Option.isSome_iff_exists]
  constructor
  · rintro ⟨_, entry, ⟨longer, found⟩, rfl⟩
    exact ⟨longer, entry, found⟩
  · rintro ⟨longer, entry, found⟩
    exact ⟨way, entry, ⟨longer, found⟩, rfl⟩

theorem nodup_ways : (tree.ways location).Nodup := by
  have perm : (tree.ways location).Perm
      ((tree.entries.filter fun entry => location.isPrefixOf entry.1 &&
        location.length < entry.1.length).map fun entry => entry.1.drop location.length) := by
    have sorted := (List.mergeSort_perm ((tree.entries.filter fun entry =>
      location.isPrefixOf entry.1 && location.length < entry.1.length).map fun entry =>
        (entry.1.drop location.length, entry.2))
      fun a b => decide (a.1 < b.1) || a.1 == b.1).map Prod.fst
    rw [List.map_map] at sorted
    exact sorted
  have listed := (List.filter_sublist (l := tree.entries) (p := fun entry =>
    location.isPrefixOf entry.1 && location.length < entry.1.length)).map (·.1) |>.nodup tree.distinct
  rw [perm.nodup_iff]
  refine List.Nodup.map_on (fun first one second other same => ?_) listed.of_map
  have start : ∀ entry ∈ tree.entries.filter fun entry => location.isPrefixOf entry.1 &&
      location.length < entry.1.length, entry.1 = location ++ entry.1.drop location.length := by
    intro entry member
    have before := (Bool.and_eq_true _ _ ▸ (List.mem_filter.1 member).2).1
    obtain ⟨rest, shape⟩ := List.isPrefixOf_iff_prefix.1 before
    rw [← shape, List.drop_left]
  have location_ : first.1 = second.1 := by
    rw [start first one, start second other, same]
  exact List.inj_on_of_nodup_map listed one other location_

/-- The ways ascend. -/
theorem pairwise_ways : (tree.ways location).Pairwise (· < ·) := by
  have ascending : (tree.ways location).Pairwise fun a b => a < b ∨ a = b := by
    rw [ways, below, List.pairwise_map]
    refine (List.pairwise_mergeSort ?_ ?_ _).imp fun ordered => by simpa using ordered
    · intro a b c first second
      simp only [Bool.or_eq_true, decide_eq_true_eq, beq_iff_eq] at first second ⊢
      rcases first with less | same
      · rcases second with less' | same'
        · exact Or.inl (List.lt_trans less less')
        · exact Or.inl (same' ▸ less)
      · rw [same]
        exact second
    · intro a b
      simp only [Bool.or_eq_true, decide_eq_true_eq, beq_iff_eq]
      by_cases less : a.1 < b.1
      · exact Or.inl (Or.inl less)
      · by_cases more : b.1 < a.1
        · exact Or.inr (Or.inl more)
        · exact Or.inl (Or.inr (Std.Trichotomous.trichotomous
            (r := (· < · : List String → List String → Prop)) _ _ less more))
  exact (ascending.and nodup_ways).imp fun ⟨ordered, apart⟩ => ordered.resolve_right apart

/-- The ways of a tree are among those of one that has more, in the same order. -/
theorem filter_ways {old new : Tree}
    (more : ∀ place, (old.at? place).isSome → (new.at? place).isSome) (location : Location) :
    (new.ways location).filter (fun way => (old.at? (location ++ way)).isSome) =
      old.ways location := by
  have perm : ((new.ways location).filter fun way => (old.at? (location ++ way)).isSome).Perm
      (old.ways location) := by
    refine (List.perm_ext_iff_of_nodup (nodup_ways.filter _) nodup_ways).2 fun way => ?_
    rw [List.mem_filter, mem_ways_iff, mem_ways_iff]
    exact ⟨fun ⟨⟨longer, _⟩, there⟩ => ⟨longer, there⟩,
      fun ⟨longer, there⟩ => ⟨⟨longer, more _ there⟩, there⟩⟩
  refine List.Perm.eq_of_pairwise (fun a b _ _ less more => ?_) (pairwise_ways.filter _)
    pairwise_ways perm
  exact absurd (List.lt_trans less more) (List.lt_irrefl a)

/-- Whatever is there has names on the way to it. -/
theorem names_of_at? (there : (tree.at? location).isSome) :
    ∀ name ∈ location, isEntryName name := by
  induction location using List.reverseRecOn with
  | nil => simp
  | append_singleton above name ih =>
      obtain ⟨named, directory⟩ := tree.parts_of_at? there
      intro other member
      rcases List.mem_append.1 member with earlier | last
      · exact ih (by rw [(tree.isDirectory_iff above).1 directory]; rfl) other earlier
      · rw [List.mem_singleton.1 last]
        exact named

end Tree

namespace Disk

variable {disk : Disk} {path : PathName} {here : Location}

theorem leads_name {name : String} (there : (disk.tree.at? (here ++ [name])).isSome) :
    disk.leads here name ∧ next here name = here ++ [name] := by
  obtain ⟨named, directory⟩ := disk.tree.parts_of_at? there
  simp only [isEntryName, Bool.and_eq_true, Bool.not_eq_true', bne_iff_ne, ne_eq] at named
  obtain ⟨⟨⟨full, up⟩, legal⟩, -⟩ := named
  exact ⟨(leads_name_iff full up).2 ⟨directory, legal, there⟩, next_name full up⟩

/-- A way to something can be followed. -/
theorem follow_way {way : Location} (there : (disk.tree.at? (here ++ way)).isSome) :
    disk.follow here way = .ok (here ++ way) := by
  induction way using List.reverseRecOn with
  | nil => rw [follow, List.append_nil]
  | append_singleton way name ih =>
      rw [← List.append_assoc] at there
      obtain ⟨-, directory⟩ := disk.tree.parts_of_at? there
      obtain ⟨on, place⟩ := leads_name there
      have before := ih (by rw [(Tree.isDirectory_iff _ _).1 directory]; rfl)
      rw [follow_append_iff]
      exact ⟨_, before, follow_cons_iff.2 ⟨on, by rw [place, follow, List.append_assoc]⟩⟩

/-- Names joined by slashes are the parts of the path they make. -/
theorem segments_joinStrings {names : List String} (some_ : names ≠ [])
    (plain : ∀ name ∈ names, isEntryName name) :
    (PathName.mk (Text.joinStrings '/' names)).segments = names := by
  refine Text.splitString_joinStrings some_ fun name member => ?_
  have named := plain name member
  simp only [isEntryName, Bool.and_eq_true, Bool.not_eq_true'] at named
  simpa using named.2

/-- A path whose parts are names is not empty and starts nowhere but where it is seen from. -/
theorem relative_of_names {names : List String} (some_ : names ≠ [])
    (plain : ∀ name ∈ names, isEntryName name) :
    (Text.joinStrings '/' names).isEmpty = false ∧
      (PathName.mk (Text.joinStrings '/' names)).isAbsolute = false := by
  have segments := segments_joinStrings some_ plain
  have noEmpty : "" ∉ names := by
    intro member
    have named := plain "" member
    revert named
    decide
  refine ⟨?_, ?_⟩
  · rw [Bool.eq_false_iff]
    intro empty
    have blank : Text.joinStrings '/' names = "" := by simpa using empty
    have none_ : (PathName.mk "").segments = [""] := rfl
    rw [blank, none_] at segments
    exact noEmpty (segments ▸ List.mem_singleton_self "")
  · rw [Bool.eq_false_iff]
    intro absolute
    have first := head_of_isAbsolute absolute
    rw [segments] at first
    exact noEmpty (List.mem_of_mem_head? first)

/-- What is listed below a path lies where its way says. -/
theorem locate_way (found : disk.locate path = .ok here) {way : Location} (longer : way ≠ [])
    (there : (disk.tree.at? (here ++ way)).isSome) :
    disk.locate (Glob.child path (Text.joinStrings '/' way)) = .ok (here ++ way) ∧
      (Glob.child path (Text.joinStrings '/' way)).text.isEmpty = false := by
  have plain : ∀ name ∈ way, isEntryName name := fun name member =>
    Tree.names_of_at? there name (List.mem_append_right _ member)
  obtain ⟨filled, relative⟩ := relative_of_names longer plain
  have named := text_ne_empty_of_locate found
  have shown := text_child_isEmpty named filled relative
  refine ⟨(locate_child_iff named relative).2 ⟨shown, here, found, ?_⟩, shown⟩
  rw [segments_joinStrings longer plain]
  exact follow_way there

end Disk
end MessageKeys.Files
