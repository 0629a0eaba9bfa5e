import Mathlib.Data.List.TakeWhile
import MessageKeys.Proofs.Files.Listing
/-!
# Proofs.Files.Absolute — the absolute path of a location

Names joined behind a slash make the absolute path of a location. Such a path has these names for its parts
(`components_ofLocation`), the paths above it are those of the locations above (`parents_concat`), and it
leads to its location if anything is there at all (`exists?_ofLocation`).
-/
namespace MessageKeys.Files

/-- A name that stands for itself wherever it is met in a path. -/
def isPlainName (name : String) : Bool := !isVoid name && name != ".." && !name.toList.contains '/'

theorem isPlainName_iff {name : String} :
    isPlainName name ↔ isVoid name = false ∧ name ≠ ".." ∧ '/' ∉ name.toList := by
  simp [isPlainName, and_assoc]

namespace PathName

/-- The absolute path of a location. -/
def ofLocation (location : Location) : PathName := ⟨"/" ++ Text.joinStrings '/' location⟩

variable {location above : Location} {name : String}

theorem text_ofLocation (location : Location) :
    (ofLocation location).text.toList = '/' :: (Text.joinStrings '/' location).toList := by
  rw [ofLocation, String.toList_append]
  rfl

theorem text_ofLocation_isEmpty (location : Location) : (ofLocation location).text.isEmpty = false := by
  rw [Bool.eq_false_iff, ne_eq, String.isEmpty_iff]
  intro empty
  have text := text_ofLocation location
  rw [empty] at text
  cases text

theorem isAbsolute_ofLocation (location : Location) : (ofLocation location).isAbsolute := by
  rw [isAbsolute, text_ofLocation]
  rfl

theorem segments_ofLocation (some_ : location ≠ []) (plain : ∀ name ∈ location, isPlainName name) :
    (ofLocation location).segments = "" :: location := by
  have names := Text.splitString_joinStrings some_ fun name member =>
    (isPlainName_iff.1 (plain name member)).2.2
  rw [segments, Text.splitString, text_ofLocation, Text.split, if_pos (by rfl), List.map_cons]
  exact congrArg _ names

theorem body_ofLocation (some_ : location ≠ []) (plain : ∀ name ∈ location, isPlainName name) :
    (ofLocation location).body = location := by
  rw [body, isAbsolute_ofLocation, Bool.true_or, if_pos rfl, segments_ofLocation some_ plain,
    List.tail_cons]

theorem front_ofLocation (location : Location) : (ofLocation location).front = [.root] := by
  rw [front, isAbsolute_ofLocation, if_pos rfl]

theorem components_ofLocation (plain : ∀ name ∈ location, isPlainName name) :
    (ofLocation location).components = .root :: location.map .name := by
  by_cases top : location = []
  · subst top
    decide +kernel
  · have full : location.filter (!isVoid ·) = location := List.filter_eq_self.2 fun name member => by
      simp [(isPlainName_iff.1 (plain name member)).1]
    rw [components, front_ofLocation, body_ofLocation top plain, full, List.singleton_append]
    refine congrArg _ (List.map_congr_left fun name member => if_neg ?_)
    simpa using (isPlainName_iff.1 (plain name member)).2.1

/-- Paths with the same parts are written the same. -/
theorem eq_of_segments {path other : PathName} (same : path.segments = other.segments) : path = other := by
  have text := congrArg (Text.joinStrings '/') same
  rw [segments, segments, Text.joinStrings_splitString, Text.joinStrings_splitString] at text
  exact congrArg PathName.mk text

/-- A name seen from a location makes the path of what lies there by this name. -/
theorem join_ofLocation (plain : ∀ other ∈ above ++ [name], isPlainName other) :
    (ofLocation above).join ⟨name⟩ = ofLocation (above ++ [name]) := by
  have named := text_ofLocation_isEmpty above
  have slashless := (isPlainName_iff.1 (plain name (by simp))).2.2
  have relative := Disk.relative_of_notMem slashless
  by_cases top : above = []
  · subst top
    rw [join, relative, named, Bool.false_or, if_neg Bool.false_ne_true, if_pos (by decide +kernel)]
    have alone : Text.joinStrings '/' [name] = name := by
      rw [Text.joinStrings, List.map_singleton, Text.join, String.ofList_toList]
    rw [List.nil_append, ofLocation, ofLocation, alone]
    rfl
  · have plain' : ∀ other ∈ above, isPlainName other := fun other member =>
      plain other (List.mem_append_left _ member)
    obtain ⟨lead, shape, whole⟩ := segments_join named relative
    rw [segments_ofLocation top plain'] at shape
    have closed : "" :: above = lead := by
      rcases shape with same | longer
      · exact same
      · -- No name is empty, the last one neither.
        cases lead with
        | nil => exact absurd (List.cons.inj longer).2 top
        | cons first lead =>
            have last : "" ∈ above := by
              rw [(List.cons.inj longer).2]
              exact List.mem_append_right _ (List.mem_singleton_self "")
            have blank := plain' "" last
            exact absurd blank (by decide +kernel)
    refine eq_of_segments ?_
    rw [whole, ← closed, Disk.segments_of_notMem slashless, segments_ofLocation (by simp) plain,
      List.cons_append]

/-! ## The paths above -/

theorem parents_ofLocation (plain : ∀ name ∈ location, isPlainName name) :
    (ofLocation location).parents = parentsOf [.root] location.reverse := by
  by_cases top : location = []
  · subst top
    decide +kernel
  · rw [parents, front_ofLocation, body_ofLocation top plain]

/-- Above a location lies the directory that holds it, and whatever lies above that. -/
theorem parents_concat (plain : ∀ other ∈ above ++ [name], isPlainName other) :
    (ofLocation (above ++ [name])).parents = ofLocation above :: (ofLocation above).parents := by
  have full := (isPlainName_iff.1 (plain name (by simp))).1
  have plain' : ∀ other ∈ above, isPlainName other := fun other member =>
    plain other (List.mem_append_left _ member)
  have kept : trimEnd above = above := by
    rw [trimEnd, List.dropWhile_eq_self_iff.2, List.reverse_reverse]
    intro longer
    have last := plain' _ (List.mem_reverse.1 (List.getElem_mem longer))
    exact Bool.eq_false_iff.1 (isPlainName_iff.1 last).1
  rw [parents_ofLocation plain, parents_ofLocation plain', List.reverse_concat, parentsOf, full,
    if_neg Bool.false_ne_true, List.reverse_reverse, kept]
  rfl

end PathName

/-! ## Where absolute paths lead -/

namespace Disk

variable {disk : Disk} {location there : Location}

theorem foldl_step_names (here names : Location) :
    (names.map Component.name).foldl step here = here ++ names := by
  induction names generalizing here with
  | nil => rw [List.append_nil]; rfl
  | cons name names ih => rw [List.map_cons, List.foldl_cons, ih, step, List.append_assoc]; rfl

theorem locate_ofLocation_iff (plain : ∀ name ∈ location, isPlainName name) :
    disk.locate (.ofLocation location) = .ok there ↔
      there = location ∧ (disk.tree.at? location).isSome := by
  constructor
  · intro found
    have same := locate_eq_foldl found
    rw [PathName.components_ofLocation plain, List.foldl_cons, foldl_step_names] at same
    subst same
    exact ⟨rfl, at?_locate found⟩
  · rintro ⟨rfl, there_⟩
    refine locate_eq_ok_iff.2 ⟨PathName.text_ofLocation_isEmpty _, ?_⟩
    rw [base, PathName.isAbsolute_ofLocation, if_pos rfl]
    by_cases top : there = []
    · subst top
      exact follow_void (Tree.isDirectory_nil _) (by decide +kernel)
    · rw [PathName.segments_ofLocation top plain, follow_cons_iff]
      exact ⟨by simp [leads, isVoid], follow_way there_⟩

/-- Something is there if and only if something lies at the location. -/
theorem exists?_ofLocation (plain : ∀ name ∈ location, isPlainName name) :
    disk.exists? (.ofLocation location) = (disk.tree.at? location).isSome := by
  unfold exists? at?
  cases found : disk.locate (.ofLocation location) with
  | ok there =>
      obtain ⟨rfl, -⟩ := (locate_ofLocation_iff plain).1 found
      rfl
  | error lost =>
      cases there : (disk.tree.at? location).isSome with
      | false => rfl
      | true =>
          rw [(locate_ofLocation_iff plain).2 ⟨rfl, there⟩] at found
          cases found

end Disk
end MessageKeys.Files
