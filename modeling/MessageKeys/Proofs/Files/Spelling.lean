import MessageKeys.Files.Glob
import MessageKeys.Proofs.Files.Tree
/-!
# Proofs.Files.Spelling — what the spelling of a path says about where it leads

A path joined to another one leads where the second leads from the first (`locate_join_iff`), and so does
a name seen from a path (`locate_child_iff`). Paths with the same components lead to one place if they
lead anywhere, and a path that leads to a file ends in the name of the file.
-/
namespace MessageKeys.Files

/-! ## Joined paths -/

namespace PathName

variable {base path : PathName}

theorem text_join (named : base.text.isEmpty = false) (relative : path.isAbsolute = false) :
    (base.join path).text.toList =
      if base.text.toList.getLast? = some '/' then base.text.toList ++ path.text.toList
      else base.text.toList ++ '/' :: path.text.toList := by
  rw [join, relative, named, if_neg (by decide)]
  by_cases slash : base.text.toList.getLast? = some '/'
  · rw [if_pos (by simpa using slash), if_pos slash, String.toList_append]
  · rw [if_neg (by simpa using slash), if_neg slash, String.toList_append, String.toList_append,
      List.append_assoc]
    rfl

theorem toList_ne_nil (named : base.text.isEmpty = false) : base.text.toList ≠ [] := by
  intro empty
  rw [String.toList_eq_nil_iff] at empty
  rw [empty] at named
  cases named

theorem isAbsolute_join (named : base.text.isEmpty = false) (relative : path.isAbsolute = false) :
    (base.join path).isAbsolute = base.isAbsolute := by
  rw [isAbsolute, text_join named relative, isAbsolute]
  cases text : base.text.toList with
  | nil => exact absurd text (toList_ne_nil named)
  | cons c rest => split <;> rfl

/-- The parts of a joined path are those of both, less the empty part at the end of the first. -/
theorem segments_join (named : base.text.isEmpty = false) (relative : path.isAbsolute = false) :
    ∃ front, (base.segments = front ∨ base.segments = front ++ [""]) ∧
      (base.join path).segments = front ++ path.segments := by
  by_cases slash : base.text.toList.getLast? = some '/'
  · obtain ⟨start, text⟩ := List.getLast?_eq_some_iff.1 slash
    refine ⟨(Text.split '/' start).map String.ofList, Or.inr ?_, ?_⟩
    · rw [segments, Text.splitString, text, Text.split_append_mark, List.map_append]
      rfl
    · rw [segments, Text.splitString, text_join named relative, if_pos slash, text, List.append_assoc,
        List.singleton_append, Text.split_append_mark, List.map_append]
      rfl
  · refine ⟨base.segments, Or.inl rfl, ?_⟩
    rw [segments, Text.splitString, text_join named relative, if_neg slash, Text.split_append_mark,
      List.map_append]
    rfl

theorem text_join_isEmpty (named : base.text.isEmpty = false) (relative : path.isAbsolute = false) :
    (base.join path).text.isEmpty = false := by
  rw [Bool.eq_false_iff]
  intro empty
  have none_ : (base.join path).text.toList = [] := by simpa using empty
  rw [text_join named relative] at none_
  split at none_ <;> exact toList_ne_nil named (List.append_eq_nil_iff.1 none_).1

end PathName

namespace Disk

variable {disk : Disk} {base path : PathName}

/-- What leads somewhere in at least one step starts in a directory. -/
theorem isDirectory_of_follow {here there : Location} {segments : List String}
    (some_ : segments ≠ []) (way : disk.follow here segments = .ok there) :
    disk.tree.isDirectory here := by
  cases segments with
  | nil => exact absurd rfl some_
  | cons segment rest =>
      have on := (follow_cons_iff.1 way).1
      rw [leads, Bool.and_eq_true] at on
      exact on.1

theorem follow_empty_end {here there : Location} {front : List String} :
    disk.follow here (front ++ [""]) = .ok there ↔
      disk.follow here front = .ok there ∧ disk.tree.isDirectory there := by
  rw [follow_append_iff]
  constructor
  · rintro ⟨middle, way, last⟩
    have directory := isDirectory_of_follow (by simp) last
    rw [follow_void directory (by simp [isVoid])] at last
    cases last
    exact ⟨way, directory⟩
  · rintro ⟨way, directory⟩
    exact ⟨there, way, follow_void directory (by simp [isVoid])⟩

/-- A joined path leads where the second path leads from the first. -/
theorem locate_join_iff (named : base.text.isEmpty = false) (relative : path.isAbsolute = false)
    {there : Location} : disk.locate (base.join path) = .ok there ↔
      ∃ here, disk.locate base = .ok here ∧ disk.follow here path.segments = .ok there := by
  obtain ⟨front, ending, segments⟩ := PathName.segments_join named relative
  have sameStart : disk.base (base.join path) = disk.base base := by
    rw [Disk.base, PathName.isAbsolute_join named relative, Disk.base]
  simp only [locate_eq_ok_iff, PathName.text_join_isEmpty named relative, named, true_and, sameStart,
    segments, follow_append_iff]
  refine exists_congr fun here => and_congr_left fun way => ?_
  rcases ending with same | same
  · rw [same]
  · have directory := isDirectory_of_follow (segments_ne_nil path) way
    rw [same, follow_empty_end]
    exact (and_iff_left directory).symm

/-- A path spelled as the working directory is relative and has void parts alone. -/
theorem parts_of_isCurrent (current : Glob.isCurrent path) :
    path.isAbsolute = false ∧ path.text.isEmpty = false ∧
      ∀ segment ∈ path.segments, isVoid segment := by
  have shape : path.components = [.current] := eq_of_beq current
  have named : ∀ segment : String, PathName.componentOf segment ≠ .current := by
    intro segment
    unfold PathName.componentOf
    split <;> simp
  have relative : path.isAbsolute = false := by
    rw [Bool.eq_false_iff]
    intro absolute
    unfold PathName.components PathName.front at shape
    rw [absolute, if_pos rfl] at shape
    cases shape
  have starts : path.startsAtCurrent = true := by
    by_contra otherwise
    unfold PathName.components PathName.front at shape
    rw [relative, if_neg Bool.false_ne_true, if_neg otherwise, List.nil_append] at shape
    obtain ⟨segment, -, same⟩ := List.mem_map.1 (shape ▸ List.mem_singleton_self Component.current)
    exact named segment same
  have void : ∀ segment ∈ path.body, isVoid segment := by
    unfold PathName.components PathName.front at shape
    rw [relative, if_neg Bool.false_ne_true, if_pos starts, List.singleton_append, List.cons.injEq,
      List.map_eq_nil_iff, List.filter_eq_nil_iff] at shape
    simpa using shape.2
  obtain ⟨rest, segments⟩ : ∃ rest, path.segments = "." :: rest := by
    rw [PathName.startsAtCurrent, beq_iff_eq] at starts
    exact List.head?_eq_some_iff.1 starts
  refine ⟨relative, ?_, ?_⟩
  · rw [Bool.eq_false_iff]
    intro empty
    have blank : path.text = "" := by simpa using empty
    have none_ : Text.splitString '/' "" = [""] := rfl
    rw [PathName.segments, blank, none_] at segments
    exact absurd (List.cons.inj segments).1 (by decide)
  · rw [segments, List.forall_mem_cons]
    refine ⟨rfl, fun segment later => void segment ?_⟩
    rw [PathName.body, starts, Bool.or_true, if_pos rfl, segments]
    exact later

/-- The working directory, spelled as a `.`. -/
theorem locate_isCurrent (current : Glob.isCurrent path) {here : Location} :
    disk.locate path = .ok here ↔ here = disk.current ∧ disk.tree.isDirectory disk.current := by
  obtain ⟨relative, named, void⟩ := parts_of_isCurrent current
  rw [locate_eq_ok_iff, Disk.base, relative, if_neg Bool.false_ne_true]
  constructor
  · rintro ⟨-, way⟩
    have directory := isDirectory_of_follow (segments_ne_nil path) way
    rw [follow_void directory void] at way
    exact ⟨(Except.ok.inj way).symm, directory⟩
  · rintro ⟨rfl, directory⟩
    exact ⟨named, follow_void directory void⟩

/-- A name seen from a path leads where the name leads from there, unless it is empty and the path is the
working directory. -/
theorem locate_child_iff {name : String} (named : base.text.isEmpty = false)
    (relative : (PathName.mk name).isAbsolute = false) {there : Location} :
    disk.locate (Glob.child base name) = .ok there ↔
      (Glob.child base name).text.isEmpty = false ∧ ∃ here, disk.locate base = .ok here ∧
        disk.follow here (PathName.mk name).segments = .ok there := by
  by_cases current : Glob.isCurrent base = true
  · rw [Glob.child, if_pos current, locate_eq_ok_iff, Disk.base, relative, if_neg Bool.false_ne_true]
    simp only [locate_isCurrent current]
    refine and_congr_right fun _ => ⟨fun way => ?_, ?_⟩
    · exact ⟨_, ⟨rfl, isDirectory_of_follow (segments_ne_nil _) way⟩, way⟩
    · rintro ⟨here, ⟨rfl, -⟩, way⟩
      exact way
  · rw [Glob.child, if_neg current, locate_join_iff named relative]
    exact (and_iff_right (PathName.text_join_isEmpty named relative)).symm

theorem text_child_isEmpty {name : String} (named : base.text.isEmpty = false)
    (filled : name.isEmpty = false) (relative : (PathName.mk name).isAbsolute = false) :
    (Glob.child base name).text.isEmpty = false := by
  unfold Glob.child
  split
  · exact filled
  · exact PathName.text_join_isEmpty named relative

/-- A name without slashes is the one part of its path. -/
theorem segments_of_notMem {name : String} (slashless : '/' ∉ name.toList) :
    (PathName.mk name).segments = [name] := by
  rw [PathName.segments, Text.splitString, Text.split_of_notMem slashless, List.map_singleton,
    String.ofList_toList]

theorem relative_of_notMem {name : String} (slashless : '/' ∉ name.toList) :
    (PathName.mk name).isAbsolute = false := by
  rw [PathName.isAbsolute, Bool.eq_false_iff, ne_eq, beq_iff_eq]
  exact fun first => slashless (List.mem_of_mem_head? first)

/-! ## Components and names -/

/-- Where a component leads from a location. -/
def step (here : Location) : Component → Location
  | .root => []
  | .current => here
  | .parent => here.dropLast
  | .name text => here ++ [text]

theorem follow_eq_foldl {here there : Location} {segments : List String}
    (way : disk.follow here segments = .ok there) :
    there = ((segments.filter (!isVoid ·)).map PathName.componentOf).foldl step here := by
  induction segments generalizing here with
  | nil =>
      cases way
      rfl
  | cons segment rest ih =>
      obtain ⟨-, way⟩ := follow_cons_iff.1 way
      rw [ih way, next]
      cases void : isVoid segment with
      | true => simp [void]
      | false =>
          rw [List.filter_cons, void, if_neg Bool.false_ne_true, if_pos Bool.not_false, List.map_cons,
            List.foldl_cons, PathName.componentOf]
          by_cases parent : segment = ".."
          · rw [if_pos parent, if_pos (by simpa using parent)]
            rfl
          · rw [if_neg parent, if_neg (by simpa using parent)]
            rfl

theorem head_of_isAbsolute (absolute : path.isAbsolute) : path.segments.head? = some "" := by
  rw [PathName.isAbsolute, beq_iff_eq] at absolute
  obtain ⟨text, shape⟩ := List.head?_eq_some_iff.1 absolute
  rw [PathName.segments, Text.splitString, shape, Text.split, if_pos (by decide)]
  rfl

/-- In front of the body of a path there are void parts alone. -/
theorem segments_eq_append_body (path : PathName) :
    ∃ lead, path.segments = lead ++ path.body ∧ ∀ segment ∈ lead, isVoid segment := by
  unfold PathName.body
  split
  · rename_i fronted
    cases segments : path.segments with
    | nil => exact absurd segments (segments_ne_nil path)
    | cons first rest =>
        refine ⟨[first], rfl, ?_⟩
        rw [List.forall_mem_singleton]
        rcases Bool.or_eq_true _ _ ▸ fronted with absolute | current
        · have empty := head_of_isAbsolute absolute
          rw [segments] at empty
          rw [Option.some.inj empty]
          rfl
        · rw [PathName.startsAtCurrent, segments, beq_iff_eq] at current
          rw [Option.some.inj current]
          rfl
  · exact ⟨[], rfl, by simp⟩

/-- Where a path leads can be told by its components. -/
theorem locate_eq_foldl {there : Location} (found : disk.locate path = .ok there) :
    there = path.components.foldl step disk.current := by
  obtain ⟨lead, shape, void⟩ := segments_eq_append_body path
  have leadless : path.segments.filter (!isVoid ·) = path.body.filter (!isVoid ·) := by
    have none_ : lead.filter (!isVoid ·) = [] :=
      List.filter_eq_nil_iff.2 fun segment member => by simp [void segment member]
    rw [shape, List.filter_append, none_, List.nil_append]
  have way := follow_eq_foldl (locate_eq_ok_iff.1 found).2
  rw [leadless] at way
  rw [way, PathName.components, PathName.front, Disk.base]
  cases path.isAbsolute with
  | true => rfl
  | false => cases path.startsAtCurrent <;> rfl

/-- Paths with the same components lead to one place. -/
theorem locate_of_components {other : PathName} {first second : Location}
    (found : disk.locate path = .ok first) (found' : disk.locate other = .ok second)
    (same : path.components = other.components) : first = second := by
  rw [locate_eq_foldl found, locate_eq_foldl found', same]

/-- The last step of a path to a file goes to a name. -/
theorem last_of_locate {there : Location} {content : Content}
    (found : disk.locate path = .ok there) (file : disk.tree.at? there = some (.file content)) :
    ∃ front here name, path.segments = front ++ [name] ∧ isVoid name = false ∧ name ≠ ".." ∧
      there = here ++ [name] := by
  have way := (locate_eq_ok_iff.1 found).2
  obtain ⟨front, name, shape⟩ : ∃ front name, path.segments = front ++ [name] := by
    rcases List.eq_nil_or_concat path.segments with none_ | ⟨front, name, shape⟩
    · exact absurd none_ (segments_ne_nil path)
    · exact ⟨front, name, by rw [shape, List.concat_eq_append]⟩
  rw [shape, follow_append_iff] at way
  obtain ⟨here, -, last⟩ := way
  have directory := isDirectory_of_follow (by simp) last
  obtain ⟨-, ends⟩ := follow_cons_iff.1 last
  have arrives : there = next here name := (Except.ok.inj ends).symm
  have noDirectory : ¬ disk.tree.isDirectory there = true := by
    rw [Tree.isDirectory_iff, file]
    simp
  refine ⟨front, here, name, shape, ?_⟩
  rw [next] at arrives
  split at arrives
  · exact absurd (arrives ▸ directory) noDirectory
  · rename_i full
    split at arrives
    · have start : (disk.tree.at? here).isSome := by
        rw [(Tree.isDirectory_iff _ _).1 directory]
        rfl
      exact absurd (arrives ▸ disk.tree.isDirectory_dropLast start) noDirectory
    · rename_i other
      exact ⟨by simpa using full, other, arrives⟩

/-- A path that leads to a file ends in its name. -/
theorem fileName?_of_locate {there : Location} {content : Content}
    (found : disk.locate path = .ok there) (file : disk.tree.at? there = some (.file content)) :
    path.fileName? = there.getLast? := by
  obtain ⟨front, here, name, shape, full, other, rfl⟩ := last_of_locate found file
  obtain ⟨lead, whole, void⟩ := segments_eq_append_body path
  -- The name is no void part, so it belongs to the body.
  obtain ⟨before, body⟩ : ∃ before, path.body = before ++ [name] := by
    rcases List.eq_nil_or_concat path.body with none_ | ⟨before, last, ends⟩
    · rw [none_, List.append_nil] at whole
      have among : name ∈ lead := by
        rw [← whole, shape]
        simp
      rw [void name among] at full
      cases full
    · rw [List.concat_eq_append] at ends
      rw [whole, ends, ← List.append_assoc] at shape
      exact ⟨before, by rw [ends, (List.append_inj' shape rfl).2]⟩
  have trimmed : PathName.trimEnd (before ++ [name]) = before ++ [name] := by
    rw [PathName.trimEnd, List.reverse_append, List.reverse_singleton, List.singleton_append,
      List.dropWhile_cons, full, if_neg Bool.false_ne_true, List.reverse_cons, List.reverse_reverse]
  rw [PathName.fileName?, body, trimmed, List.getLast?_concat, List.getLast?_concat,
    Option.filter_some, if_pos (by simpa using other)]

end Disk
end MessageKeys.Files
