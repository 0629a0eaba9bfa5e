import MessageKeys.Proofs.Files.Spelling
/-!
# Proofs.Files.Extension — a path with another extension

The file name of a path is the last of its parts that is not void (`fileName?_eq`), and the extension is
what follows the last dot of that name (`extension?_eq`). So another extension can be put in the place of
the first one and nothing else changes (`mapExtension`); the path then has the extension it was given
(`extension?_mapExtension`).
-/
namespace MessageKeys.Files.PathName

variable {path : PathName} {f : String → String}

/-- What stands between the dots of a name before its extension, and the extension, if it has one. -/
def dotted? (name : String) : Option (List String × String) :=
  let pieces := Text.splitString '.' name
  match pieces.dropLast with
  | [] | [""] => none
  | stem => some (stem, pieces.getLastD "")

/-- A name with something else as its extension, if it has one. -/
def nameWith (f : String → String) (name : String) : String :=
  match dotted? name with
  | none => name
  | some (stem, extension) => Text.joinStrings '.' (stem ++ [f extension])

/-- The path with something else as its extension, if it has one. -/
def mapExtension (f : String → String) (path : PathName) : PathName :=
  match path.segments.reverse.dropWhile isVoid with
  | [] => path
  | name :: before =>
    ⟨Text.joinStrings '/' (before.reverse ++
      nameWith f name :: (path.segments.reverse.takeWhile isVoid).reverse)⟩

/-- The path with its extension in lower case. -/
def lowerExtension (path : PathName) : PathName := path.mapExtension String.toLower

example : lowerExtension ⟨"Src/./View.HTML.Js/"⟩ = ⟨"Src/./View.HTML.js/"⟩ := by decide +kernel

/-! ## Names -/

theorem dotted?_eq_some_iff {name extension : String} {stem : List String} :
    dotted? name = some (stem, extension) ↔
      Text.splitString '.' name = stem ++ [extension] ∧ stem ≠ [] ∧ stem ≠ [""] := by
  unfold dotted?
  rcases List.eq_nil_or_concat (Text.splitString '.' name) with none_ | ⟨front, last, shape⟩
  · simp [none_]
  · rw [List.concat_eq_append] at shape
    simp only [shape, List.dropLast_concat, List.getLastD_concat, List.append_singleton_inj]
    split
    · grind
    · grind
    · grind

theorem dotless_of_dotted? {name extension : String} {stem : List String}
    (found : dotted? name = some (stem, extension)) :
    ∀ piece ∈ stem ++ [extension], '.' ∉ piece.toList := by
  rw [← (dotted?_eq_some_iff.1 found).1, Text.splitString]
  intro piece member
  obtain ⟨text, among, rfl⟩ := List.mem_map.1 member
  rw [String.toList_ofList]
  exact Text.notMem_of_mem_split among

/-- A name with another extension consists of the same pieces before it. -/
theorem dotted?_nameWith {name extension : String} {stem : List String}
    (found : dotted? name = some (stem, extension)) (dotless : '.' ∉ (f extension).toList) :
    dotted? (nameWith f name) = some (stem, f extension) := by
  obtain ⟨-, some_, visible⟩ := dotted?_eq_some_iff.1 found
  refine dotted?_eq_some_iff.2 ⟨?_, some_, visible⟩
  have clear := dotless_of_dotted? found
  unfold nameWith
  rw [found]
  refine Text.splitString_joinStrings (by simp) fun piece member => ?_
  rcases List.mem_append.1 member with early | last
  · exact clear piece (List.mem_append_left _ early)
  · rw [List.mem_singleton.1 last]
    exact dotless

/-! ## Paths -/

/-- The file name is the last part that means something. -/
theorem fileName?_eq (path : PathName) :
    path.fileName? = (path.segments.reverse.dropWhile isVoid).head?.filter (· != "..") := by
  obtain ⟨lead, whole, void⟩ := Disk.segments_eq_append_body path
  have front : lead.reverse.dropWhile isVoid = [] := by
    rw [← List.append_nil lead.reverse,
      List.dropWhile_append_of_pos fun segment member => void segment (List.mem_reverse.1 member)]
    rfl
  rw [fileName?, trimEnd, List.getLast?_reverse, whole, List.reverse_append, List.dropWhile_append,
    front]
  cases ends : path.body.reverse.dropWhile isVoid with
  | nil => rfl
  | cons name before => rfl

theorem extension?_eq (path : PathName) :
    path.extension? = (path.fileName?.bind dotted?).map (·.2) := by
  unfold extension?
  cases path.fileName? with
  | none => rfl
  | some name =>
      simp only [Option.bind_some, dotted?]
      rcases pieces : Text.splitString '.' name with _ | ⟨first, _ | ⟨second, _ | ⟨third, rest⟩⟩⟩
      · rfl
      · rfl
      · by_cases hidden : first = "" <;> simp [hidden]
      · simp [List.getLast?_cons]

/-- An extension stands at the end of the file name, which is the last part that means something. -/
theorem exists_of_extension? {extension : String} (has : path.extension? = some extension) :
    ∃ name before stem, path.segments.reverse.dropWhile isVoid = name :: before ∧ name ≠ ".." ∧
      dotted? name = some (stem, extension) := by
  rw [extension?_eq, fileName?_eq] at has
  cases parts : path.segments.reverse.dropWhile isVoid with
  | nil =>
      rw [parts] at has
      cases has
  | cons name before =>
      rw [parts, List.head?_cons, Option.filter_some] at has
      split at has
      · rename_i other
        obtain ⟨⟨stem, last⟩, found, rfl⟩ := Option.map_eq_some_iff.1 has
        exact ⟨name, before, stem, rfl, by simpa using other, found⟩
      · cases has

theorem slash_notMem_nameWith {name extension : String} {stem : List String}
    (found : dotted? name = some (stem, extension)) (clear : '/' ∉ name.toList)
    (slashless : '/' ∉ (f extension).toList) : '/' ∉ (nameWith f name).toList := by
  intro inside
  unfold nameWith at inside
  rw [found] at inside
  simp only [Text.joinStrings, String.toList_ofList] at inside
  rcases Text.exists_of_mem_join inside with same | ⟨piece, among, held⟩
  · cases same
  · rw [List.map_append, List.mem_append] at among
    rcases among with early | last
    · have own : piece ∈ (Text.splitString '.' name).map String.toList := by
        rw [(dotted?_eq_some_iff.1 found).1, List.map_append]
        exact List.mem_append_left _ early
      have whole := Text.mem_join_of_mem '.' own held
      rw [← String.toList_ofList (l := Text.join _ _), ← Text.joinStrings,
        Text.joinStrings_splitString] at whole
      exact clear whole
    · rw [List.map_singleton, List.mem_singleton] at last
      exact slashless (last ▸ held)

/-- Only the file name changes: what stands in front of it, and the void parts behind it, stay. -/
theorem segments_mapExtension {name extension : String} {before stem : List String}
    (parts : path.segments.reverse.dropWhile isVoid = name :: before)
    (found : dotted? name = some (stem, extension)) (slashless : '/' ∉ (f extension).toList) :
    (path.mapExtension f).segments =
      before.reverse ++ nameWith f name :: (path.segments.reverse.takeWhile isVoid).reverse := by
  have whole := List.takeWhile_append_dropWhile (p := isVoid) (l := path.segments.reverse)
  rw [parts] at whole
  have clear : ∀ segment ∈ path.segments.reverse, '/' ∉ segment.toList := fun segment member =>
    Disk.slash_notMem_of_mem_segments (List.mem_reverse.1 member)
  rw [← whole, List.forall_mem_append, List.forall_mem_cons] at clear
  obtain ⟨trail, named, front⟩ := clear
  unfold mapExtension
  rw [parts]
  refine Text.splitString_joinStrings (by simp) ?_
  rw [List.forall_mem_append, List.forall_mem_cons]
  exact ⟨fun segment member => front segment (List.mem_reverse.1 member),
    slash_notMem_nameWith found named slashless,
    fun segment member => trail segment (List.mem_reverse.1 member)⟩

/-- A name with an extension means something. -/
theorem isVoid_of_dotted? {name extension : String} {stem : List String}
    (found : dotted? name = some (stem, extension)) : isVoid name = false := by
  rw [Bool.eq_false_iff]
  intro void
  rcases Bool.or_eq_true _ _ ▸ void with empty | current
  · have none_ : dotted? "" = none := rfl
    rw [String.isEmpty_iff.1 empty, none_] at found
    cases found
  · have none_ : dotted? "." = none := rfl
    rw [eq_of_beq current, none_] at found
    cases found

/-- The name of the parent has an empty extension, so no other name becomes that one. -/
theorem nameWith_ne_parent {name extension : String} {stem : List String}
    (found : dotted? name = some (stem, extension)) (other : name ≠ "..")
    (dotless : '.' ∉ (f extension).toList) (filled : f extension = "" → extension = "") :
    nameWith f name ≠ ".." := by
  intro up
  have renamed := dotted?_nameWith found dotless
  have dots : dotted? ".." = some (["", ""], "") := rfl
  rw [up, dots, Option.some.injEq, Prod.mk.injEq] at renamed
  obtain ⟨rfl, blank⟩ := renamed
  rw [filled blank.symm] at found
  apply other
  rw [← Text.joinStrings_splitString '.' name, (dotted?_eq_some_iff.1 found).1]
  rfl

/-- The path has the extension that it was given. -/
theorem extension?_mapExtension {extension : String} (has : path.extension? = some extension)
    (dotless : '.' ∉ (f extension).toList) (slashless : '/' ∉ (f extension).toList)
    (filled : f extension = "" → extension = "") :
    (path.mapExtension f).extension? = some (f extension) := by
  obtain ⟨name, before, stem, parts, other, found⟩ := exists_of_extension? has
  have renamed := dotted?_nameWith found dotless
  have apart := nameWith_ne_parent found other dotless filled
  have void : ∀ segment ∈ path.segments.reverse.takeWhile isVoid, isVoid segment :=
    List.all_eq_true.1 List.all_takeWhile
  rw [extension?_eq, fileName?_eq, segments_mapExtension parts found slashless, List.reverse_append,
    List.reverse_cons, List.reverse_reverse, List.reverse_reverse, List.append_assoc,
    List.singleton_append, List.dropWhile_append_of_pos void, List.dropWhile_cons,
    isVoid_of_dotted? renamed, if_neg Bool.false_ne_true, List.head?_cons, Option.filter_some,
    if_pos (by simpa using apart), Option.bind_some, renamed]
  rfl

end MessageKeys.Files.PathName
