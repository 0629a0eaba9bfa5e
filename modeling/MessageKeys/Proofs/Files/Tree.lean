import Mathlib.Data.List.Basic
import MessageKeys.Files.Tree
import MessageKeys.Proofs.Text.Pieces
/-!
# Proofs.Files.Tree — where paths lead

A tree is looked at through `Tree.at?` alone: `at?_put` says what putting something changes there, and
`parts_of_at?` that whatever is there lies in a directory. A path that leads somewhere still leads there
when directories stay directories and nothing goes away (`Within`), and one that has a place leads to it
as soon as something is there (`locate_placed`).
-/
namespace MessageKeys.Files

namespace Tree

variable (tree : Tree)

@[simp] theorem at?_nil : tree.at? [] = some .directory := rfl

@[simp] theorem isDirectory_nil : tree.isDirectory [] = true := rfl

theorem isDirectory_iff (location : Location) :
    tree.isDirectory location ↔ tree.at? location = some .directory := by
  rw [isDirectory, beq_iff_eq]

theorem at?_eq_some_iff {location : Location} (below : location ≠ []) (entry : Entry) :
    tree.at? location = some entry ↔ (location, entry) ∈ tree.entries := by
  rw [at?, if_neg (by simpa using below)]
  exact ⟨mem_of_lookup, lookup_of_mem tree.distinct⟩

/-- What is there has a name and lies in a directory. -/
theorem parts_of_at? {above : Location} {name : String}
    (there : (tree.at? (above ++ [name])).isSome) :
    isEntryName name ∧ tree.isDirectory above := by
  obtain ⟨entry, found⟩ := Option.isSome_iff_exists.1 there
  rw [at?_eq_some_iff tree (by simp)] at found
  obtain ⟨above', name', same, named, listed⟩ := tree.placed _ found
  obtain ⟨rfl, last⟩ := List.append_inj' same rfl
  cases last
  refine ⟨named, ?_⟩
  rcases listed with rfl | listed
  · exact isDirectory_nil tree
  · by_cases top : above = []
    · exact top ▸ isDirectory_nil tree
    · exact (tree.isDirectory_iff above).2 ((at?_eq_some_iff tree top _).2 listed)

theorem isDirectory_dropLast {location : Location} (there : (tree.at? location).isSome) :
    tree.isDirectory location.dropLast := by
  rcases List.eq_nil_or_concat location with rfl | ⟨above, name, rfl⟩
  · exact isDirectory_nil tree
  · rw [List.concat_eq_append] at there ⊢
    rw [List.dropLast_concat]
    exact (tree.parts_of_at? there).2

variable {tree}

theorem mem_entries_put {location : Location} {entry : Entry} (admitted : tree.admits location entry)
    (other : Location × Entry) :
    other ∈ (tree.put location entry).entries ↔
      other = (location, entry) ∨ other ∈ tree.entries ∧ other.1 ≠ location := by
  rw [put, dif_pos admitted]
  simp

/-- Putting something at a location changes what is there and nothing else. -/
theorem at?_put {location : Location} {entry : Entry} (admitted : tree.admits location entry)
    (other : Location) :
    (tree.put location entry).at? other = if other = location then some entry else tree.at? other := by
  obtain ⟨above, name, shape⟩ := exists_of_admits admitted
  by_cases top : other = []
  · subst top
    rw [if_neg (by simp [shape])]
    rfl
  · ext found
    rw [at?_eq_some_iff _ top, mem_entries_put admitted]
    by_cases same : other = location
    · subst same
      rw [if_pos rfl, Option.some.injEq]
      simp [eq_comm]
    · rw [if_neg same, at?_eq_some_iff _ top]
      simp [same]

end Tree

namespace Disk

/-! ## Following a path -/

/-- Where a part of a path leads from a location. -/
def next (here : Location) (segment : String) : Location :=
  if isVoid segment then here
  else if segment = ".." then here.dropLast
  else here ++ [segment]

/-- A part of a path leads on from a location: it is a directory, and a name is there. -/
def leads (disk : Disk) (here : Location) (segment : String) : Bool :=
  disk.tree.isDirectory here &&
    (isVoid segment || segment == ".." ||
      isLegalName segment && (disk.tree.at? (here ++ [segment])).isSome)

variable {disk old new : Disk}

/-- A name goes one level down. -/
theorem next_name {here : Location} {name : String} (full : isVoid name = false) (down : name ≠ "..") :
    next here name = here ++ [name] := by
  rw [next, full, if_neg Bool.false_ne_true, if_neg down]

/-- A name leads on from a directory if something is there under it. -/
theorem leads_name_iff {here : Location} {name : String} (full : isVoid name = false)
    (down : name ≠ "..") :
    disk.leads here name ↔ disk.tree.isDirectory here ∧ isLegalName name ∧
      (disk.tree.at? (here ++ [name])).isSome := by
  rw [leads, full, beq_eq_false_iff_ne.2 down, Bool.false_or, Bool.false_or, Bool.and_eq_true,
    Bool.and_eq_true]

theorem follow_cons_iff {here there : Location} {segment : String} {rest : List String} :
    disk.follow here (segment :: rest) = .ok there ↔
      disk.leads here segment ∧ disk.follow (next here segment) rest = .ok there := by
  rw [follow, leads, next]
  cases disk.tree.isDirectory here
  · simp
  · cases isVoid segment
    · by_cases parent : segment = ".."
      · simp [parent]
      · cases isLegalName segment
        · simp [parent]
        · cases disk.tree.at? (here ++ [segment]) <;> simp [parent]
    · simp

theorem follow_append_iff {here there : Location} {first second : List String} :
    disk.follow here (first ++ second) = .ok there ↔
      ∃ middle, disk.follow here first = .ok middle ∧ disk.follow middle second = .ok there := by
  induction first generalizing here with
  | nil => simp [follow]
  | cons segment first ih =>
      rw [List.cons_append, follow_cons_iff, ih]
      simp only [follow_cons_iff]
      exact ⟨fun ⟨on, middle, way, rest⟩ => ⟨middle, ⟨on, way⟩, rest⟩,
        fun ⟨middle, ⟨on, way⟩, rest⟩ => ⟨on, middle, way, rest⟩⟩

/-- Something is there where a step leads. -/
theorem at?_next {here : Location} {segment : String} (on : disk.leads here segment) :
    (disk.tree.at? (next here segment)).isSome := by
  have directory := on
  rw [leads, Bool.and_eq_true] at directory
  have here_ : (disk.tree.at? here).isSome := by
    rw [(disk.tree.isDirectory_iff here).1 directory.1]
    rfl
  unfold next
  split
  · exact here_
  · split
    · rw [(disk.tree.isDirectory_iff _).1 (disk.tree.isDirectory_dropLast here_)]
      rfl
    · rename_i void parent
      exact ((leads_name_iff (Bool.eq_false_iff.2 void) parent).1 on).2.2

theorem at?_follow {here there : Location} {segments : List String}
    (start : (disk.tree.at? here).isSome) (way : disk.follow here segments = .ok there) :
    (disk.tree.at? there).isSome := by
  induction segments generalizing here with
  | nil =>
      cases way
      exact start
  | cons segment rest ih =>
      obtain ⟨on, way⟩ := follow_cons_iff.1 way
      exact ih (at?_next on) way

/-- Void parts lead nowhere else. -/
theorem follow_void {here : Location} {segments : List String} (directory : disk.tree.isDirectory here)
    (void : ∀ segment ∈ segments, isVoid segment) : disk.follow here segments = .ok here := by
  induction segments with
  | nil => rfl
  | cons segment rest ih =>
      rw [List.forall_mem_cons] at void
      rw [follow_cons_iff, next, if_pos void.1]
      exact ⟨by simp [leads, directory, void.1], ih void.2⟩

/-! ## Paths -/

theorem segments_ne_nil (path : PathName) : path.segments ≠ [] := by
  rw [PathName.segments, Text.splitString]
  simpa using Text.split_ne_nil '/' path.text.toList

theorem slash_notMem_of_mem_segments {path : PathName} {segment : String}
    (member : segment ∈ path.segments) : '/' ∉ segment.toList := by
  obtain ⟨piece, among, rfl⟩ := List.mem_map.1 member
  rw [String.toList_ofList]
  exact Text.notMem_of_mem_split among

theorem text_ne_empty_of_locate {path : PathName} {location : Location}
    (found : disk.locate path = .ok location) : path.text.isEmpty = false := by
  cases empty : path.text.isEmpty with
  | false => rfl
  | true =>
      rw [locate, empty] at found
      cases found

theorem locate_eq_ok_iff {path : PathName} {location : Location} :
    disk.locate path = .ok location ↔
      path.text.isEmpty = false ∧ disk.follow (disk.base path) path.segments = .ok location := by
  cases empty : path.text.isEmpty <;> simp [locate, empty]

/-- Where a path leads there is something. -/
theorem at?_locate {path : PathName} {location : Location}
    (found : disk.locate path = .ok location) : (disk.tree.at? location).isSome := by
  obtain ⟨-, way⟩ := locate_eq_ok_iff.1 found
  cases segments : path.segments with
  | nil => exact absurd segments (segments_ne_nil path)
  | cons segment rest =>
      rw [segments, follow_cons_iff] at way
      exact at?_follow (at?_next way.1) way.2

theorem at?_of_locate {path : PathName} {location : Location}
    (found : disk.locate path = .ok location) : disk.at? path = disk.tree.at? location := by
  rw [at?, found]

theorem isDirectory_eq_of_locate {path : PathName} {location : Location}
    (found : disk.locate path = .ok location) : disk.isDirectory path = disk.tree.isDirectory location := by
  rw [isDirectory, at?_of_locate found, Tree.isDirectory]

theorem locate_of_at? {path : PathName} {entry : Entry} (found : disk.at? path = some entry) :
    ∃ location, disk.locate path = .ok location ∧ disk.tree.at? location = some entry := by
  unfold at? at found
  split at found
  · exact ⟨_, by assumption, found⟩
  · cases found

/-! ## A disk that has more -/

/-- All that was there still is, and directories are directories. -/
structure Within (old new : Disk) : Prop where
  current : new.current = old.current
  directory : ∀ {location}, old.tree.isDirectory location → new.tree.isDirectory location
  present : ∀ {location}, (old.tree.at? location).isSome → (new.tree.at? location).isSome

namespace Within

theorem refl (disk : Disk) : Within disk disk := ⟨rfl, id, id⟩

theorem trans {middle : Disk} (first : Within old middle) (second : Within middle new) :
    Within old new :=
  ⟨second.current.trans first.current, fun there => second.directory (first.directory there),
    fun there => second.present (first.present there)⟩

theorem base (within : Within old new) (path : PathName) : new.base path = old.base path := by
  rw [Disk.base, Disk.base, within.current]

theorem leads (within : Within old new) {here : Location} {segment : String}
    (on : old.leads here segment) : new.leads here segment := by
  simp only [Disk.leads, Bool.and_eq_true, Bool.or_eq_true] at on ⊢
  exact ⟨within.directory on.1, on.2.imp_right fun ⟨legal, there⟩ => ⟨legal, within.present there⟩⟩

theorem follow (within : Within old new) {here there : Location} {segments : List String}
    (way : old.follow here segments = .ok there) : new.follow here segments = .ok there := by
  induction segments generalizing here with
  | nil => exact way
  | cons segment rest ih =>
      obtain ⟨on, way⟩ := follow_cons_iff.1 way
      exact follow_cons_iff.2 ⟨within.leads on, ih way⟩

/-- A path that leads somewhere goes on leading there. -/
theorem locate (within : Within old new) {path : PathName} {location : Location}
    (found : old.locate path = .ok location) : new.locate path = .ok location := by
  obtain ⟨named, way⟩ := locate_eq_ok_iff.1 found
  rw [← within.base] at way
  exact locate_eq_ok_iff.2 ⟨named, within.follow way⟩

theorem isDirectory (within : Within old new) {path : PathName} (there : old.isDirectory path) :
    new.isDirectory path := by
  rw [Disk.isDirectory, beq_iff_eq] at there ⊢
  obtain ⟨location, found, directory⟩ := locate_of_at? there
  rw [at?_of_locate (within.locate found)]
  exact (Tree.isDirectory_iff _ _).1 (within.directory ((Tree.isDirectory_iff _ _).2 directory))

end Within

/-! ## Places -/

/-- The parts of a path are those before its last name, the name, and empty ones. -/
theorem segments_of_dropWhile {path : PathName} {name : String} {before : List String}
    (shape : path.segments.reverse.dropWhile (·.isEmpty) = name :: before) :
    ∃ after, path.segments = before.reverse ++ name :: after ∧ ∀ segment ∈ after, segment = "" := by
  refine ⟨(path.segments.reverse.takeWhile (·.isEmpty)).reverse, ?_, fun segment member => ?_⟩
  · have both := List.takeWhile_append_dropWhile (p := (·.isEmpty)) (l := path.segments.reverse)
    rw [shape] at both
    have turned := congrArg List.reverse both
    rw [List.reverse_reverse, List.reverse_append, List.reverse_cons, List.append_assoc,
      List.singleton_append] at turned
    exact turned.symm
  · have empty := List.all_eq_true.1 List.all_takeWhile segment (List.mem_reverse.1 member)
    simpa using empty

theorem place_ok {path : PathName} {here : Location} {name : String}
    (placed : disk.place path = .ok (here, name)) :
    path.text.isEmpty = false ∧ isEntryName name ∧ disk.tree.isDirectory here ∧
      ∃ before after, path.segments = before ++ name :: after ∧ (∀ segment ∈ after, segment = "") ∧
        disk.follow (disk.base path) before = .ok here := by
  unfold place at placed
  split at placed
  · cases placed
  · rename_i named
    split at placed
    · cases placed
    · rename_i last before shape
      split at placed
      · cases placed
      · rename_i there way
        split at placed
        · cases placed
        · rename_i fits
          cases placed
          simp only [Bool.or_eq_true, Bool.not_eq_true', not_or, Bool.not_eq_false, Bool.not_eq_true,
            beq_iff_eq] at fits
          obtain ⟨⟨⟨directory, void⟩, parent⟩, legal⟩ := fits
          obtain ⟨after, whole, empty⟩ := segments_of_dropWhile shape
          refine ⟨by simpa using named, ?_, directory, _, after, whole, empty, way⟩
          have member : name ∈ path.segments := by
            rw [whole]
            simp
          simp [isEntryName, void, parent, legal, slash_notMem_of_mem_segments member]

theorem Within.place (within : Within old new) {path : PathName} {here : Location} {name : String}
    (placed : old.place path = .ok (here, name)) : new.place path = .ok (here, name) := by
  unfold Disk.place at placed ⊢
  split
  · rename_i empty
    rw [if_pos empty] at placed
    exact placed
  · rename_i named
    rw [if_neg named] at placed
    split at placed
    · cases placed
    · split at placed
      · cases placed
      · rename_i way
        rw [within.base, within.follow way]
        simp only
        split at placed
        · cases placed
        · rename_i fits
          simp only [Bool.or_eq_true, Bool.not_eq_true', not_or, Bool.not_eq_false, Bool.not_eq_true]
            at fits
          obtain ⟨⟨⟨directory, void⟩, parent⟩, legal⟩ := fits
          rw [within.directory directory, void, parent, legal, if_neg (by decide)]
          exact placed

/-- A path leads to its place once something is there. -/
theorem locate_placed (within : Within old new) {path : PathName} {here : Location} {name : String}
    (placed : old.place path = .ok (here, name))
    (fits : new.tree.isDirectory (here ++ [name]) ∨
      (new.tree.at? (here ++ [name])).isSome ∧ path.segments.getLast? ≠ some "") :
    new.locate path = .ok (here ++ [name]) := by
  obtain ⟨named, entry, directory, before, after, shape, void, way⟩ := place_ok placed
  have there : (new.tree.at? (here ++ [name])).isSome := by
    rcases fits with directory | ⟨there, -⟩
    · rw [(Tree.isDirectory_iff _ _).1 directory]
      rfl
    · exact there
  simp only [isEntryName, Bool.and_eq_true, Bool.not_eq_true', bne_iff_ne, ne_eq] at entry
  obtain ⟨⟨⟨full, up⟩, legal⟩, -⟩ := entry
  have leads_ := (leads_name_iff full up).2 ⟨within.directory directory, legal, there⟩
  rw [locate_eq_ok_iff, shape, within.base, follow_append_iff]
  refine ⟨named, here, within.follow way, follow_cons_iff.2 ⟨leads_, ?_⟩⟩
  rw [next_name full up]
  rcases fits with directory | ⟨-, closed⟩
  · exact follow_void directory fun segment member => by simp [void segment member, isVoid]
  · cases after with
    | nil => rfl
    | cons segment after =>
        have last : path.segments.getLast? = some "" := by
          rw [shape, List.getLast?_append, List.getLast?_cons_cons,
            List.getLast?_eq_some_getLast (List.cons_ne_nil _ _), Option.some_or,
            void _ (List.getLast_mem _)]
        exact absurd last closed

end Disk
end MessageKeys.Files
