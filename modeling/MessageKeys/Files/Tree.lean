import MessageKeys.Files.PathName
import MessageKeys.Lookup
/-!
# Files.Tree — files and directories

A `Tree` tells which files and directories there are below its top, each by its location, the names on
the way down to it. A `Disk` is a tree seen from a working directory, so that a path, absolute or
relative, leads somewhere. A path is followed part by part, and every part but the last one has to be a
directory: `a/` and `a/.` lead somewhere only if `a` is one.
-/
namespace MessageKeys.Files

/-- The names on the way down from the top of a tree. -/
abbrev Location := List String

/-- What a file holds: a text, or bytes that are none. -/
inductive Content where
  | text (text : String)
  | bytes (bytes : List UInt8)
deriving DecidableEq, Repr

/-- What lies at a location. -/
inductive Entry where
  | directory
  | file (content : Content)
deriving DecidableEq, Repr

/-- A name that a file can have: at most 255 bytes, none of them zero. -/
def isLegalName (name : String) : Bool := name.utf8ByteSize ≤ 255 && !name.toList.contains '\x00'

/-- A name that stands for something in a directory. -/
def isEntryName (name : String) : Bool :=
  !isVoid name && name != ".." && isLegalName name && !name.toList.contains '/'

/-- Files and directories by location. The top itself is a directory and not listed. -/
structure Tree where
  entries : List (Location × Entry)
  /-- No location is listed twice. -/
  distinct : (entries.map (·.1)).Nodup
  /-- Whatever is listed has a name and lies in a directory. -/
  placed : ∀ entry ∈ entries, ∃ above name, entry.1 = above ++ [name] ∧ isEntryName name ∧
    (above = [] ∨ (above, Entry.directory) ∈ entries)
deriving Repr

namespace Tree

def empty : Tree := ⟨[], by simp, by simp⟩

/-- What lies at a location. -/
def at? (tree : Tree) (location : Location) : Option Entry :=
  if location.isEmpty then some .directory else tree.entries.lookup location

def isDirectory (tree : Tree) (location : Location) : Bool := tree.at? location == some .directory

theorem listed_of_isDirectory {tree : Tree} {location : Location}
    (found : tree.isDirectory location) :
    location = [] ∨ (location, Entry.directory) ∈ tree.entries := by
  unfold isDirectory at? at found
  split at found
  · exact Or.inl (List.isEmpty_iff.1 ‹_›)
  · exact Or.inr (mem_of_lookup (eq_of_beq found))

/-- Something has a place at a location: the name is one, the directory is there, and no directory is to
give way to a file. -/
def admits (tree : Tree) (location : Location) (entry : Entry) : Bool :=
  match location.getLast? with
  | none => false
  | some name => isEntryName name && tree.isDirectory location.dropLast &&
      (entry == .directory || !tree.isDirectory location)

theorem admits_concat (tree : Tree) (above : Location) (name : String) (entry : Entry) :
    tree.admits (above ++ [name]) entry ↔ isEntryName name ∧ tree.isDirectory above ∧
      (tree.isDirectory (above ++ [name]) → entry = .directory) := by
  have last : (above ++ [name]).getLast? = some name := by simp
  have front : (above ++ [name]).dropLast = above := by simp
  rw [admits, last]
  simp only [front, Bool.and_eq_true, Bool.or_eq_true, beq_iff_eq, Bool.not_eq_true', and_assoc]
  cases tree.isDirectory (above ++ [name]) <;> simp

theorem exists_of_admits {tree : Tree} {location : Location} {entry : Entry}
    (admitted : tree.admits location entry) : ∃ above name, location = above ++ [name] := by
  rcases List.eq_nil_or_concat location with rfl | ⟨above, name, rfl⟩
  · cases admitted
  · exact ⟨above, name, List.concat_eq_append⟩

theorem placed_put {tree : Tree} {location : Location} {entry : Entry}
    (admitted : tree.admits location entry) :
    ∀ listed ∈ (location, entry) :: tree.entries.filter (·.1 != location),
      ∃ above name, listed.1 = above ++ [name] ∧ isEntryName name ∧
        (above = [] ∨
          (above, Entry.directory) ∈ (location, entry) :: tree.entries.filter (·.1 != location)) := by
  obtain ⟨above, name, rfl⟩ := exists_of_admits admitted
  obtain ⟨named, there, stays⟩ := (admits_concat ..).1 admitted
  intro listed member
  rcases List.mem_cons.1 member with rfl | old
  · refine ⟨above, name, rfl, named, (listed_of_isDirectory there).imp_right fun above_ => ?_⟩
    exact List.mem_cons_of_mem _ (List.mem_filter.2 ⟨above_, by simp⟩)
  · obtain ⟨above', name', same, named', above_⟩ := tree.placed listed (List.mem_filter.1 old).1
    refine ⟨above', name', same, named', above_.imp_right fun above_ => ?_⟩
    -- A directory that holds something is only put again as a directory.
    by_cases here : above' = above ++ [name]
    · subst here
      have found : tree.isDirectory (above ++ [name]) := by
        simp [isDirectory, at?, lookup_of_mem tree.distinct above_]
      rw [stays found]
      exact List.mem_cons_self
    · exact List.mem_cons_of_mem _ (List.mem_filter.2 ⟨above_, by simpa using here⟩)

/-- Puts something at a location, in the place of what lies there. Where it has no place all stays as it
is. -/
def put (tree : Tree) (location : Location) (entry : Entry) : Tree :=
  if admitted : tree.admits location entry then {
    entries := (location, entry) :: tree.entries.filter (·.1 != location)
    distinct := by
      rw [List.map_cons, List.nodup_cons]
      refine ⟨fun listed => ?_, (List.filter_sublist.map _).nodup tree.distinct⟩
      obtain ⟨old, member, same⟩ := List.mem_map.1 listed
      exact bne_iff_ne.1 (List.mem_filter.1 member).2 same
    placed := placed_put admitted }
  else tree

/-- Takes away what lies at a location and below it. -/
def remove (tree : Tree) (location : Location) : Tree where
  entries := tree.entries.filter fun entry => !location.isPrefixOf entry.1
  distinct := (List.filter_sublist.map _).nodup tree.distinct
  placed listed member := by
    obtain ⟨member, outside⟩ := List.mem_filter.1 member
    obtain ⟨above, name, same, named, above_⟩ := tree.placed listed member
    refine ⟨above, name, same, named, above_.imp_right fun above_ =>
      List.mem_filter.2 ⟨above_, ?_⟩⟩
    simp only [Bool.not_eq_true', Bool.eq_false_iff, ne_eq, List.isPrefixOf_iff_prefix] at outside ⊢
    exact fun within => outside (same ▸ within.trans (List.prefix_append _ _))

/-- Everything below a location, by its way down from there: what a directory holds follows it, and
names are in ascending order. -/
def below (tree : Tree) (location : Location) : List (Location × Entry) :=
  let inside := tree.entries.filter fun entry =>
    location.isPrefixOf entry.1 && location.length < entry.1.length
  (inside.map fun entry => (entry.1.drop location.length, entry.2)).mergeSort
    fun a b => decide (a.1 < b.1) || a.1 == b.1

/-- What lies in a directory, by name. -/
def children (tree : Tree) (location : Location) : List (String × Entry) :=
  (tree.below location).filterMap fun (way, entry) =>
    match way with
    | [name] => some (name, entry)
    | _ => none

end Tree

/-- Why a path leads nowhere. -/
inductive LostWay where
  /-- There is nothing of this name. -/
  | missing
  /-- Something on the way is no directory, or a name cannot be one. -/
  | blocked
deriving DecidableEq, Repr

/-- A tree seen from a working directory. -/
structure Disk where
  tree : Tree
  current : Location
deriving Repr

namespace Disk

/-- Follows parts of a path from a location. -/
def follow (disk : Disk) (here : Location) : List String → Except LostWay Location
  | [] => .ok here
  | segment :: rest =>
    if !disk.tree.isDirectory here then .error .blocked
    else if isVoid segment then disk.follow here rest
    else if segment == ".." then disk.follow here.dropLast rest
    else if !isLegalName segment then .error .blocked
    else if (disk.tree.at? (here ++ [segment])).isNone then .error .missing
    else disk.follow (here ++ [segment]) rest

/-- Where a path starts. -/
def base (disk : Disk) (path : PathName) : Location := if path.isAbsolute then [] else disk.current

/-- Where a path leads. An empty path leads nowhere. -/
def locate (disk : Disk) (path : PathName) : Except LostWay Location :=
  if path.text.isEmpty then .error .missing else disk.follow (disk.base path) path.segments

/-- What lies where a path leads. -/
def at? (disk : Disk) (path : PathName) : Option Entry :=
  match disk.locate path with
  | .ok location => disk.tree.at? location
  | .error _ => none

def exists? (disk : Disk) (path : PathName) : Bool := (disk.at? path).isSome

def isDirectory (disk : Disk) (path : PathName) : Bool := disk.at? path == some .directory

def isFile (disk : Disk) (path : PathName) : Bool :=
  match disk.at? path with
  | some (.file _) => true
  | _ => false

/-- The text of a file. -/
def read? (disk : Disk) (path : PathName) : Option String :=
  match disk.at? path with
  | some (.file (.text text)) => some text
  | _ => none

/-! ## Changes -/

/-- Where something new would lie: the way to the directory it lies in, and its name. Slashes at the end
of the path are passed over. -/
def place (disk : Disk) (path : PathName) : Except LostWay (Location × String) :=
  if path.text.isEmpty then .error .missing
  else
    match path.segments.reverse.dropWhile (·.isEmpty) with
    | [] => .error .blocked
    | name :: before =>
      match disk.follow (disk.base path) before.reverse with
      | .error lost => .error lost
      | .ok here =>
        if !disk.tree.isDirectory here || isVoid name || name == ".." || !isLegalName name then
          .error .blocked
        else .ok (here, name)

/-- Makes a directory in one that is there. -/
def makeDirectory (disk : Disk) (path : PathName) : Except LostWay Disk :=
  match disk.place path with
  | .error lost => .error lost
  | .ok (here, name) =>
    let location := here ++ [name]
    if (disk.tree.at? location).isSome then .error .blocked
    else .ok { disk with tree := disk.tree.put location .directory }

/-- Makes the directory of the first path; the other ones lie above it, the nearest one first. Where one
is missing those above are made first. Tells whether the directory is there then. -/
def makeDirectoryBelow (disk : Disk) : List PathName → Disk × Bool
  | [] => (disk, false)
  | path :: parents =>
    if path.text.isEmpty then (disk, true)
    else
      match disk.makeDirectory path with
      | .ok disk => (disk, true)
      | .error .blocked => (disk, disk.isDirectory path)
      | .error .missing =>
        let (disk, made) := disk.makeDirectoryBelow parents
        if !made then (disk, false)
        else
          match disk.makeDirectory path with
          | .ok disk => (disk, true)
          | .error _ => (disk, disk.isDirectory path)

/-- Makes a directory and those above it that are missing. -/
def makeDirectories (disk : Disk) (path : PathName) : Disk × Bool :=
  disk.makeDirectoryBelow (path :: path.parents)

/-- Writes a file into a directory that is there. -/
def write? (disk : Disk) (path : PathName) (text : String) : Option Disk :=
  if path.segments.getLast? == some "" then none
  else
    match disk.place path with
    | .error _ => none
    | .ok (here, name) =>
      let location := here ++ [name]
      if disk.tree.isDirectory location then none
      else some { disk with tree := disk.tree.put location (.file (.text text)) }

end Disk
end MessageKeys.Files
