import MessageKeys.Proofs.Files.Absolute
import MessageKeys.Proofs.Files.Resolve
/-!
# Proofs.Files.Elsewhere — absolute paths and the working directory

The working directory only says where relative paths start. Seen from another one (`seenFrom`), a tree shows
the same at every absolute path, the same files are found below absolute roots (`resolve_seenFrom`), and what
is made and written at absolute paths is the same as well (`makeDirectories_seenFrom`, `write?_seenFrom`).
-/
namespace MessageKeys.Files

/-! ## Absolute paths -/

namespace PathName

variable {base path : PathName}

theorem named_of_isAbsolute (absolute : path.isAbsolute) : path.text.isEmpty = false := by
  rw [Bool.eq_false_iff, ne_eq, String.isEmpty_iff]
  intro empty
  rw [isAbsolute, empty] at absolute
  cases absolute

/-- Whatever is seen from an absolute path has one. -/
theorem isAbsolute_join_of_isAbsolute (absolute : base.isAbsolute) (path : PathName) :
    (base.join path).isAbsolute := by
  cases own : path.isAbsolute with
  | true => rwa [join, own, Bool.true_or, if_pos rfl]
  | false => rwa [isAbsolute_join (named_of_isAbsolute absolute) own]

/-- The paths above an absolute path are absolute. -/
theorem isAbsolute_of_mem_parents (absolute : base.isAbsolute) (above : path ∈ base.parents) :
    path.isAbsolute := by
  rw [parents, front, if_pos absolute] at above
  generalize base.body.reverse = before at above
  induction before with
  | nil => cases above
  | cons segment before ih =>
      rw [parentsOf] at above
      split at above
      · exact ih above
      · rcases List.mem_cons.1 above with rfl | higher
        · exact isAbsolute_ofLocation _
        · exact ih higher

end PathName

/-! ## What lies at absolute paths -/

namespace Disk

/-- The same tree, seen from another working directory. -/
def seenFrom (disk : Disk) (current : Location) : Disk := { disk with current }

variable {disk : Disk} {current : Location} {path : PathName}

theorem tree_seenFrom : (disk.seenFrom current).tree = disk.tree := rfl

theorem follow_seenFrom (here : Location) (segments : List String) :
    (disk.seenFrom current).follow here segments = disk.follow here segments := by
  induction segments generalizing here with
  | nil => rfl
  | cons segment rest ih => simp only [follow, tree_seenFrom, ih]

theorem base_seenFrom (absolute : path.isAbsolute) : (disk.seenFrom current).base path = disk.base path := by
  rw [base, base, if_pos absolute, if_pos absolute]

theorem locate_seenFrom (absolute : path.isAbsolute) :
    (disk.seenFrom current).locate path = disk.locate path := by
  rw [locate, locate, base_seenFrom absolute, follow_seenFrom]

theorem at?_seenFrom (absolute : path.isAbsolute) : (disk.seenFrom current).at? path = disk.at? path := by
  rw [at?, at?, locate_seenFrom absolute]
  rfl

theorem exists?_seenFrom (absolute : path.isAbsolute) :
    (disk.seenFrom current).exists? path = disk.exists? path := by
  rw [exists?, exists?, at?_seenFrom absolute]

theorem isDirectory_seenFrom (absolute : path.isAbsolute) :
    (disk.seenFrom current).isDirectory path = disk.isDirectory path := by
  rw [isDirectory, isDirectory, at?_seenFrom absolute]

theorem isFile_seenFrom (absolute : path.isAbsolute) :
    (disk.seenFrom current).isFile path = disk.isFile path := by
  rw [isFile, isFile, at?_seenFrom absolute]

theorem read?_seenFrom (absolute : path.isAbsolute) :
    (disk.seenFrom current).read? path = disk.read? path := by
  rw [read?, read?, at?_seenFrom absolute]

/-! ## Changes at absolute paths -/

theorem place_seenFrom (absolute : path.isAbsolute) :
    (disk.seenFrom current).place path = disk.place path := by
  simp only [place, base_seenFrom absolute, follow_seenFrom]
  rfl

theorem makeDirectory_seenFrom (absolute : path.isAbsolute) :
    (disk.seenFrom current).makeDirectory path =
      (disk.makeDirectory path).map (·.seenFrom current) := by
  rw [makeDirectory, makeDirectory, place_seenFrom absolute]
  cases disk.place path with
  | error lost => rfl
  | ok found =>
      by_cases there : (disk.tree.at? (found.1 ++ [found.2])).isSome <;>
        simp [there, seenFrom, Except.map]

theorem makeDirectoryBelow_seenFrom {paths : List PathName} (absolute : ∀ path ∈ paths, path.isAbsolute) :
    (disk.seenFrom current).makeDirectoryBelow paths =
      ((disk.makeDirectoryBelow paths).1.seenFrom current, (disk.makeDirectoryBelow paths).2) := by
  induction paths generalizing disk with
  | nil => rfl
  | cons path parents ih =>
      obtain ⟨own, higher⟩ := List.forall_mem_cons.1 absolute
      rw [makeDirectoryBelow, makeDirectoryBelow, PathName.named_of_isAbsolute own,
        if_neg Bool.false_ne_true, if_neg Bool.false_ne_true, makeDirectory_seenFrom own,
        isDirectory_seenFrom own, ih higher]
      cases disk.makeDirectory path with
      | ok made => rfl
      | error lost =>
          cases lost with
          | blocked => rfl
          | missing =>
              simp only [Except.map, makeDirectory_seenFrom own, isDirectory_seenFrom own]
              cases (disk.makeDirectoryBelow parents).2 with
              | false => rfl
              | true => cases (disk.makeDirectoryBelow parents).1.makeDirectory path <;> rfl

/-- Making a directory does the same to the tree. -/
theorem makeDirectories_seenFrom (absolute : path.isAbsolute) :
    (disk.seenFrom current).makeDirectories path =
      ((disk.makeDirectories path).1.seenFrom current, (disk.makeDirectories path).2) := by
  refine makeDirectoryBelow_seenFrom fun above member => ?_
  rcases List.mem_cons.1 member with rfl | higher
  · exact absolute
  · exact PathName.isAbsolute_of_mem_parents absolute higher

/-- Writing a file does the same to the tree. -/
theorem write?_seenFrom (absolute : path.isAbsolute) (text : String) :
    (disk.seenFrom current).write? path text = (disk.write? path text).map (·.seenFrom current) := by
  rw [write?, write?, place_seenFrom absolute]
  split
  · rfl
  · cases disk.place path with
    | error lost => rfl
    | ok found =>
        by_cases taken : disk.tree.isDirectory (found.1 ++ [found.2]) <;> simp [taken, seenFrom]

end Disk

/-! ## Searches below absolute roots -/

namespace Glob

variable {disk : Disk} {current : Location} {path : PathName} {directoriesOnly : Bool}

theorem child_of_isAbsolute (absolute : path.isAbsolute) (name : String) :
    child path name = path.join ⟨name⟩ := by
  rw [child, isCurrent, PathName.components, PathName.front, if_pos absolute]
  rfl

theorem isAbsolute_child (absolute : path.isAbsolute) (name : String) : (child path name).isAbsolute := by
  rw [child_of_isAbsolute absolute]
  exact PathName.isAbsolute_join_of_isAbsolute absolute _

theorem counts_seenFrom (absolute : path.isAbsolute) :
    counts directoriesOnly (disk.seenFrom current) path = counts directoriesOnly disk path := by
  rw [counts, counts, Disk.isDirectory_seenFrom absolute]

theorem listing_seenFrom (absolute : path.isAbsolute) :
    listing (disk.seenFrom current) path = listing disk path := by
  rw [listing, listing, Disk.locate_seenFrom absolute]
  rfl

theorem everything_seenFrom (absolute : path.isAbsolute) :
    everything (disk.seenFrom current) path = everything disk path := by
  rw [everything, everything, Disk.locate_seenFrom absolute]
  rfl

theorem isAbsolute_of_mem_listing (absolute : path.isAbsolute) :
    ∀ found ∈ listing disk path, found.1.isAbsolute := by
  intro found member
  unfold listing at member
  split at member
  · obtain ⟨entry, -, rfl⟩ := List.mem_map.1 member
    exact isAbsolute_child absolute _
  · cases member

theorem isAbsolute_of_mem_everything (absolute : path.isAbsolute) :
    ∀ found ∈ everything disk path, found.1.isAbsolute := by
  intro found member
  unfold everything at member
  split at member
  · obtain ⟨entry, -, rfl⟩ := List.mem_map.1 member
    exact isAbsolute_child absolute _
  · cases member

theorem leadsOn_seenFrom (absolute : path.isAbsolute) {next : PathName} (absolute' : next.isAbsolute)
    (text : String) : leadsOn (disk.seenFrom current) path next text = leadsOn disk path next text := by
  rw [leadsOn, leadsOn, Disk.isDirectory_seenFrom absolute, Disk.exists?_seenFrom absolute']

/-- Below an absolute path everything that is found has one. -/
theorem isAbsolute_of_mem_expandFrom (absolute : path.isAbsolute) (parts : List Pattern) :
    ∀ found ∈ expandFrom directoriesOnly disk parts path, found.isAbsolute := by
  fun_induction expandFrom directoriesOnly disk parts path with
  | case1 path | case2 path => simp [absolute]
  | case3 part parts path _ _ text _ _ ih => exact ih (isAbsolute_child absolute text)
  | case4 | case5 => simp
  | case6 part path =>
      intro found member
      obtain ⟨entry, listed, rfl⟩ := List.mem_map.1 member
      exact isAbsolute_of_mem_everything absolute entry (List.mem_filter.1 listed).1
  | case7 part path _ _ _ named parts ih =>
      intro found member
      obtain ⟨entry, listed, inside⟩ := List.mem_flatMap.1 member
      split at inside
      · exact ih entry (isAbsolute_of_mem_everything absolute entry listed) found inside
      · cases inside
  | case8 part parts path _ _ _ ihDots ih =>
      intro found member
      rcases List.mem_append.1 member with dotted | below
      · obtain ⟨name, -, inside⟩ := List.mem_flatMap.1 dotted
        exact ihDots name (PathName.isAbsolute_join_of_isAbsolute absolute _) found inside
      · obtain ⟨entry, listed, inside⟩ := List.mem_flatMap.1 below
        split at inside
        · exact ih entry (isAbsolute_of_mem_listing absolute entry listed) found inside
        · cases inside

/-- The parts of a pattern stand for the same, seen from an absolute path. -/
theorem expandFrom_seenFrom (absolute : path.isAbsolute) (parts : List Pattern) :
    expandFrom directoriesOnly (disk.seenFrom current) parts path =
      expandFrom directoriesOnly disk parts path := by
  -- Whatever a search goes on from is a child of an absolute path, hence absolute itself.
  fun_induction expandFrom directoriesOnly disk parts path with
  | case1 path counted | case2 path counted =>
      rw [expandFrom_nil, counts_seenFrom absolute]
      simp [counted]
  | case3 part parts path text literal name next on ih =>
      rw [expandFrom_literal literal, leadsOn_seenFrom absolute (isAbsolute_child absolute name), if_pos on]
      exact ih (isAbsolute_child absolute name)
  | case4 part parts path text literal name next off =>
      rw [expandFrom_literal literal, leadsOn_seenFrom absolute (isAbsolute_child absolute name),
        if_neg off]
  | case5 part parts path open_ file =>
      rw [expandFrom_file open_ parts]
      simpa [Disk.isDirectory_seenFrom absolute] using file
  | case6 part path open_ directory recursive =>
      rw [expandFrom.eq_def]
      simp only [open_, Disk.isDirectory_seenFrom absolute, directory, recursive, Bool.false_eq_true,
        if_true, if_false, everything_seenFrom absolute]
      congr 1
      refine List.filter_congr fun found listed => ?_
      exact Disk.isDirectory_seenFrom (isAbsolute_of_mem_everything absolute found listed)
  | case7 part path open_ directory recursive named parts ih =>
      rw [expandFrom.eq_def]
      simp only [open_, Disk.isDirectory_seenFrom absolute, directory, recursive, Bool.false_eq_true,
        if_true, if_false, everything_seenFrom absolute]
      refine List.flatMap_congr fun found listed => ?_
      rw [ih found (isAbsolute_of_mem_everything absolute found listed)]
  | case8 part parts path open_ directory single ihDots ih =>
      rw [expandFrom.eq_def]
      simp only [open_, Disk.isDirectory_seenFrom absolute, directory, single, Bool.false_eq_true,
        if_false, listing_seenFrom absolute]
      congr 1
      · refine List.flatMap_congr fun name _ => ?_
        exact ihDots name (PathName.isAbsolute_join_of_isAbsolute absolute _)
      · refine List.flatMap_congr fun found listed => ?_
        rw [ih found (isAbsolute_of_mem_listing absolute found listed)]

variable {glob : Glob}

theorem isAbsolute_of_mem_expand (absolute : glob.isAbsolute) :
    ∀ found ∈ glob.expand disk, found.isAbsolute := by
  rw [expand, if_pos absolute]
  exact isAbsolute_of_mem_expandFrom (by decide) glob.parts

/-- An absolute pattern stands for the same. -/
theorem expand_seenFrom (absolute : glob.isAbsolute) :
    glob.expand (disk.seenFrom current) = glob.expand disk := by
  rw [expand, expand, if_pos absolute]
  exact expandFrom_seenFrom (by decide) glob.parts

/-- Below an absolute root a pattern is absolute. -/
theorem isAbsolute_below {root : PathName} (absolute : root.isAbsolute) {pattern : String}
    (read : ofChars? (patternBelow root pattern).toList = some glob) : glob.isAbsolute := by
  obtain ⟨_, _, _, _, _, rooted⟩ := parts_below read
  exact (rooted (PathName.named_of_isAbsolute absolute)).1.trans absolute

end Glob

section Resolve

variable {disk : Disk} {current : Location} {roots : List PathName} {patterns : List String}

theorem isAbsolute_of_mem_filesBelow {root path : PathName} (absolute : root.isAbsolute) {pattern : String}
    (member : path ∈ filesBelow disk root pattern) : path.isAbsolute := by
  unfold filesBelow at member
  split at member
  · cases member
  · rename_i glob read
    exact Glob.isAbsolute_of_mem_expand (Glob.isAbsolute_below absolute read) path
      (List.mem_filter.1 member).1

theorem filesBelow_seenFrom {root : PathName} (absolute : root.isAbsolute) (pattern : String) :
    filesBelow (disk.seenFrom current) root pattern = filesBelow disk root pattern := by
  unfold filesBelow
  cases read : Glob.ofChars? (patternBelow root pattern).toList with
  | none => rfl
  | some glob =>
      have top := Glob.isAbsolute_below absolute read
      simp only [Glob.expand_seenFrom top]
      exact List.filter_congr fun found listed =>
        Disk.isFile_seenFrom (Glob.isAbsolute_of_mem_expand top found listed)

/-- Absolute roots are looked through alike from everywhere. -/
theorem resolve_seenFrom (absolute : ∀ root ∈ roots, root.isAbsolute) :
    (disk.seenFrom current).resolve roots patterns = disk.resolve roots patterns := by
  have rejected : isRejected (disk.seenFrom current).search = isRejected disk.search := by
    funext pair
    simp only [isRejected, Disk.search, Option.isNone_map]
  have files : ∀ pair ∈ pairs roots patterns,
      filesMet (disk.seenFrom current).search (disk.seenFrom current).isFile pair =
        filesMet disk.search disk.isFile pair := by
    intro pair member
    rw [filesMet_search, filesMet_search, filesBelow_seenFrom (absolute _ (mem_pairs.1 member).1)]
  rw [Disk.resolve, Disk.resolve, resolveBy_eq, resolveBy_eq, rejected, unread_search, unread_search,
    List.flatMap_congr files, List.filter_congr fun pair member => by rw [files pair member]]

theorem isAbsolute_of_resolve (absolute : ∀ root ∈ roots, root.isAbsolute) {resolution : Resolution}
    (found : disk.resolve roots patterns = .ok resolution) :
    ∀ path ∈ resolution.files, path.isAbsolute := by
  intro path member
  rw [resolve_of_readable disk (readable_of_resolve found), Except.ok.injEq] at found
  rw [← found] at member
  obtain ⟨pair, listed, inside⟩ := List.mem_flatMap.1 (mem_of_mem_distinctPaths member)
  exact isAbsolute_of_mem_filesBelow (absolute _ (mem_pairs.1 listed).1) inside

end Resolve
end MessageKeys.Files
