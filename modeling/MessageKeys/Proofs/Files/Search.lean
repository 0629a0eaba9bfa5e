import MessageKeys.Proofs.Files.Listing
import MessageKeys.Proofs.Files.Pattern
/-!
# Proofs.Files.Search — the steps of a search

A search takes the parts of a pattern one after the other. A literal part leads on from a path if the
path it makes leads anywhere (`leadsOn_iff`); any other part is tried on the ways down from where the path
leads, after `..` and `.` (`expandFrom_named`, `expandFrom_recursive`). Where `..` is tried in a directory
the search climbs out of it (`Climbs`).
-/
namespace MessageKeys.Files.Glob

variable {disk : Disk} {directoriesOnly : Bool} {path : PathName} {here : Location}

/-! ## Steps of a search -/

/-- The ways down from where a path leads. -/
def waysFrom (disk : Disk) (path : PathName) : List Location :=
  match disk.locate path with
  | .ok here => disk.tree.ways here
  | .error _ => []

/-- What parts stand for, seen from what lies below a path and is chosen by its way. -/
def descend (directoriesOnly : Bool) (disk : Disk) (chosen : Location → Bool) (parts : List Pattern)
    (path : PathName) : List PathName :=
  (waysFrom disk path).flatMap fun way =>
    if chosen way then
      expandFrom directoriesOnly disk parts (child path (Text.joinStrings '/' way))
    else []

theorem descend_eq {path : PathName} {here : Location} (found : disk.locate path = .ok here)
    (chosen : Location → Bool) (parts : List Pattern) :
    descend directoriesOnly disk chosen parts path = (disk.tree.ways here).flatMap fun way =>
      if chosen way then
        expandFrom directoriesOnly disk parts (child path (Text.joinStrings '/' way))
      else [] := by
  rw [descend, waysFrom, found]

/-- A way of one name that a part stands for. -/
def isNamed (part : Pattern) : Location → Bool
  | [name] => part.isMatch name.toList
  | _ => false

theorem everything_eq (disk : Disk) (path : PathName) :
    everything disk path = (waysFrom disk path).map fun way =>
      (child path (Text.joinStrings '/' way), way.getLast?.getD "") := by
  unfold everything waysFrom
  cases disk.locate path with
  | error lost => rfl
  | ok here =>
      simp only [Tree.ways, List.map_map]
      rfl

theorem listing_eq (disk : Disk) (path : PathName) :
    listing disk path = (waysFrom disk path).filterMap fun
      | [name] => some (child path name, name)
      | _ => none := by
  unfold listing waysFrom
  cases disk.locate path with
  | error lost => rfl
  | ok here =>
      simp only [Tree.ways, Tree.children, List.map_filterMap, List.filterMap_map]
      apply List.filterMap_congr
      rintro ⟨way, entry⟩ -
      rcases way with _ | ⟨name, _ | _⟩ <;> rfl

theorem expandFrom_nil (path : PathName) : expandFrom directoriesOnly disk [] path =
    if counts directoriesOnly disk path then [path] else [] := by
  rw [expandFrom]

theorem expandFrom_literal {part : Pattern} {text : List Char} (literal : part.literal? = some text)
    (parts : List Pattern) (path : PathName) :
    expandFrom directoriesOnly disk (part :: parts) path =
      if leadsOn disk path (child path (String.ofList text)) (String.ofList text) then
        expandFrom directoriesOnly disk parts (child path (String.ofList text))
      else [] := by
  rw [expandFrom.eq_def]
  simp only [literal]

theorem expandFrom_file {part : Pattern} (open_ : part.literal? = none) (parts : List Pattern)
    {path : PathName} (file : disk.isDirectory path = false) :
    expandFrom directoriesOnly disk (part :: parts) path = [] := by
  rw [expandFrom.eq_def]
  simp only [open_, file]
  rfl

theorem expandFrom_recursive {part : Pattern} (open_ : part.literal? = none)
    (recursive : part.isRecursive = true) (named : Pattern) (parts : List Pattern) {path : PathName}
    (directory : disk.isDirectory path = true) :
    expandFrom directoriesOnly disk (part :: named :: parts) path =
      descend directoriesOnly disk (fun way => named.isMatch (way.getLast?.getD "").toList) parts
        path := by
  rw [expandFrom.eq_def]
  simp only [open_, directory, recursive, Bool.not_true, Bool.false_eq_true, if_false, if_true,
    everything_eq, List.flatMap_map]
  rfl

theorem expandFrom_named {part : Pattern} (open_ : part.literal? = none)
    (single : part.isRecursive = false) (parts : List Pattern) {path : PathName}
    (directory : disk.isDirectory path = true) :
    expandFrom directoriesOnly disk (part :: parts) path =
      ((dotNames part).flatMap fun name =>
        expandFrom directoriesOnly disk parts (path.join ⟨name⟩)) ++
      descend directoriesOnly disk (isNamed part) parts path := by
  rw [expandFrom.eq_def]
  simp only [open_, directory, single, Bool.not_true, Bool.false_eq_true, if_false, listing_eq,
    descend]
  congr 1
  induction waysFrom disk path with
  | nil => rfl
  | cons way ways ih =>
      rcases way with _ | ⟨name, _ | ⟨other, rest⟩⟩
      · simpa [isNamed] using ih
      · have same : Text.joinStrings '/' [name] = name := String.ofList_toList
        rw [List.filterMap_cons, List.flatMap_cons, List.flatMap_cons, ih, same]
        rfl
      · simpa [isNamed] using ih

/-- What the first part of a pattern is, and whether there is a directory to look through for it. -/
inductive Turn (disk : Disk) (path : PathName) (part : Pattern) : List Pattern → Prop where
  | literal {parts : List Pattern} {text : List Char} (own : part.literal? = some text) :
      Turn disk path part parts
  | file {parts : List Pattern} (open_ : part.literal? = none) (file : disk.isDirectory path = false) :
      Turn disk path part parts
  | recursiveEnd (open_ : part.literal? = none) (recursive : part.isRecursive = true) :
      Turn disk path part []
  | recursive {first : Pattern} {rest : List Pattern} (open_ : part.literal? = none)
      (recursive : part.isRecursive = true) (directory : disk.isDirectory path = true) :
      Turn disk path part (first :: rest)
  | named {parts : List Pattern} (open_ : part.literal? = none) (single : part.isRecursive = false)
      (directory : disk.isDirectory path = true) : Turn disk path part parts

theorem Turn.of (disk : Disk) (path : PathName) (part : Pattern) (parts : List Pattern) :
    Turn disk path part parts := by
  cases literal : part.literal? with
  | some text => exact .literal literal
  | none =>
      cases directory : disk.isDirectory path with
      | false => exact .file literal directory
      | true =>
          cases recursive : part.isRecursive with
          | false => exact .named literal recursive directory
          | true =>
              cases parts with
              | nil => exact .recursiveEnd literal recursive
              | cons first rest => exact .recursive literal recursive directory

/-! ## Where a step leads -/

theorem follow_single_iff {here there : Location} {name : String} :
    disk.follow here [name] = .ok there ↔ disk.leads here name ∧ Disk.next here name = there := by
  rw [Disk.follow_cons_iff, Disk.follow, Except.ok.injEq]

theorem locate_part_iff {path : PathName} {name : String} {there : Location}
    (named : path.text.isEmpty = false) (slashless : '/' ∉ name.toList) :
    disk.locate (child path name) = .ok there ↔ (child path name).text.isEmpty = false ∧
      ∃ here, disk.locate path = .ok here ∧ disk.follow here [name] = .ok there := by
  rw [Disk.locate_child_iff named (Disk.relative_of_notMem slashless),
    Disk.segments_of_notMem slashless]

/-- A literal part leads on if it leads anywhere. -/
theorem leadsOn_iff {path : PathName} {name : String} (named : path.text.isEmpty = false)
    (slashless : '/' ∉ name.toList) :
    leadsOn disk path (child path name) name ↔ ∃ there, disk.locate (child path name) = .ok there := by
  by_cases dots : name = "." ∨ name = ".."
  · have filled : name.isEmpty = false := by rcases dots with rfl | rfl <;> rfl
    have shown := Disk.text_child_isEmpty named filled (Disk.relative_of_notMem slashless)
    have steps : ∀ here, disk.leads here name = disk.tree.isDirectory here := by
      intro here
      rcases dots with rfl | rfl <;> simp [Disk.leads, isVoid]
    have asked : leadsOn disk path (child path name) name = disk.isDirectory path := by
      rw [leadsOn, if_pos (by simpa using dots)]
    rw [asked, Disk.isDirectory, beq_iff_eq]
    simp only [locate_part_iff named slashless, shown, true_and, follow_single_iff, steps]
    constructor
    · intro directory
      obtain ⟨here, found, there⟩ := Disk.locate_of_at? directory
      exact ⟨_, here, found, (Tree.isDirectory_iff _ _).2 there, rfl⟩
    · rintro ⟨_, here, found, directory, -⟩
      rw [Disk.at?_of_locate found]
      exact (Tree.isDirectory_iff _ _).1 directory
  · have asked : leadsOn disk path (child path name) name = disk.exists? (child path name) := by
      rw [leadsOn, if_neg (by simpa using dots)]
    rw [asked, Disk.exists?]
    constructor
    · intro present
      obtain ⟨entry, there⟩ := Option.isSome_iff_exists.1 present
      obtain ⟨place, found, -⟩ := Disk.locate_of_at? there
      exact ⟨place, found⟩
    · rintro ⟨there, found⟩
      rw [Disk.at?_of_locate found]
      exact Disk.at?_locate found

/-- A literal part that leads on goes a step. -/
theorem follow_of_leadsOn {name : String} (slashless : '/' ∉ name.toList)
    (found : disk.locate path = .ok here) (on : leadsOn disk path (child path name) name) :
    ∃ there, disk.follow here [name] = .ok there ∧ disk.locate (child path name) = .ok there := by
  have named := Disk.text_ne_empty_of_locate found
  obtain ⟨there, reached⟩ := (leadsOn_iff named slashless).1 on
  obtain ⟨-, start, found', way⟩ := (locate_part_iff named slashless).1 reached
  cases found.symm.trans found'
  exact ⟨there, way, reached⟩

/-- The text of a part without slashes has none. -/
theorem slash_notMem_of_literal? {part : Pattern} (tidy : Piece.char '/' ∉ part) {text : List Char}
    (literal : part.literal? = some text) : '/' ∉ (String.ofList text).toList := by
  rw [String.toList_ofList]
  induction part generalizing text with
  | nil =>
      cases literal
      simp
  | cons piece rest ih =>
      rw [List.mem_cons, not_or] at tidy
      cases piece with
      | char c =>
          rw [Pattern.literal?] at literal
          obtain ⟨others, found, rfl⟩ := Option.map_eq_some_iff.1 literal
          rw [List.mem_cons, not_or]
          exact ⟨fun same => tidy.1 (by rw [same]), ih tidy.2 found⟩
      | _ => cases literal

/-! ## The names `..` and `.` -/

theorem eq_of_mem_dotNames {part : Pattern} {name : String} (member : name ∈ dotNames part) :
    name = ".." ∨ name = "." := by
  unfold dotNames at member
  split at member
  · simpa using List.mem_of_mem_filter member
  · cases member

theorem isMatch_of_mem_dotNames {part : Pattern} {name : String} (member : name ∈ dotNames part) :
    part.isMatch name.toList := by
  unfold dotNames at member
  split at member
  · exact (List.mem_filter.1 member).2
  · cases member

/-- `..` and `.` lead on from every directory. -/
theorem locate_dotName {part : Pattern} {name : String} (member : name ∈ dotNames part)
    (found : disk.locate path = .ok here) (directory : disk.tree.isDirectory here) :
    disk.leads here name ∧ disk.locate (path.join ⟨name⟩) = .ok (Disk.next here name) := by
  have shape : (PathName.mk name).isAbsolute = false ∧ (PathName.mk name).segments = [name] ∧
      disk.leads here name := by
    rcases eq_of_mem_dotNames member with rfl | rfl <;>
      exact ⟨rfl, rfl, by simp [Disk.leads, directory, isVoid]⟩
  obtain ⟨relative, alone, on⟩ := shape
  refine ⟨on, (Disk.locate_join_iff (Disk.text_ne_empty_of_locate found) relative).2 ⟨here, found, ?_⟩⟩
  rw [alone]
  exact follow_single_iff.2 ⟨on, rfl⟩

/-! ## What a search climbs out of -/

/-- The names that a part is tried on: its own text, `..` and `.` if it starts with a dot, and what lies in
a directory. -/
inductive Tries (part : Pattern) (name : String) : Prop where
  | literal (own : part.literal? = some name.toList)
  | dots (among : name ∈ dotNames part)
  | named (single : part.isRecursive = false) (entry : isEntryName name)
      (matched : part.isMatch name.toList)

theorem tries_of_literal? {part : Pattern} {text : List Char} (literal : part.literal? = some text) :
    Tries part (String.ofList text) :=
  .literal (by rw [literal, String.toList_ofList])

/-- The part is tried on `..`. -/
def climbs (part : Pattern) : Bool := part.literal? == some ['.', '.'] || (dotNames part).contains ".."

theorem climbs_iff {part : Pattern} : climbs part ↔ Tries part ".." := by
  have parent : "..".toList = ['.', '.'] := rfl
  rw [climbs, Bool.or_eq_true, beq_iff_eq, List.contains_iff_mem, ← parent]
  constructor
  · exact fun up => up.elim .literal .dots
  · intro tried
    cases tried with
    | literal own => exact Or.inl own
    | dots among => exact Or.inr among
    | named _ entry => cases entry

/-- A search that has come to `here` climbs out of a directory by `..` there or further on. -/
inductive Climbs (disk : Disk) : List Pattern → Location → Location → Prop where
  | up {part : Pattern} {parts : List Pattern} {here : Location} (up : Tries part "..")
      (directory : disk.tree.isDirectory here) : Climbs disk (part :: parts) here here
  | step {part : Pattern} {parts : List Pattern} {here place : Location} {name : String}
      (tried : Tries part name) (on : disk.leads here name)
      (rest : Climbs disk parts (Disk.next here name) place) : Climbs disk (part :: parts) here place
  | deeper {part named : Pattern} {parts : List Pattern} {here place way : Location}
      (recursive : part.isRecursive) (among : way ∈ disk.tree.ways here)
      (matched : named.isMatch (way.getLast?.getD "").toList)
      (rest : Climbs disk parts (here ++ way) place) : Climbs disk (part :: named :: parts) here place

/-- What is in a directory under a name that a part stands for is a step away. -/
theorem step_of_isNamed {part : Pattern} {way : Location} (single : part.isRecursive = false)
    (chosen : isNamed part way) (among : way ∈ disk.tree.ways here) :
    ∃ name, Tries part name ∧ disk.leads here name ∧ Disk.next here name = here ++ way := by
  unfold isNamed at chosen
  split at chosen
  · rename_i name
    have there := (Tree.mem_ways_iff.1 among).2
    obtain ⟨entry, -⟩ := Tree.parts_of_at? _ there
    exact ⟨name, .named single entry chosen, Disk.leads_name there⟩
  · cases chosen

/-- An escaped name is tried on itself alone. -/
theorem eq_of_tries_plain {text : List Char} {name : String} (tried : Tries (Pattern.plain text) name) :
    name.toList = text := by
  cases tried with
  | literal own => exact Pattern.literal?_plain own
  | dots among => exact (Pattern.isMatch_plain _ _).1 (isMatch_of_mem_dotNames among)
  | named _ _ matched => exact (Pattern.isMatch_plain _ _).1 matched

end MessageKeys.Files.Glob
