import MessageKeys.Proofs.Files.Search
import MessageKeys.Proofs.Files.Writing
/-!
# Proofs.Files.SearchAgain — a search before and after files are written

Files are written at some locations, and directories come where nothing was (`Renewed`). A search then
finds the files that were not written in the same order as before, provided that it does not climb by `..`
out of a directory that has come (`Calm`).

A path that is searched led somewhere before, and leads there still (`sources_of_calm`), or it leads to
something that has come (`sources_of_stray`), below which nothing is old, or it leads nowhere
(`sources_of_lost`).
-/
namespace MessageKeys.Files
open Disk (Within)

/-- A file other than those that are written. -/
def Disk.isSource (disk : Disk) (written : Location → Bool) (path : PathName) : Bool :=
  match disk.locate path with
  | .ok place => disk.isFile path && !written place
  | .error _ => false

/-- Files are written at these locations, and directories have come where nothing was. -/
structure Renewed (old new : Disk) (written : Location → Bool) : Prop where
  within : Within old new
  text : ∀ place, written place → ∃ text, new.tree.at? place = some (.file (.text text))
  others : ∀ place, written place = false → new.tree.at? place = old.tree.at? place ∨
    old.tree.at? place = none ∧ new.tree.at? place = some .directory

namespace Glob

variable {disk old new : Disk} {written : Location → Bool} {directoriesOnly : Bool}

/-- Sources are files, so `**` at the end finds none. -/
theorem sources_of_recursive_end {part : Pattern} (open_ : part.literal? = none)
    (recursive : part.isRecursive = true) (path : PathName) :
    (expandFrom directoriesOnly disk [part] path).filter (disk.isSource written) = [] := by
  rw [expandFrom.eq_def]
  simp only [open_, recursive, if_true]
  split
  · rfl
  · refine List.filter_eq_nil_iff.2 fun found member => ?_
    obtain ⟨place, among, rfl⟩ := List.mem_map.1 member
    have directory := (List.mem_filter.1 among).2
    rw [Disk.isSource, Disk.isFile, eq_of_beq directory]
    split <;> simp

/-! ## Paths that lead nowhere -/

theorem sources_of_lost {parts : List Pattern} (tidy : ∀ part ∈ parts, Piece.char '/' ∉ part)
    {path : PathName} (named : path.text.isEmpty = false) (lost : ∀ here, disk.locate path ≠ .ok here) :
    (expandFrom directoriesOnly disk parts path).filter (disk.isSource written) = [] := by
  cases parts with
  | nil =>
      have noSource : disk.isSource written path = false := by
        unfold Disk.isSource
        split
        · exact absurd (by assumption) (lost _)
        · rfl
      rw [expandFrom_nil]
      split <;> simp [noSource]
  | cons part parts =>
      rw [List.forall_mem_cons] at tidy
      cases literal : part.literal? with
      | some text =>
          have slashless := slash_notMem_of_literal? tidy.1 literal
          have stops : ¬ leadsOn disk path (child path (String.ofList text)) (String.ofList text) := by
            rw [leadsOn_iff named slashless]
            rintro ⟨there, found⟩
            obtain ⟨-, here, before, -⟩ := (locate_part_iff named slashless).1 found
            exact lost here before
          rw [expandFrom_literal literal, if_neg stops]
          rfl
      | none =>
          have file : disk.isDirectory path = false := by
            rw [Bool.eq_false_iff]
            intro directory
            obtain ⟨here, found, -⟩ := Disk.locate_of_at? (eq_of_beq directory)
            exact lost here found
          rw [expandFrom_file literal parts file]
          rfl

/-! ## Paths to what has come -/

theorem at?_append_of_none {tree : Tree} {here : Location} (nothing : tree.at? here = none)
    (way : Location) : tree.at? (here ++ way) = none := by
  induction way using List.reverseRecOn with
  | nil => rw [List.append_nil, nothing]
  | append_singleton way name ih =>
      rw [← List.append_assoc]
      by_contra there
      obtain ⟨-, directory⟩ := tree.parts_of_at? (Option.isSome_iff_ne_none.2 there)
      rw [(tree.isDirectory_iff _).1 directory] at ih
      cases ih

theorem at?_next_of_none {tree : Tree} {here : Location} {name : String}
    (nothing : tree.at? here = none) (down : name ≠ "..") : tree.at? (Disk.next here name) = none := by
  unfold Disk.next
  rw [if_neg down]
  split
  · exact nothing
  · exact at?_append_of_none nothing [name]

/-- Every directory that a search from here climbs out of was one before. -/
def Calm (old new : Disk) (parts : List Pattern) (here : Location) : Prop :=
  ∀ place, Climbs new parts here place → old.tree.isDirectory place

namespace Calm

variable {part : Pattern} {parts : List Pattern} {here : Location}

theorem step (calm : Calm old new (part :: parts) here) {name : String} (tried : Tries part name)
    (on : new.leads here name) : Calm old new parts (Disk.next here name) :=
  fun place climbs => calm place (.step tried on climbs)

theorem named (calm : Calm old new (part :: parts) here) (single : part.isRecursive = false)
    {way : Location} (chosen : isNamed part way) (among : way ∈ new.tree.ways here) :
    Calm old new parts (here ++ way) := by
  obtain ⟨name, tried, on, there⟩ := step_of_isNamed single chosen among
  rw [← there]
  exact calm.step tried on

theorem deeper {next : Pattern} (calm : Calm old new (part :: next :: parts) here)
    (recursive : part.isRecursive) {way : Location} (among : way ∈ new.tree.ways here)
    (matched : next.isMatch (way.getLast?.getD "").toList) : Calm old new parts (here ++ way) :=
  fun place climbs => calm place (.deeper recursive among matched climbs)

/-- `..` is not tried in a directory that has come. -/
theorem ne_parent (calm : Calm old new (part :: parts) here) (nothing : old.tree.at? here = none)
    (directory : new.tree.isDirectory here) {name : String} (tried : Tries part name) :
    name ≠ ".." := by
  rintro rfl
  have before := (Tree.isDirectory_iff _ _).1 (calm here (.up tried directory))
  rw [nothing] at before
  cases before

end Calm

theorem isSource_of_stray (renewed : Renewed old new written) {path : PathName} {here : Location}
    (found : new.locate path = .ok here) (nothing : old.tree.at? here = none) :
    new.isSource written path = false := by
  rw [Disk.isSource, found]
  simp only [Disk.isFile, Disk.at?_of_locate found]
  cases wrote : written here with
  | true => simp
  | false =>
      rcases renewed.others here wrote with same | ⟨-, made⟩
      · rw [same, nothing]
        rfl
      · rw [made]
        rfl

theorem sources_of_descend_stray {chosen : Location → Bool} {parts : List Pattern} {path : PathName}
    {here : Location} (found : new.locate path = .ok here) (nothing : old.tree.at? here = none)
    (onward : ∀ {path way}, way ∈ new.tree.ways here → chosen way →
      new.locate path = .ok (here ++ way) → old.tree.at? (here ++ way) = none →
      (expandFrom directoriesOnly new parts path).filter (new.isSource written) = []) :
    (descend directoriesOnly new chosen parts path).filter (new.isSource written) = [] := by
  rw [descend_eq found, List.filter_flatMap, List.flatMap_eq_nil_iff]
  intro way among
  split
  · rename_i picked
    obtain ⟨longer, there⟩ := Tree.mem_ways_iff.1 among
    exact onward among picked (Disk.locate_way found longer there).1 (at?_append_of_none nothing way)
  · rfl

/-- Below what has come there is nothing but what is written. -/
theorem sources_of_stray (renewed : Renewed old new written) :
    ∀ {parts : List Pattern} {path : PathName} {here : Location},
      (∀ part ∈ parts, Piece.char '/' ∉ part) → Calm old new parts here →
      new.locate path = .ok here → old.tree.at? here = none →
      (expandFrom directoriesOnly new parts path).filter (new.isSource written) = []
  | [], path, here, _, _, found, nothing => by
      rw [expandFrom_nil]
      split <;> simp [isSource_of_stray renewed found nothing]
  | part :: parts, path, here, tidy, calm, found, nothing => by
      rw [List.forall_mem_cons] at tidy
      cases Turn.of new path part parts with
      | @literal _ text literal =>
          rw [expandFrom_literal literal]
          split
          · rename_i on
            obtain ⟨there, way, reached⟩ :=
              follow_of_leadsOn (slash_notMem_of_literal? tidy.1 literal) found on
            obtain ⟨leads, rfl⟩ := follow_single_iff.1 way
            -- The step goes down, for a calm search climbs out of nothing that has come.
            have tried := tries_of_literal? literal
            exact sources_of_stray renewed tidy.2 (calm.step tried leads) reached
              (at?_next_of_none nothing
                (calm.ne_parent nothing (Disk.isDirectory_of_follow (by simp) way) tried))
          · rfl
      | file open_ file =>
          rw [expandFrom_file open_ parts file]
          rfl
      | recursiveEnd open_ recursive => exact sources_of_recursive_end open_ recursive path
      | @recursive first rest open_ recursive directory =>
          rw [expandFrom_recursive open_ recursive first rest directory]
          rw [List.forall_mem_cons] at tidy
          exact sources_of_descend_stray found nothing fun among chosen =>
            sources_of_stray renewed tidy.2.2 (calm.deeper recursive among chosen)
      | named open_ single directory =>
          rw [expandFrom_named open_ single parts directory, List.filter_append,
            sources_of_descend_stray found nothing fun among chosen =>
              sources_of_stray renewed tidy.2 (calm.named single chosen among),
            List.append_nil, List.filter_flatMap, List.flatMap_eq_nil_iff]
          intro name member
          rw [Disk.isDirectory_eq_of_locate found] at directory
          obtain ⟨leads, reached⟩ := locate_dotName member found directory
          exact sources_of_stray renewed tidy.2 (calm.step (.dots member) leads) reached
            (at?_next_of_none nothing (calm.ne_parent nothing directory (.dots member)))
termination_by parts => parts.length

/-! ## Paths to what was there before -/

theorem isDirectory_of_renewed (renewed : Renewed old new written) {place : Location}
    (there : (old.tree.at? place).isSome) (directory : new.tree.isDirectory place) :
    old.tree.isDirectory place := by
  rw [Tree.isDirectory_iff] at directory ⊢
  cases wrote : written place with
  | true =>
      obtain ⟨text, file⟩ := renewed.text place wrote
      rw [directory] at file
      cases file
  | false =>
      rcases renewed.others place wrote with same | ⟨nothing, -⟩
      · rw [← same, directory]
      · rw [nothing] at there
        cases there

/-- What was a directory is one, and nothing else that was there is. -/
theorem isDirectory_eq (renewed : Renewed old new written) {path : PathName} {here : Location}
    (found : old.locate path = .ok here) : new.isDirectory path = old.isDirectory path := by
  rw [Disk.isDirectory_eq_of_locate found, Disk.isDirectory_eq_of_locate (renewed.within.locate found),
    Bool.eq_iff_iff]
  exact ⟨isDirectory_of_renewed renewed (Disk.at?_locate found), renewed.within.directory⟩

theorem isSource_eq (renewed : Renewed old new written) {path : PathName} {here : Location}
    (found : old.locate path = .ok here) : new.isSource written path = old.isSource written path := by
  have found' := renewed.within.locate found
  rw [Disk.isSource, Disk.isSource, found, found']
  simp only [Disk.isFile, Disk.at?_of_locate found, Disk.at?_of_locate found']
  cases wrote : written here with
  | true => rw [Bool.not_true, Bool.and_false, Bool.and_false]
  | false =>
      rcases renewed.others here wrote with same | ⟨nothing, -⟩
      · rw [same]
      · have there := Disk.at?_locate found
        rw [nothing] at there
        cases there

theorem flatMap_filter_of_nil {α β : Type} {f : α → List β} {p : α → Bool} {items : List α}
    (idle : ∀ item ∈ items, p item = false → f item = []) :
    items.flatMap f = (items.filter p).flatMap f := by
  induction items with
  | nil => rfl
  | cons item items ih =>
      rw [List.forall_mem_cons] at idle
      rw [List.flatMap_cons, List.filter_cons, ih idle.2]
      cases kept : p item with
      | true => rfl
      | false =>
          rw [idle.1 kept]
          rfl

/-- Below a directory that was there the same sources are found, if they are from whatever was there. -/
theorem sources_of_descend (renewed : Renewed old new written) {chosen : Location → Bool}
    {parts : List Pattern} {path : PathName} {here : Location} (found : old.locate path = .ok here)
    (onward : ∀ {path way}, way ∈ new.tree.ways here → chosen way →
      old.locate path = .ok (here ++ way) →
      (expandFrom directoriesOnly new parts path).filter (new.isSource written) =
        (expandFrom directoriesOnly old parts path).filter (old.isSource written))
    (stray : ∀ {path way}, way ∈ new.tree.ways here → chosen way →
      new.locate path = .ok (here ++ way) → old.tree.at? (here ++ way) = none →
      (expandFrom directoriesOnly new parts path).filter (new.isSource written) = []) :
    (descend directoriesOnly new chosen parts path).filter (new.isSource written) =
      (descend directoriesOnly old chosen parts path).filter (old.isSource written) := by
  have found' := renewed.within.locate found
  have ways := Tree.filter_ways (fun _ => renewed.within.present) here
  rw [descend_eq found, descend_eq found', List.filter_flatMap, List.filter_flatMap, ← ways,
    flatMap_filter_of_nil (p := fun way => (old.tree.at? (here ++ way)).isSome)]
  · refine List.flatMap_congr fun way member => ?_
    obtain ⟨among, there⟩ := List.mem_filter.1 member
    obtain ⟨longer, -⟩ := Tree.mem_ways_iff.1 among
    split
    · rename_i picked
      exact onward among picked (Disk.locate_way found longer there).1
    · rfl
  · intro way among nothing
    obtain ⟨longer, there⟩ := Tree.mem_ways_iff.1 among
    split
    · rename_i picked
      exact stray among picked (Disk.locate_way found' longer there).1 (by simpa using nothing)
    · rfl

/-- A step that leads on now and did not before goes to what has come. -/
theorem at?_next_of_gained (renewed : Renewed old new written) {here there : Location} {name : String}
    (start : (old.tree.at? here).isSome) (way : new.follow here [name] = .ok there)
    (stopped : ∀ there, old.follow here [name] ≠ .ok there) : old.tree.at? there = none := by
  obtain ⟨on, rfl⟩ := follow_single_iff.1 way
  have directory := isDirectory_of_renewed renewed start (Disk.isDirectory_of_follow (by simp) way)
  have off : ¬ old.leads here name := fun on' => stopped _ (follow_single_iff.2 ⟨on', rfl⟩)
  -- From a directory it is only a name that can lead nowhere.
  have full : isVoid name = false := by
    rw [Bool.eq_false_iff]
    intro void
    exact off (by rw [Disk.leads, directory, void]; rfl)
  have down : name ≠ ".." := by
    rintro rfl
    exact off (by rw [Disk.leads, directory]; rfl)
  obtain ⟨-, legal, -⟩ := (Disk.leads_name_iff full down).1 on
  rw [Disk.next_name full down, Option.eq_none_iff_forall_ne_some]
  intro kind present
  exact off ((Disk.leads_name_iff full down).2 ⟨directory, legal, by rw [present]; rfl⟩)

/-- A literal part finds the same sources as before, if what follows it does. -/
theorem sources_of_literal (renewed : Renewed old new written) {part : Pattern} {text : List Char}
    (literal : part.literal? = some text) (slashless : '/' ∉ (String.ofList text).toList)
    {parts : List Pattern} {path : PathName} {here : Location} (found : old.locate path = .ok here)
    (onward : ∀ {path there}, new.follow here [String.ofList text] = .ok there →
      old.locate path = .ok there →
      (expandFrom directoriesOnly new parts path).filter (new.isSource written) =
        (expandFrom directoriesOnly old parts path).filter (old.isSource written))
    (stray : ∀ {path there}, new.follow here [String.ofList text] = .ok there →
      new.locate path = .ok there → old.tree.at? there = none →
      (expandFrom directoriesOnly new parts path).filter (new.isSource written) = []) :
    (expandFrom directoriesOnly new (part :: parts) path).filter (new.isSource written) =
      (expandFrom directoriesOnly old (part :: parts) path).filter (old.isSource written) := by
  have named := Disk.text_ne_empty_of_locate found
  have found' := renewed.within.locate found
  rw [expandFrom_literal literal, expandFrom_literal literal]
  by_cases before : leadsOn old path (child path (String.ofList text)) (String.ofList text)
  · obtain ⟨there, way, reached⟩ := follow_of_leadsOn slashless found before
    rw [if_pos before,
      if_pos ((leadsOn_iff named slashless).2 ⟨there, renewed.within.locate reached⟩)]
    exact onward (renewed.within.follow way) reached
  · rw [if_neg before]
    split
    · rename_i after
      obtain ⟨there, way, reached⟩ := follow_of_leadsOn slashless found' after
      obtain ⟨shown, -⟩ := (locate_part_iff named slashless).1 reached
      refine stray way reached (at?_next_of_gained renewed (Disk.at?_locate found) way ?_)
      intro there' way'
      exact before ((leadsOn_iff named slashless).2
        ⟨there', (locate_part_iff named slashless).2 ⟨shown, here, found, way'⟩⟩)
    · rfl

/-- **A search finds the same sources.**  It starts where something was, and climbs out of nothing that has
come. -/
theorem sources_of_calm (renewed : Renewed old new written) :
    ∀ {parts : List Pattern} {path : PathName} {here : Location},
      (∀ part ∈ parts, Piece.char '/' ∉ part) → Calm old new parts here → old.locate path = .ok here →
      (expandFrom directoriesOnly new parts path).filter (new.isSource written) =
        (expandFrom directoriesOnly old parts path).filter (old.isSource written)
  | [], path, here, _, _, found => by
      rw [expandFrom_nil, expandFrom_nil, counts, counts, isDirectory_eq renewed found]
      split
      · rw [List.filter_singleton, List.filter_singleton, isSource_eq renewed found]
      · rfl
  | part :: parts, path, here, tidy, calm, found => by
      rw [List.forall_mem_cons] at tidy
      -- Whether there is a directory to look through has not changed.
      have same := isDirectory_eq renewed found
      cases Turn.of old path part parts with
      | @literal _ text literal =>
          have onto : ∀ {there}, new.follow here [String.ofList text] = .ok there →
              Calm old new parts there := by
            intro there way
            obtain ⟨leads, rfl⟩ := follow_single_iff.1 way
            exact calm.step (tries_of_literal? literal) leads
          exact sources_of_literal renewed literal (slash_notMem_of_literal? tidy.1 literal) found
            (fun way => sources_of_calm renewed tidy.2 (onto way))
            fun way => sources_of_stray renewed tidy.2 (onto way)
      | file open_ file =>
          rw [expandFrom_file open_ parts file, expandFrom_file open_ parts (same.trans file)]
          rfl
      | recursiveEnd open_ recursive =>
          rw [sources_of_recursive_end open_ recursive, sources_of_recursive_end open_ recursive]
      | @recursive first rest open_ recursive directory =>
          rw [List.forall_mem_cons] at tidy
          rw [expandFrom_recursive open_ recursive first rest directory,
            expandFrom_recursive open_ recursive first rest (same.trans directory)]
          exact sources_of_descend renewed found
            (fun among chosen => sources_of_calm renewed tidy.2.2 (calm.deeper recursive among chosen))
            fun among chosen => sources_of_stray renewed tidy.2.2 (calm.deeper recursive among chosen)
      | named open_ single directory =>
          rw [expandFrom_named open_ single parts directory,
            expandFrom_named open_ single parts (same.trans directory), List.filter_append,
            List.filter_append, List.filter_flatMap, List.filter_flatMap]
          congr 1
          · refine List.flatMap_congr fun name member => ?_
            rw [Disk.isDirectory_eq_of_locate found] at directory
            obtain ⟨leads, reached⟩ := locate_dotName member found directory
            exact sources_of_calm renewed tidy.2
              (calm.step (.dots member) (renewed.within.leads leads)) reached
          · exact sources_of_descend renewed found
              (fun among chosen => sources_of_calm renewed tidy.2 (calm.named single chosen among))
              fun among chosen => sources_of_stray renewed tidy.2 (calm.named single chosen among)
termination_by parts => parts.length

end Glob
end MessageKeys.Files
