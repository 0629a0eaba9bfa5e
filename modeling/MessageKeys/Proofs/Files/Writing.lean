import MessageKeys.Proofs.Files.Tree
/-!
# Proofs.Files.Writing — what making directories and writing files changes

Making directories fills vacant places and changes nothing else (`Grown`), whether it succeeds or not;
if it does, the directory is there. Writing a file changes what lies at one location, where the path then
leads.
-/
namespace MessageKeys.Files.Disk

variable {disk old new : Disk} {path : PathName}

/-! ## Making directories -/

/-- Directories may have come where nothing was; all else is as before. -/
structure Grown (old new : Disk) : Prop where
  current : new.current = old.current
  at? : ∀ location, new.tree.at? location = old.tree.at? location ∨
    old.tree.at? location = none ∧ new.tree.at? location = some .directory

namespace Grown

theorem refl (disk : Disk) : Grown disk disk := ⟨rfl, fun _ => Or.inl rfl⟩

theorem kept (grown : Grown old new) {location : Location} (there : (old.tree.at? location).isSome) :
    new.tree.at? location = old.tree.at? location := by
  rcases grown.at? location with same | ⟨vacant, -⟩
  · exact same
  · rw [vacant] at there
    cases there

theorem trans {middle : Disk} (first : Grown old middle) (second : Grown middle new) :
    Grown old new := by
  refine ⟨second.current.trans first.current, fun location => ?_⟩
  rcases first.at? location with same | ⟨vacant, made⟩
  · rw [← same]
    exact second.at? location
  · refine Or.inr ⟨vacant, ?_⟩
    rw [second.kept (by rw [made]; rfl), made]

theorem within (grown : Grown old new) : Within old new where
  current := grown.current
  directory there := by
    rw [Tree.isDirectory_iff] at there ⊢
    rw [grown.kept (by rw [there]; rfl), there]
  present there := by
    rw [grown.kept there]
    exact there

end Grown

theorem admits_of_place {here : Location} {name : String} {entry : Entry}
    (placed : disk.place path = .ok (here, name))
    (free : disk.tree.isDirectory (here ++ [name]) → entry = .directory) :
    disk.tree.admits (here ++ [name]) entry := by
  obtain ⟨-, named, directory, -⟩ := place_ok placed
  exact (Tree.admits_concat ..).2 ⟨named, directory, free⟩

theorem makeDirectory_ok (made : disk.makeDirectory path = .ok new) :
    Grown disk new ∧ new.isDirectory path := by
  unfold makeDirectory at made
  split at made
  · cases made
  · rename_i here name placed
    simp only at made
    split at made
    · cases made
    · rename_i vacant
      cases made
      have vacant : disk.tree.at? (here ++ [name]) = none := by simpa using vacant
      have changed := Tree.at?_put (admits_of_place placed fun _ => rfl)
      have grown : Grown disk { disk with tree := disk.tree.put (here ++ [name]) .directory } := by
        refine ⟨rfl, fun location => ?_⟩
        by_cases same : location = here ++ [name]
        · subst same
          exact Or.inr ⟨vacant, by rw [changed, if_pos rfl]⟩
        · exact Or.inl (by rw [changed, if_neg same])
      refine ⟨grown, ?_⟩
      have there : (disk.tree.put (here ++ [name]) .directory).at? (here ++ [name]) =
          some .directory := by
        rw [changed, if_pos rfl]
      have found := locate_placed grown.within placed (Or.inl ((Tree.isDirectory_iff _ _).2 there))
      rw [isDirectory, at?_of_locate found, there]
      rfl

/-- Making a directory never takes anything away, and says so rightly when the directory is there. -/
theorem makeDirectoryBelow_grown (disk : Disk) (paths : List PathName) :
    Grown disk (disk.makeDirectoryBelow paths).1 ∧
      ((disk.makeDirectoryBelow paths).2 = true → ∀ path ∈ paths.head?, path.text.isEmpty = false →
        (disk.makeDirectoryBelow paths).1.isDirectory path) := by
  induction paths generalizing disk with
  | nil => exact ⟨Grown.refl disk, by simp⟩
  | cons path parents ih =>
      unfold makeDirectoryBelow
      split
      · rename_i empty
        exact ⟨Grown.refl disk, fun _ _ first named => by cases first; simp [named] at empty⟩
      · cases first : disk.makeDirectory path with
        | ok made =>
            obtain ⟨grown, there⟩ := makeDirectory_ok first
            exact ⟨grown, fun _ _ same _ => by cases same; exact there⟩
        | error lost =>
            cases lost with
            | blocked => exact ⟨Grown.refl disk, fun there _ same _ => by cases same; exact there⟩
            | missing =>
                obtain ⟨above, -⟩ := ih disk
                simp only
                split
                · exact ⟨above, by simp⟩
                · cases second : (disk.makeDirectoryBelow parents).1.makeDirectory path with
                  | ok made =>
                      obtain ⟨grown, there⟩ := makeDirectory_ok second
                      exact ⟨above.trans grown, fun _ _ same _ => by cases same; exact there⟩
                  | error lost => exact ⟨above, fun there _ same _ => by cases same; exact there⟩

theorem makeDirectories_grown (disk : Disk) (path : PathName) :
    Grown disk (disk.makeDirectories path).1 :=
  (makeDirectoryBelow_grown disk _).1

theorem isDirectory_makeDirectories (named : path.text.isEmpty = false)
    (made : (disk.makeDirectories path).2 = true) : (disk.makeDirectories path).1.isDirectory path :=
  (makeDirectoryBelow_grown disk _).2 made path rfl named

/-- A directory that is there is not made again. -/
theorem makeDirectories_of_isDirectory (there : disk.isDirectory path) :
    disk.makeDirectories path = (disk, true) := by
  obtain ⟨location, found, directory⟩ := locate_of_at? (eq_of_beq there)
  obtain ⟨named, way⟩ := locate_eq_ok_iff.1 found
  have refused : disk.makeDirectory path = .error .blocked := by
    unfold makeDirectory place
    rw [named, if_neg Bool.false_ne_true]
    cases shape : path.segments.reverse.dropWhile (·.isEmpty) with
    | nil => rfl
    | cons name before =>
        obtain ⟨after, whole, -⟩ := segments_of_dropWhile shape
        rw [whole, follow_append_iff] at way
        obtain ⟨here, front, back⟩ := way
        obtain ⟨on, rest⟩ := follow_cons_iff.1 back
        simp only [front]
        split
        · rename_i blocked
          split at blocked
          · cases blocked; rfl
          · cases blocked
        · rename_i placed
          split at placed
          · cases placed
          · rename_i fits
            cases placed
            have present := at?_next on
            simp only [Bool.or_eq_true, Bool.not_eq_true', not_or, Bool.not_eq_false,
              Bool.not_eq_true, beq_iff_eq] at fits
            obtain ⟨⟨⟨-, full⟩, up⟩, -⟩ := fits
            rw [next_name full up] at present
            simp only [present, if_true]
  have rest : path.text.isEmpty = false := named
  unfold makeDirectories makeDirectoryBelow
  rw [rest, if_neg Bool.false_ne_true, refused, there]

/-! ## Writing files -/

theorem write?_eq_some_iff {text : String} :
    disk.write? path text = some new ↔
      path.segments.getLast? ≠ some "" ∧ ∃ here name, disk.place path = .ok (here, name) ∧
        disk.tree.isDirectory (here ++ [name]) = false ∧
        new = { disk with tree := disk.tree.put (here ++ [name]) (.file (.text text)) } := by
  unfold write?
  by_cases closed : path.segments.getLast? = some ""
  · simp [closed]
  · rw [if_neg (by simpa using closed)]
    cases placed : disk.place path with
    | error lost => simp
    | ok there =>
        obtain ⟨here, name⟩ := there
        cases directory : disk.tree.isDirectory (here ++ [name]) with
        | true => simp [directory]
        | false =>
            simp only [directory, Bool.false_eq_true, if_false, Option.some.injEq, ne_eq, closed,
              not_false_iff, true_and, Except.ok.injEq, Prod.mk.injEq]
            constructor
            · rintro rfl
              exact ⟨here, name, ⟨rfl, rfl⟩, directory, rfl⟩
            · rintro ⟨_, _, ⟨rfl, rfl⟩, -, rfl⟩
              rfl

/-- A file that was written lies where its path leads, and all else is as before. -/
theorem write?_ok {text : String} (written : disk.write? path text = some new) :
    Within disk new ∧ ∃ location, new.locate path = .ok location ∧ ∀ other, new.tree.at? other =
      if other = location then some (.file (.text text)) else disk.tree.at? other := by
  obtain ⟨closed, here, name, placed, free, rfl⟩ := write?_eq_some_iff.1 written
  have admitted : disk.tree.admits (here ++ [name]) (.file (.text text)) :=
    admits_of_place placed fun directory => absurd directory (by simp [free])
  have changed := Tree.at?_put admitted
  have within : Within disk
      { disk with tree := disk.tree.put (here ++ [name]) (.file (.text text)) } := by
    refine ⟨rfl, fun {location} there => ?_, fun {location} there => ?_⟩
    · rw [Tree.isDirectory_iff] at there ⊢
      rw [changed, if_neg, there]
      rintro rfl
      rw [← Tree.isDirectory_iff, free] at there
      cases there
    · rw [changed]
      split
      · rfl
      · exact there
  refine ⟨within, here ++ [name], locate_placed within placed (Or.inr ⟨?_, closed⟩), changed⟩
  rw [changed, if_pos rfl]
  rfl

end MessageKeys.Files.Disk
