import MessageKeys.Proofs.Files.Spelling
import MessageKeys.Proofs.Files.Writing
/-!
# Proofs.Files.Alike — disks that look alike

Two disks look alike if the same lies at every location (`Alike`); the order in which their trees list it
does not matter. Writing what a file holds already leaves a disk that looks alike (`write?_again`).
-/
namespace MessageKeys.Files.Disk

variable {disk first second third : Disk} {path : PathName}

/-- The same lies at every location. -/
structure Alike (first second : Disk) : Prop where
  current : second.current = first.current
  at? : ∀ place, second.tree.at? place = first.tree.at? place

namespace Alike

theorem refl (disk : Disk) : Alike disk disk := ⟨rfl, fun _ => rfl⟩

theorem symm (alike : Alike first second) : Alike second first :=
  ⟨alike.current.symm, fun place => (alike.at? place).symm⟩

theorem trans (one : Alike first second) (other : Alike second third) : Alike first third :=
  ⟨other.current.trans one.current, fun place => (other.at? place).trans (one.at? place)⟩

theorem within (alike : Alike first second) : Within first second where
  current := alike.current
  directory there := by
    rw [Tree.isDirectory_iff] at there ⊢
    rw [alike.at?, there]
  present there := by rwa [alike.at?]

/-- Paths lead to the same. -/
theorem at?_path (alike : Alike first second) (path : PathName) : second.at? path = first.at? path := by
  cases found : first.locate path with
  | ok place =>
      rw [at?_of_locate found, at?_of_locate (alike.within.locate found), alike.at?]
  | error lost =>
      have still : ∀ place, second.locate path ≠ .ok place := by
        intro place there
        rw [alike.symm.within.locate there] at found
        cases found
      unfold Disk.at?
      rw [found]
      split
      · exact absurd (by assumption) (still _)
      · rfl

end Alike

/-- A file has its place where its path leads. -/
theorem place_of_locate {there : Location} {content : Content}
    (found : disk.locate path = .ok there) (file : disk.tree.at? there = some (.file content)) :
    ∃ here name, there = here ++ [name] ∧ disk.place path = .ok (here, name) ∧
      path.segments.getLast? ≠ some "" := by
  obtain ⟨front, here, name, shape, full, other, rfl⟩ := last_of_locate found file
  obtain ⟨named, way⟩ := locate_eq_ok_iff.1 found
  rw [shape, follow_append_iff] at way
  obtain ⟨above, before, last⟩ := way
  obtain ⟨on, ends⟩ := follow_cons_iff.1 last
  have same : above = here := by
    have arrives : next above name = here ++ [name] := Except.ok.inj ends
    rw [next_name full other] at arrives
    exact (List.append_inj' arrives rfl).1
  subst same
  obtain ⟨directory, legal, -⟩ := (leads_name_iff full other).1 on
  have filled : name.isEmpty = false := by
    rw [isVoid, Bool.or_eq_false_iff] at full
    exact full.1
  refine ⟨above, name, rfl, ?_, ?_⟩
  · have turned : path.segments.reverse.dropWhile (·.isEmpty) = name :: front.reverse := by
      rw [shape, List.reverse_append, List.reverse_singleton, List.singleton_append,
        List.dropWhile_cons, filled, if_neg Bool.false_ne_true]
    unfold place
    rw [named, if_neg Bool.false_ne_true, turned]
    simp only [List.reverse_reverse, before, directory, full, legal]
    rw [if_neg (by simp [other])]
  · rw [shape, List.getLast?_concat]
    intro empty
    rw [Option.some.inj empty] at filled
    cases filled

/-- Writing a file as it is can be done, and changes nothing. -/
theorem write?_again {text : String} (read : disk.read? path = some text) :
    ∃ after, disk.write? path text = some after ∧ Alike disk after := by
  unfold read? at read
  split at read
  · rename_i content found
    cases read
    obtain ⟨there, leads, file⟩ := locate_of_at? found
    obtain ⟨here, name, rfl, placed, closed⟩ := place_of_locate leads file
    have free : disk.tree.isDirectory (here ++ [name]) = false := by
      rw [Tree.isDirectory, file]
      rfl
    refine ⟨_, write?_eq_some_iff.2 ⟨closed, here, name, placed, free, rfl⟩, rfl, fun place => ?_⟩
    rw [Tree.at?_put (admits_of_place placed fun directory => absurd directory (by simp [free]))]
    split
    · rename_i same
      rw [same, file]
    · rfl
  · cases read

end MessageKeys.Files.Disk
