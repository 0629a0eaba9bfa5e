import MessageKeys.Job
import MessageKeys.Proofs.Files.Writing
/-!
# Proofs.Job.Written — what writing files leaves behind

`Written` says what is on a disk after some files were written: the file where a path leads holds the
text of the last one that leads there, and everywhere else at most directories have come. One write does
this for its file (`written_write`), and writing one after the other adds up (`Written.cons`). Where
writing fails, the files before it were written and nothing else (`writeAll_spec`).
-/
namespace MessageKeys.Job
open Files (PathName Disk Location Tree)
open Files.Disk (Grown Within)

/-- The disk after these files were written, one after the other. -/
structure Written (before after : Disk) (files : List Prepared) : Prop where
  within : Within before after
  /-- A path leads to a file that holds the text of the last one that leads there. -/
  holds : ∀ file ∈ files, ∃ location front last back, files = front ++ last :: back ∧
    after.locate file.path = .ok location ∧ after.locate last.path = .ok location ∧
    (∀ later ∈ back, after.locate later.path ≠ .ok location) ∧
    after.tree.at? location = some (.file (.text last.text))
  /-- Where no path leads, at most a directory has come. -/
  others : ∀ location, (∀ file ∈ files, after.locate file.path ≠ .ok location) →
    after.tree.at? location = before.tree.at? location ∨
      before.tree.at? location = none ∧ after.tree.at? location = some .directory

namespace Written

variable {before middle after : Disk} {file : Prepared} {files : List Prepared}

theorem ofGrown (grown : Grown before after) : Written before after [] :=
  ⟨grown.within, by simp, fun location _ => grown.at? location⟩

theorem nil (disk : Disk) : Written disk disk [] := ofGrown (Grown.refl disk)

/-- One file that was written stands where its path leads. -/
theorem placed (written : Written before after [file]) :
    ∃ location, after.locate file.path = .ok location ∧
      after.tree.at? location = some (.file (.text file.text)) := by
  obtain ⟨location, front, last, back, shape, found, -, -, text⟩ :=
    written.holds file List.mem_cons_self
  have among : last ∈ [file] := by
    rw [shape]
    simp
  cases List.mem_singleton.1 among
  exact ⟨location, found, text⟩

/-- A file that was written before others keeps its text unless one of them leads to the same place. -/
theorem holds_first (first : Written before middle [file]) (rest : Written middle after files) :
    ∃ location front last back, file :: files = front ++ last :: back ∧
      after.locate file.path = .ok location ∧ after.locate last.path = .ok location ∧
      (∀ later ∈ back, after.locate later.path ≠ .ok location) ∧
      after.tree.at? location = some (.file (.text last.text)) := by
  obtain ⟨location, found, text⟩ := first.placed
  have leads := rest.within.locate found
  by_cases later : ∃ other ∈ files, after.locate other.path = .ok location
  · obtain ⟨other, listed, there⟩ := later
    obtain ⟨place, front, last, back, shape, found', lastFound, alone, text'⟩ :=
      rest.holds other listed
    cases there.symm.trans found'
    exact ⟨location, file :: front, last, back, by rw [shape, List.cons_append], leads, lastFound,
      alone, text'⟩
  · have alone : ∀ other ∈ files, after.locate other.path ≠ .ok location :=
      fun other listed there => later ⟨other, listed, there⟩
    refine ⟨location, [], file, files, rfl, leads, leads, alone, ?_⟩
    -- Nothing comes to a place that is taken.
    rcases rest.others location alone with same | ⟨vacant, -⟩
    · rw [same, text]
    · rw [text] at vacant
      cases vacant

/-- Where neither the one nor the others lead, at most a directory has come. -/
theorem others_both (first : Written before middle [file]) (rest : Written middle after files)
    {location : Location} (elsewhere : ∀ named ∈ file :: files, after.locate named.path ≠ .ok location) :
    after.tree.at? location = before.tree.at? location ∨
      before.tree.at? location = none ∧ after.tree.at? location = some .directory := by
  rw [List.forall_mem_cons] at elsewhere
  have missed : ∀ named ∈ [file], middle.locate named.path ≠ .ok location := by
    intro named member found
    cases List.mem_singleton.1 member
    exact elsewhere.1 (rest.within.locate found)
  rcases first.others location missed with same | ⟨vacant, made⟩
  · rw [← same]
    exact rest.others location elsewhere.2
  · rcases rest.others location elsewhere.2 with same | ⟨vacant', -⟩
    · exact Or.inr ⟨vacant, same.trans made⟩
    · rw [made] at vacant'
      cases vacant'

/-- One file, and then others. -/
theorem cons (first : Written before middle [file]) (rest : Written middle after files) :
    Written before after (file :: files) := by
  refine ⟨first.within.trans rest.within, List.forall_mem_cons.2 ⟨holds_first first rest, ?_⟩,
    fun _ => others_both first rest⟩
  intro named member
  obtain ⟨location, front, last, back, shape, found, lastFound, alone, text⟩ :=
    rest.holds named member
  exact ⟨location, file :: front, last, back, by rw [shape, List.cons_append], found, lastFound,
    alone, text⟩

/-- Directories that come afterwards change nothing that was written. -/
theorem grown (written : Written before middle files) (grown : Grown middle after) :
    Written before after files := by
  have same : ∀ {path : PathName} {location : Location}, after.locate path = .ok location →
      (∃ file ∈ files, path = file.path) → middle.locate path = .ok location := by
    rintro path location found ⟨file, member, rfl⟩
    obtain ⟨place, _, _, _, _, there, -⟩ := written.holds file member
    have again := grown.within.locate there
    rw [found] at again
    cases again
    exact there
  refine ⟨written.within.trans grown.within, fun file member => ?_, fun location elsewhere => ?_⟩
  · obtain ⟨location, front, last, back, shape, found, lastFound, alone, text⟩ :=
      written.holds file member
    refine ⟨location, front, last, back, shape, grown.within.locate found,
      grown.within.locate lastFound, fun later listed there => ?_, ?_⟩
    · have among : later ∈ files := by
        rw [shape]
        simp [listed]
      exact alone later listed (same there ⟨later, among, rfl⟩)
    · rw [grown.kept (by rw [text]; rfl), text]
  · have missed : ∀ file ∈ files, middle.locate file.path ≠ .ok location :=
      fun file member found => elsewhere file member (grown.within.locate found)
    rcases written.others location missed with unchanged | ⟨vacant, made⟩
    · rw [← unchanged]
      exact grown.at? location
    · exact Or.inr ⟨vacant, by rw [grown.kept (by rw [made]; rfl), made]⟩

end Written

/-! ## Writing -/

variable {disk after : Disk} {file : Prepared}

/-- The directory that is made for a file. -/
def parentOf (file : Prepared) : Option PathName := file.path.parent?.filter (!·.text.isEmpty)

/-- Writing a file makes its directory first. -/
theorem write_eq (disk : Disk) (file : Prepared) :
    ∃ made, Grown disk made ∧
      ((write disk file = (made, some (.directoryNotMade ((parentOf file).getD ⟨""⟩)))) ∨
        (∀ parent ∈ parentOf file, made.isDirectory parent) ∧
          write disk file = match made.write? file.path file.text with
            | some after => (after, none)
            | none => (made, some (.notWritten file.path))) := by
  unfold write
  rw [← parentOf]
  cases named : parentOf file with
  | none =>
      exact ⟨disk, Grown.refl disk, Or.inr ⟨fun _ same => (by cases same), rfl⟩⟩
  | some parent =>
      refine ⟨(disk.makeDirectories parent).1, Files.Disk.makeDirectories_grown disk parent, ?_⟩
      have full : parent.text.isEmpty = false := by
        simpa using (Option.filter_eq_some_iff.1 named).2
      cases made : (disk.makeDirectories parent).2 with
      | false =>
          refine Or.inl ?_
          simp only [made]
          rfl
      | true =>
          refine Or.inr ⟨fun _ same => ?_, ?_⟩
          · cases same
            exact Files.Disk.isDirectory_makeDirectories full made
          · simp only [made]
            rfl

theorem written_write (written : write disk file = (after, none)) : Written disk after [file] := by
  obtain ⟨made, grown, failed | ⟨-, wrote⟩⟩ := write_eq disk file
  · rw [written] at failed
    cases failed
  · rw [written] at wrote
    split at wrote
    · rename_i there wrote'
      cases wrote
      obtain ⟨within, location, found, changed⟩ := Files.Disk.write?_ok wrote'
      refine ⟨grown.within.trans within, ?_, fun place elsewhere => ?_⟩
      · simp only [List.forall_mem_singleton]
        exact ⟨location, [], file, [], rfl, found, found, by simp, by rw [changed, if_pos rfl]⟩
      · have apart : place ≠ location := by
          rintro rfl
          exact elsewhere file List.mem_cons_self found
        rw [changed, if_neg apart]
        exact grown.at? place
    · cases wrote

/-- A file that is written lies in a directory. -/
theorem isDirectory_parentOf (written : write disk file = (after, none)) :
    ∀ parent ∈ parentOf file, after.isDirectory parent := by
  intro parent named
  obtain ⟨made, -, failed | ⟨there, wrote⟩⟩ := write_eq disk file
  · rw [written] at failed
    cases failed
  · rw [written] at wrote
    split at wrote
    · rename_i wrote'
      cases wrote
      exact (Files.Disk.write?_ok wrote').1.isDirectory (there parent named)
    · cases wrote

/-- A file that is not written leaves no more than directories. -/
theorem grown_of_write {failure : Failure} (failed : write disk file = (after, some failure)) :
    Grown disk after ∧
      (failure = .notWritten file.path ∨ ∃ parent, failure = .directoryNotMade parent) := by
  obtain ⟨made, grown, failed' | ⟨-, wrote⟩⟩ := write_eq disk file
  · rw [failed] at failed'
    cases failed'
    exact ⟨grown, Or.inr ⟨_, rfl⟩⟩
  · rw [failed] at wrote
    split at wrote
    · cases wrote
    · cases wrote
      exact ⟨grown, Or.inl rfl⟩

theorem writeAll_of_written (files : List Prepared) (wrote : write disk file = (after, none)) :
    writeAll disk (file :: files) = writeAll after files := by
  rw [writeAll.eq_def]
  simp only [wrote]

theorem writeAll_of_failed (files : List Prepared) {failure : Failure}
    (wrote : write disk file = (after, some failure)) :
    writeAll disk (file :: files) = (after, some failure) := by
  rw [writeAll.eq_def]
  simp only [wrote]

/-- Files are written one after the other up to the first that cannot be, and nothing else is. -/
theorem writeAll_spec (disk : Disk) (files : List Prepared) :
    ∃ done rest, files = done ++ rest ∧ Written disk (writeAll disk files).1 done ∧
      ((rest = [] ∧ (writeAll disk files).2 = none) ∨
        ∃ file others failure, rest = file :: others ∧ (writeAll disk files).2 = some failure ∧
          (failure = .notWritten file.path ∨ ∃ parent, failure = .directoryNotMade parent)) := by
  induction files generalizing disk with
  | nil => exact ⟨[], [], rfl, Written.nil disk, Or.inl ⟨rfl, rfl⟩⟩
  | cons file files ih =>
      cases wrote : write disk file with
      | mk middle result =>
          cases result with
          | none =>
              rw [writeAll_of_written files wrote]
              obtain ⟨done, rest, rfl, written, ending⟩ := ih middle
              exact ⟨file :: done, rest, rfl, (written_write wrote).cons written, ending⟩
          | some failure =>
              obtain ⟨grown, reason⟩ := grown_of_write wrote
              rw [writeAll_of_failed files wrote]
              exact ⟨[], file :: files, rfl, Written.ofGrown grown,
                Or.inr ⟨file, files, failure, rfl, rfl, reason⟩⟩

/-- When all files are written each lies in a directory. -/
theorem isDirectory_parentOf_writeAll {files : List Prepared} {before : Disk}
    (written : writeAll before files = (after, none)) :
    ∀ file ∈ files, ∀ parent ∈ parentOf file, after.isDirectory parent := by
  induction files generalizing before with
  | nil => simp
  | cons file files ih =>
      cases wrote : write before file with
      | mk middle result =>
          cases result with
          | some failure =>
              rw [writeAll_of_failed files wrote] at written
              cases written
          | none =>
              rw [writeAll_of_written files wrote] at written
              rw [List.forall_mem_cons]
              refine ⟨fun parent named => ?_, ih written⟩
              obtain ⟨done, rest, -, rests, -⟩ := writeAll_spec middle files
              rw [written] at rests
              exact rests.within.isDirectory (isDirectory_parentOf wrote parent named)

end MessageKeys.Job
