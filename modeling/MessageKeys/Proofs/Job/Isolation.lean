import MessageKeys.Proofs.Job.Output
import MessageKeys.Proofs.Job.Written
/-!
# Proofs.Job.Isolation — outputs do not influence each other

A run plans before it writes. What goes wrong while it plans leaves the disk as it is, and the plan has
one file for each output, made of what lay there before. Writing goes through the plan in order, so a
run that fails then has written the files before the one that could not be written.
-/
namespace MessageKeys.Job
open Files (PathName Disk Tree)

/-- The failure is one of making a directory or of writing a file. -/
def Failure.isOfWriting : Failure → Bool
  | .directoryNotMade _ | .notWritten _ => true
  | _ => false

variable (job : Job) (disk : Disk)

theorem execute_of_error {failure : Failure} (failed : job.plan disk = .error failure) :
    job.execute disk = (disk, .error failure) := by
  rw [execute, failed]

theorem execute_of_writeAll {findings : Findings} {prepared : List Prepared} {after : Disk}
    (planned : job.plan disk = .ok (findings, prepared))
    (wrote : writeAll disk prepared = (after, none)) :
    job.execute disk = (after, .ok (summarize findings prepared)) := by
  rw [execute, planned]
  simp only [wrote]

theorem execute_of_writeAll_failed {findings : Findings} {prepared : List Prepared} {after : Disk}
    {failure : Failure} (planned : job.plan disk = .ok (findings, prepared))
    (wrote : writeAll disk prepared = (after, some failure)) :
    job.execute disk = (after, .error failure) := by
  rw [execute, planned]
  simp only [wrote]

/-- A run with a plan writes it as far as it can. -/
theorem execute_of_plan {findings : Findings} {prepared : List Prepared}
    (planned : job.plan disk = .ok (findings, prepared)) :
    ∃ done rest, prepared = done ++ rest ∧ Written disk (job.execute disk).1 done ∧
      ((rest = [] ∧ (job.execute disk).2 = .ok (summarize findings prepared)) ∨
        ∃ file others failure, rest = file :: others ∧ (job.execute disk).2 = .error failure ∧
          (failure = .notWritten file.path ∨ ∃ parent, failure = .directoryNotMade parent)) := by
  obtain ⟨done, rest, shape, written, ending⟩ := writeAll_spec disk prepared
  cases all : writeAll disk prepared with
  | mk after result =>
      rw [all] at written ending
      rcases ending with ⟨empty, whole⟩ | ⟨file, others, failure, tail, failed, reason⟩
      · cases whole
        rw [execute_of_writeAll job disk planned all]
        exact ⟨done, rest, shape, written, Or.inl ⟨empty, rfl⟩⟩
      · cases failed
        rw [execute_of_writeAll_failed job disk planned all]
        exact ⟨done, rest, shape, written, Or.inr ⟨file, others, failure, tail, rfl, reason⟩⟩

/-- A run that succeeds has written all of its plan. -/
theorem written_of_execute {next : Disk} {summary : Summary}
    (ran : job.execute disk = (next, .ok summary)) :
    ∃ findings prepared, job.plan disk = .ok (findings, prepared) ∧ Written disk next prepared := by
  cases planned : job.plan disk with
  | error failure =>
      rw [execute_of_error job disk planned] at ran
      cases ran
  | ok plan =>
      obtain ⟨findings, prepared⟩ := plan
      obtain ⟨done, rest, shape, written, ending⟩ := execute_of_plan job disk planned
      rw [ran] at written ending
      rcases ending with ⟨rfl, -⟩ | ⟨_, _, _, -, failed, -⟩
      · rw [List.append_nil] at shape
        subst shape
        exact ⟨findings, prepared, rfl, written⟩
      · cases failed

theorem writeAll_of_execute {findings : Findings} {prepared : List Prepared} {next : Disk}
    {summary : Summary} (planned : job.plan disk = .ok (findings, prepared))
    (ran : job.execute disk = (next, .ok summary)) : writeAll disk prepared = (next, none) := by
  rw [execute, planned] at ran
  cases all : writeAll disk prepared with
  | mk after result =>
      simp only [all] at ran
      cases result with
      | none =>
          cases ran
          rfl
      | some failure => cases ran

theorem Written.read? {before after : Disk} {files : List Prepared} {file : Prepared}
    (written : Written before after files) (member : file ∈ files)
    (alone : ∀ other ∈ files, after.locate other.path = after.locate file.path →
      other.text = file.text) : after.read? file.path = some file.text := by
  obtain ⟨location, front, last, back, shape, found, lastFound, -, text⟩ := written.holds file member
  have same : last.text = file.text := by
    refine alone last ?_ (lastFound.trans found.symm)
    rw [shape]
    simp
  rw [Disk.read?, Disk.at?_of_locate found, text]
  exact congrArg some same

theorem isFile_of_read? {disk : Disk} {path : PathName} {text : String}
    (read : disk.read? path = some text) : disk.isFile path := by
  unfold Disk.read? at read
  unfold Disk.isFile
  split at read
  · rename_i found
    rw [found]
  · cases read

/-- **Failed runs write nothing, and outputs do not influence each other.**  A run that does not fail in
writing leaves the disk as it was. If all outputs have a text, each text is made of the findings, of the
options and of what stood at its own output; it is the same among any other outputs. Then the outputs are
written in order, all of them or those before the first that cannot be written: each path reads as the
last text that was written to where it leads, and nothing else changes but that directories come. Paths
that lead to one file held the same before, unless one of them led nowhere, and so get the same text. -/
theorem execute_isolated :
    (∀ after failure, job.execute disk = (after, .error failure) → failure.isOfWriting = false →
      after = disk) ∧
    (∀ findings prepared, job.plan disk = .ok (findings, prepared) →
      job.outputs.map (fun output => job.renew findings.table output (job.standing disk output)) =
        prepared.map .ok ∧
      (∀ first ∈ prepared, ∀ second ∈ prepared, disk.at? first.path = disk.at? second.path →
        first.text = second.text) ∧
      (∀ others findings' prepared', Job.plan { job with outputs := others } disk =
          .ok (findings', prepared') → findings' = findings ∧ ∀ (i j : Nat) output,
          job.outputs[i]? = some output → others[j]? = some output → prepared'[j]? = prepared[i]?) ∧
      ∃ done rest, prepared = done ++ rest ∧ Written disk (job.execute disk).1 done ∧
        (∀ file ∈ done, (∀ other ∈ done, (job.execute disk).1.locate other.path =
            (job.execute disk).1.locate file.path → other.text = file.text) →
          (job.execute disk).1.read? file.path = some file.text) ∧
        ((rest = [] ∧ (job.execute disk).2 = .ok (summarize findings prepared)) ∨
          ∃ file others failure, rest = file :: others ∧ (job.execute disk).2 = .error failure ∧
            (failure = .notWritten file.path ∨ ∃ parent, failure = .directoryNotMade parent))) := by
  refine ⟨fun after failure failed reading => ?_, fun findings prepared planned => ?_⟩
  · cases planned : job.plan disk with
    | error earlier =>
        rw [execute_of_error job disk planned] at failed
        cases failed
        rfl
    | ok plan =>
        obtain ⟨findings, prepared⟩ := plan
        obtain ⟨_, _, -, -, ⟨-, whole⟩ | ⟨_, _, _, -, ended, reason⟩⟩ :=
          execute_of_plan job disk planned
        · rw [failed] at whole
          cases whole
        · rw [failed] at ended
          cases ended
          rcases reason with rfl | ⟨parent, rfl⟩ <;> cases reading
  · obtain ⟨-, gathered, ready⟩ := (plan_eq_ok_iff job disk).1 planned
    obtain ⟨done, rest, shape, written, ending⟩ := execute_of_plan job disk planned
    refine ⟨?_, ?_, fun others findings' prepared' planned' => ?_, done, rest, shape, written,
      fun file member alone => written.read? member alone, ending⟩
    · rw [← mapM_eq_ok_iff.1 ready]
      exact List.map_congr_left fun output _ => (prepare_eq_renew job disk _ output).symm
    · intro first one second other same
      obtain ⟨output, -, made⟩ := exists_of_mem_mapM ready one
      obtain ⟨output', -, made'⟩ := exists_of_mem_mapM ready other
      exact text_of_prepare job disk made made' same
    · obtain ⟨-, gathered', ready'⟩ := (plan_eq_ok_iff _ disk).1 planned'
      -- Looking for keys does not depend on the outputs, so both plans have found the same.
      have same : findings' = findings := Except.ok.inj (gathered'.symm.trans gathered)
      refine ⟨same, fun i j output here there => ?_⟩
      subst same
      obtain ⟨file, at_, made⟩ := getElem?_of_mapM ready here
      obtain ⟨file', at', made'⟩ := getElem?_of_mapM ready' there
      have sameFile : file' = file := Except.ok.inj (made'.symm.trans made)
      rw [at_, at', sameFile]

/-- A job without sources that has two outputs, the second one inside the first. -/
def nested : Job where
  inputs := []
  outputs := [⟨"a.json"⟩, ⟨"a.json/b.json"⟩]
  patterns := []
  replace := false
  strategies := []
  postProcessors := []
  format := .json
  indentation := ""

/-- An output of the job without keys. -/
def emptyObject (path : String) : Prepared := ⟨⟨path⟩, "\x7b\x7d\n", 0⟩

/-- The second output has no directory to lie in once the first one is written; its text is the same if
it comes first. -/
theorem execute_isolated_nested :
    nested.plan ⟨Tree.empty, []⟩ =
      .ok (⟨[], [], 0⟩, [emptyObject "a.json", emptyObject "a.json/b.json"]) ∧
    (nested.execute ⟨Tree.empty, []⟩).2.toOption = none ∧
    ∀ (i j : Nat) output, nested.outputs[i]? = some output →
      nested.outputs.reverse[j]? = some output →
      [emptyObject "a.json/b.json", emptyObject "a.json"][j]? =
        [emptyObject "a.json", emptyObject "a.json/b.json"][i]? := by
  have planned : nested.plan ⟨Tree.empty, []⟩ =
      .ok (⟨[], [], 0⟩, [emptyObject "a.json", emptyObject "a.json/b.json"]) := rfl
  have reversed : Job.plan { nested with outputs := nested.outputs.reverse } ⟨Tree.empty, []⟩ =
      .ok (⟨[], [], 0⟩, [emptyObject "a.json/b.json", emptyObject "a.json"]) := rfl
  obtain ⟨-, plans⟩ := execute_isolated nested ⟨Tree.empty, []⟩
  obtain ⟨-, -, isolated, -⟩ := plans _ _ planned
  exact ⟨planned, rfl, (isolated _ _ _ reversed).2⟩

end MessageKeys.Job
