import MessageKeys.Job
import MessageKeys.Proofs.Files.Tree
import MessageKeys.Proofs.Results
/-!
# Proofs.Job.Output — what an output is made of

The text of an output is made of what was found, of the options of the job and of what lay there before
(`Standing`), and of nothing else: `renew` does not look at a disk, nor at the other outputs, and
preparing an output on a disk is `renew` of what stands there (`prepare_eq_renew`). So a plan is known
when the findings and the standing of each output are (`plan_eq_ok_iff`).
-/
namespace MessageKeys.Job
open Files (PathName Disk)

/-- What lies where an output is. -/
inductive Standing where
  | absent
  | file (content : Files.Content)
  /-- A directory, and what lies in it under the name of the output file. -/
  | directory (inside : Option Files.Entry)
deriving DecidableEq, Repr

/-- What the output file holds. -/
def Standing.content? : Standing → Option Files.Content
  | .file content | .directory (some (.file content)) => some content
  | _ => none

variable (job : Job) (disk : Disk)

/-- The output file in a directory. -/
def inDirectory (output : PathName) : PathName := output.join ⟨"strings." ++ job.format.extension⟩

/-- What lies where an output is on a disk. -/
def standing (output : PathName) : Standing :=
  match disk.at? output with
  | none => .absent
  | some (.file content) => .file content
  | some .directory => .directory (disk.at? (job.inDirectory output))

/-- What is merged into an output whose file holds this. -/
def held (path : PathName) : Option Files.Content → Except Failure KeyTable
  | none => .ok ∅
  | some content =>
    if job.replace then .ok ∅
    else
      match content with
      | .bytes _ => .error (.unreadableOutput path)
      | .text text =>
        match job.format.parse text with
        | .ok table => .ok table
        | .error fault => .error (.malformedOutput path fault)

/-- The output file by what lies where the output is. -/
def fileBy (output : PathName) : Standing → PathName
  | .directory _ => job.inDirectory output
  | .absent | .file _ => output

/-- An output made ready from what lies there. -/
def renew (extracted : KeyTable) (output : PathName) (standing : Standing) :
    Except Failure Prepared := do
  let path := job.fileBy output standing
  let table := finalTable job.postProcessors extracted (← job.held path standing.content?)
  match job.format.render job.indentation table with
  | .ok text => return ⟨path, text, table.size⟩
  | .error conflict => .error (.unwritableTable path conflict)

theorem outputFile_eq (output : PathName) :
    job.outputFile disk output = job.fileBy output (job.standing disk output) := by
  rw [outputFile, Disk.isDirectory, standing]
  cases disk.at? output with
  | none => rfl
  | some entry => cases entry <;> rfl

/-- An output is written to the same file as long as that is one. -/
theorem outputFile_of_within {next : Disk} {output : PathName} (within : Disk.Within disk next)
    (file : next.isFile (job.outputFile disk output)) :
    job.outputFile next output = job.outputFile disk output := by
  by_cases directory : disk.isDirectory output = true
  · rw [outputFile, outputFile, if_pos directory, if_pos (within.isDirectory directory)]
  · rw [outputFile, if_neg directory] at file
    have still : ¬ next.isDirectory output = true := by
      intro there
      rw [Disk.isFile, eq_of_beq there] at file
      cases file
    rw [outputFile, outputFile, if_neg directory, if_neg still]

/-- What a file holds. -/
def contentAt (disk : Disk) (path : PathName) : Option Files.Content :=
  match disk.at? path with
  | some (.file content) => some content
  | _ => none

/-- What an output file holds, wherever it lies. -/
theorem existing_eq_held (path : PathName) :
    job.existing disk path = job.held path (contentAt disk path) := by
  unfold existing held Disk.isFile Disk.read? contentAt
  cases job.replace <;> rcases disk.at? path with _ | _ | _ | _ <;> rfl

/-- The path is only named where reading fails. -/
theorem held_unique {first second : PathName} {content : Option Files.Content} {a b : KeyTable}
    (one : job.held first content = .ok a) (other : job.held second content = .ok b) : a = b := by
  rcases content with _ | content
  · cases one
    cases other
    rfl
  · simp only [held] at one other
    by_cases replaced : job.replace = true
    · rw [if_pos replaced] at one other
      cases one
      cases other
      rfl
    · rw [if_neg replaced] at one other
      cases content with
      | bytes bytes => cases one
      | text text =>
          simp only at one other
          cases read : job.format.parse text with
          | error fault =>
              rw [read] at one
              cases one
          | ok table =>
              rw [read] at one other
              cases one
              cases other
              rfl

theorem content?_standing (output : PathName) :
    (job.standing disk output).content? = contentAt disk (job.outputFile disk output) := by
  rw [outputFile_eq, standing]
  rcases found : disk.at? output with _ | entry
  · simp only [fileBy, contentAt, found, Standing.content?]
  · cases entry with
    | file content => simp only [fileBy, contentAt, found, Standing.content?]
    | directory =>
        simp only [fileBy, contentAt]
        rcases disk.at? (job.inDirectory output) with _ | _ | _ <;> rfl

/-- An output is made ready from what lies there, and from nothing else on the disk. -/
theorem prepare_eq_renew (extracted : KeyTable) (output : PathName) :
    job.prepare disk extracted output = job.renew extracted output (job.standing disk output) := by
  have known := job.existing_eq_held disk (job.outputFile disk output)
  rw [← content?_standing] at known
  simp only [prepare, renew]
  exact known ▸ outputFile_eq job disk output ▸ rfl

/-! ## Plans -/

/-- A plan is made of the findings and of every output as it stands. -/
theorem plan_eq_ok_iff {findings : Findings} {prepared : List Prepared} :
    job.plan disk = .ok (findings, prepared) ↔
      PostProcessor.conflict? job.postProcessors = none ∧ job.gather disk = .ok findings ∧
        job.outputs.mapM (job.prepare disk findings.table) = .ok prepared := by
  unfold plan
  cases PostProcessor.conflict? job.postProcessors with
  | some conflict => simp
  | none =>
      cases gathered : job.gather disk with
      | error failure => simp [bind, Except.bind]
      | ok found =>
          cases ready : job.outputs.mapM (job.prepare disk found.table) with
          | error failure =>
              simp only [bind, Except.bind, ready, true_and, Except.ok.injEq, reduceCtorEq, false_iff,
                not_and]
              rintro rfl
              simp [ready]
          | ok files =>
              simp only [bind, Except.bind, ready, pure, Except.pure, Except.ok.injEq,
                Prod.mk.injEq, true_and]
              constructor
              · rintro ⟨rfl, rfl⟩
                exact ⟨rfl, ready⟩
              · rintro ⟨rfl, same⟩
                rw [ready] at same
                exact ⟨rfl, Except.ok.inj same⟩

/-- An output is ready when its table is known and has a text. -/
theorem prepare_eq_ok_iff {extracted : KeyTable} {output : PathName} {file : Prepared} :
    job.prepare disk extracted output = .ok file ↔
      ∃ table, job.existing disk (job.outputFile disk output) = .ok table ∧
        job.format.render job.indentation (finalTable job.postProcessors extracted table) =
          .ok file.text ∧
        file.path = job.outputFile disk output ∧
        file.keys = (finalTable job.postProcessors extracted table).size := by
  simp only [prepare]
  cases job.existing disk (job.outputFile disk output) with
  | error failure => simp [bind, Except.bind]
  | ok table =>
      simp only [bind, Except.bind, Except.ok.injEq, exists_eq_left']
      cases job.format.render job.indentation (finalTable job.postProcessors extracted table) with
      | error conflict => simp
      | ok text =>
          obtain ⟨path, text', keys⟩ := file
          simp only [pure, Except.pure, Except.ok.injEq, Prepared.mk.injEq]
          exact ⟨fun ⟨a, b, c⟩ => ⟨b, a.symm, c.symm⟩, fun ⟨b, a, c⟩ => ⟨a.symm, b, c.symm⟩⟩

/-- Outputs that held the same before get the same text. -/
theorem text_of_prepare {extracted : KeyTable} {first second : PathName} {a b : Prepared}
    (one : job.prepare disk extracted first = .ok a)
    (other : job.prepare disk extracted second = .ok b)
    (same : disk.at? a.path = disk.at? b.path) : a.text = b.text := by
  obtain ⟨table, held, shown, path, -⟩ := (prepare_eq_ok_iff job disk).1 one
  obtain ⟨table', held', shown', path', -⟩ := (prepare_eq_ok_iff job disk).1 other
  rw [← path, existing_eq_held, contentAt, same] at held
  rw [← path', existing_eq_held, contentAt] at held'
  rw [held_unique job held held', shown'] at shown
  exact (Except.ok.inj shown).symm

end MessageKeys.Job
