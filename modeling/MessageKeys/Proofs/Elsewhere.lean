import MessageKeys.Proofs.Discovery
import MessageKeys.Proofs.Job.Output
import MessageKeys.Proofs.Job.Written
/-!
# Proofs.Elsewhere — runs in other working directories

A job whose inputs and outputs are absolute reads and writes the same wherever it is carried out
(`execute_seenFrom`). So a run that gets its inputs and outputs from a configuration does the same in every
directory where this configuration is found (`run_elsewhere`).
-/
namespace MessageKeys
open Files (PathName Disk Location Tree isPlainName)

namespace Job

variable {job : Job} {disk : Disk} {current : Location}

/-! ## Reading -/

theorem extractFile_seenFrom {path : PathName} (absolute : path.isAbsolute) :
    job.extractFile (disk.seenFrom current) path = job.extractFile disk path := by
  rw [extractFile, extractFile, Disk.read?_seenFrom absolute]

theorem gather_seenFrom (inputs : ∀ path ∈ job.inputs, path.isAbsolute) :
    job.gather (disk.seenFrom current) = job.gather disk := by
  rw [gather, gather, Files.resolve_seenFrom inputs]
  cases found : disk.resolve job.inputs job.patterns with
  | error invalid => rfl
  | ok resolution =>
      simp only
      rw [mapM_congr fun path member => by
        rw [extractFile_seenFrom (Files.isAbsolute_of_resolve inputs found path member)]]

theorem standing_seenFrom {output : PathName} (absolute : output.isAbsolute) :
    job.standing (disk.seenFrom current) output = job.standing disk output := by
  have inside : (job.inDirectory output).isAbsolute :=
    PathName.isAbsolute_join_of_isAbsolute absolute _
  rw [standing, standing, Disk.at?_seenFrom absolute, Disk.at?_seenFrom inside]

theorem prepare_seenFrom {output : PathName} (absolute : output.isAbsolute) (extracted : KeyTable) :
    job.prepare (disk.seenFrom current) extracted output = job.prepare disk extracted output := by
  rw [prepare_eq_renew, prepare_eq_renew, standing_seenFrom absolute]

theorem plan_seenFrom (inputs : ∀ path ∈ job.inputs, path.isAbsolute)
    (outputs : ∀ path ∈ job.outputs, path.isAbsolute) :
    job.plan (disk.seenFrom current) = job.plan disk := by
  have ready : ∀ extracted, job.outputs.mapM (job.prepare (disk.seenFrom current) extracted) =
      job.outputs.mapM (job.prepare disk extracted) := fun extracted =>
    mapM_congr fun output listed => prepare_seenFrom (outputs output listed) extracted
  rw [plan, plan, gather_seenFrom inputs]
  simp only [ready]

/-- What is ready to be written has an absolute path. -/
theorem isAbsolute_of_plan (outputs : ∀ path ∈ job.outputs, path.isAbsolute) {findings : Findings}
    {prepared : List Prepared} (planned : job.plan disk = .ok (findings, prepared)) :
    ∀ file ∈ prepared, file.path.isAbsolute := by
  intro file member
  obtain ⟨-, -, ready⟩ := (plan_eq_ok_iff job disk).1 planned
  obtain ⟨output, listed, made⟩ := exists_of_mem_mapM ready member
  obtain ⟨-, -, -, path, -⟩ := (prepare_eq_ok_iff job disk).1 made
  rw [path, outputFile]
  split
  · exact PathName.isAbsolute_join_of_isAbsolute (outputs output listed) _
  · exact outputs output listed

/-! ## Writing -/

theorem write_seenFrom {file : Prepared} (absolute : file.path.isAbsolute) :
    write (disk.seenFrom current) file =
      ((write disk file).1.seenFrom current, (write disk file).2) := by
  have written : ∀ disk : Disk, (disk.seenFrom current).write? file.path file.text =
      (disk.write? file.path file.text).map (·.seenFrom current) := fun _ =>
    Disk.write?_seenFrom absolute file.text
  unfold write
  cases parent : file.path.parent?.filter (!·.text.isEmpty) with
  | none =>
      simp only [written]
      cases disk.write? file.path file.text <;> rfl
  | some above =>
      have higher : above ∈ file.path.parents :=
        List.mem_of_mem_head? (Option.eq_some_of_filter_eq_some parent)
      simp only [Disk.makeDirectories_seenFrom (PathName.isAbsolute_of_mem_parents absolute higher), written]
      rcases disk.makeDirectories above with ⟨made, _ | _⟩
      · rfl
      · cases made.write? file.path file.text <;> rfl

theorem writeAll_seenFrom {prepared : List Prepared} (absolute : ∀ file ∈ prepared, file.path.isAbsolute) :
    writeAll (disk.seenFrom current) prepared =
      ((writeAll disk prepared).1.seenFrom current, (writeAll disk prepared).2) := by
  induction prepared generalizing disk with
  | nil => rfl
  | cons file files ih =>
      obtain ⟨own, others⟩ := List.forall_mem_cons.1 absolute
      cases wrote : write disk file with
      | mk after result =>
          have wrote' : write (disk.seenFrom current) file = (after.seenFrom current, result) := by
            rw [write_seenFrom own, wrote]
          cases result with
          | none => rw [writeAll_of_written files wrote, writeAll_of_written files wrote', ih others]
          | some failure =>
              rw [writeAll_of_failed files wrote, writeAll_of_failed files wrote']

/-- A job on absolute paths does the same. -/
theorem execute_seenFrom (inputs : ∀ path ∈ job.inputs, path.isAbsolute)
    (outputs : ∀ path ∈ job.outputs, path.isAbsolute) :
    job.execute (disk.seenFrom current) =
      ((job.execute disk).1.seenFrom current, (job.execute disk).2) := by
  rw [execute, execute, plan_seenFrom inputs outputs]
  cases planned : job.plan disk with
  | error failure => rfl
  | ok plan =>
      obtain ⟨findings, prepared⟩ := plan
      simp only [writeAll_seenFrom (isAbsolute_of_plan outputs planned)]
      rcases writeAll disk prepared with ⟨after, _ | failure⟩ <;> rfl

end Job
/-! ## Runs -/

section Runs

variable {settings : Settings} {disk : Disk} {current : Location}

theorem findSome?_inputFault {paths : List PathName} (absolute : ∀ path ∈ paths, path.isAbsolute) :
    paths.findSome? (Settings.inputFault? (disk.seenFrom current)) =
      paths.findSome? (Settings.inputFault? disk) := by
  induction paths with
  | nil => rfl
  | cons path paths ih =>
      obtain ⟨own, others⟩ := List.forall_mem_cons.1 absolute
      rw [List.findSome?_cons, List.findSome?_cons, ih others, Settings.inputFault?, Settings.inputFault?,
        Disk.exists?_seenFrom own, Disk.isDirectory_seenFrom own]

theorem fault?_seenFrom (inputs : ∀ path ∈ settings.inputs, path.isAbsolute) :
    settings.fault? (disk.seenFrom current) = settings.fault? disk := by
  rw [Settings.fault?, Settings.fault?, findSome?_inputFault inputs]

/-- Settings with absolute paths do the same. -/
theorem Settings.execute_seenFrom (inputs : ∀ path ∈ settings.inputs, path.isAbsolute)
    (outputs : ∀ path ∈ settings.outputs, path.isAbsolute) :
    settings.execute (disk.seenFrom current) =
      ((settings.execute disk).1.seenFrom current, (settings.execute disk).2) := by
  rw [Settings.execute, Settings.execute, fault?_seenFrom inputs]
  cases settings.fault? disk with
  | some fault => rfl
  | none =>
      have same : settings.toJob.execute (disk.seenFrom current) =
          ((settings.toJob.execute disk).1.seenFrom current, (settings.toJob.execute disk).2) :=
        Job.execute_seenFrom inputs outputs
      simp only [same]

end Runs

/-- A run with a configuration carries out the settings that come of it, and notes nothing more. -/
theorem run_of_loadConfig {disk : Disk} {config : Config} {path : PathName} {arguments : Arguments}
    (loaded : loadConfig disk disk.currentPath = .ok (config, some path)) :
    run arguments disk =
      match (Settings.ofLoaded arguments disk.currentPath (config, some path)).execute disk with
      | (disk, .error failure) => ⟨disk, "", "", some failure⟩
      | (disk, .ok summary) =>
        ⟨disk, Report.text summary arguments.verbose, "" ++ Report.warnings summary, none⟩ := by
  unfold run
  simp only [loaded]
  generalize (Settings.ofLoaded arguments disk.currentPath (config, some path)).execute disk = ran
  rcases ran with ⟨after, failure | summary⟩ <;> simp

/-- What a run leaves behind, seen from another working directory. -/
def Outcome.seenFrom (outcome : Outcome) (current : Location) : Outcome :=
  { outcome with disk := outcome.disk.seenFrom current }

/-- **Runs do not depend on where they start.**  Where the same valid configuration is found, one that says
where to look, and the command line says neither that nor where to write, a run tells the same, fails alike,
and leaves the same tree behind. -/
theorem run_elsewhere {tree : Tree} {first second : Location} (plain : ∀ name ∈ first, isPlainName name)
    {config : Config} {path : PathName}
    (loaded : loadConfig ⟨tree, first⟩ (.ofLocation first) = .ok (config, some path))
    (found : (Disk.mk tree second).findConfig (.ofLocation second) = some path)
    (inputs : config.input ≠ []) {arguments : Arguments} (noInput : arguments.input = [])
    (noOutput : arguments.output = []) :
    run arguments ⟨tree, second⟩ = (run arguments ⟨tree, first⟩).seenFrom second := by
  obtain ⟨settings, same, inputs', outputs'⟩ := exists_settings_of_loadConfig plain loaded arguments
  have moved : Disk.mk tree second = (Disk.mk tree first).seenFrom second := rfl
  rw [run_of_loadConfig (loadConfig_elsewhere plain loaded found), run_of_loadConfig loaded, same, same,
    moved, Settings.execute_seenFrom (inputs' noInput inputs) (outputs' noOutput)]
  generalize settings.execute ⟨tree, first⟩ = ran
  rcases ran with ⟨after, failure | summary⟩ <;> rfl

end MessageKeys
