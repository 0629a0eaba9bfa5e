import MessageKeys.Proofs.Format.Indentation
import MessageKeys.Proofs.Job.Regrouping
/-!
# Proofs.Job.Indentation — a job that cannot read what it has written

No check of the settings looks at the indentation, though only a blank one can be read over. A job with
another indentation succeeds the first time and writes a file that it refuses the next time
(`readable_of_execute`), unless there is nothing to indent.
-/
namespace MessageKeys.Job
open Files (PathName Disk)

variable {job : Job} {disk next : Disk}

theorem plan_of_prepare_error {findings : Findings} {failure : Failure}
    (valid : PostProcessor.conflict? job.postProcessors = none)
    (gathered : job.gather disk = .ok findings)
    (failed : job.outputs.mapM (job.prepare disk findings.table) = .error failure) :
    job.plan disk = .error failure := by
  unfold plan
  rw [valid, gathered]
  simp only [bind, Except.bind, failed]

/-- A job that cannot read an output fails before it writes anything. -/
theorem execute_of_existing_error {output : PathName} (listed : output ∈ job.outputs) {failure : Failure}
    (failed : job.existing disk (job.outputFile disk output) = .error failure) :
    ∃ other, job.execute disk = (disk, .error other) := by
  cases planned : job.plan disk with
  | error other => exact ⟨other, execute_of_error _ _ planned⟩
  | ok plan =>
      obtain ⟨-, -, ready⟩ := (plan_eq_ok_iff job disk).1 planned
      obtain ⟨i, at_⟩ := List.getElem?_of_mem listed
      obtain ⟨file, -, made⟩ := getElem?_of_mapM ready at_
      obtain ⟨existing, held, -⟩ := (prepare_eq_ok_iff job disk).1 made
      cases failed.symm.trans held

/-- **A JSON file is to have a blank indentation.**  A merging run leaves at each output the text of a table.
With a blank indentation, or without keys, the next run reads the entries of this table there. With any
other indentation the next run refuses the file and fails, and writes nothing. Only indentations that
begin with a quote are left out, which a reader might take for a name. -/
theorem readable_of_execute {summary : Summary} (flat : job.format = .json)
    (merging : job.replace = false) (unquoted : Json.Unquoted job.indentation)
    (ran : job.execute disk = (next, .ok summary)) {output : PathName} (listed : output ∈ job.outputs) :
    ∃ other ∈ job.outputs, ∃ table text, job.Writes disk other table ∧
      Format.json.render job.indentation table = .ok text ∧
      next.read? (job.outputFile next output) = some text ∧
      ((∀ c ∈ job.indentation.toList, Json.isSpace c) ∨ table.keys = [] →
        ∃ read, job.existing next (job.outputFile next output) = .ok read ∧
          read.toList = table.toList.map fun entry => (entry.1, entry.2.readBack)) ∧
      (¬ ((∀ c ∈ job.indentation.toList, Json.isSpace c) ∨ table.keys = []) →
        job.existing next (job.outputFile next output) =
            .error (.malformedOutput (job.outputFile next output) .notJson) ∧
          ∃ failure, job.execute next = (next, .error failure)) := by
  obtain ⟨stays, other, asked, table, text, writes, rendered, read⟩ :=
    exists_written_of_execute ran listed
  rw [← stays] at read
  rw [flat] at rendered
  have same : text = table.toFlatJson.toPrettyString job.indentation ++ "\n" :=
    (Except.ok.inj rendered).symm
  have held := existing_eq_of_read? merging read
  rw [flat, Format.parse, same] at held
  refine ⟨other, asked, table, text, writes, rendered, read, fun blank => ?_, fun shown => ?_⟩
  · obtain ⟨again, parsed, entries⟩ := table.ofJsonText_of_blank blank
    rw [parsed] at held
    exact ⟨again, held, entries⟩
  · rw [table.ofJsonText_of_shown unquoted shown] at held
    exact ⟨held, execute_of_existing_error listed held⟩

/-! ## An indentation that is no blank -/

/-- Settings that ask for an `x` in front of every line. -/
def lettered : Settings :=
  Settings.resolve { output := ["out.json"], formatIndentation := some "x" } {} ⟨"."⟩

/-- A file with one key that has no translation. -/
def untranslated : String := "\x7b\n\t\"HELLO\": \"\"\n\x7d\n"

/-- The same entry after an `x`. -/
def spoiled : String := "\x7b\nx\"HELLO\": \"\"\n\x7d\n"

theorem unquoted_lettered : Json.Unquoted lettered.toJob.indentation := by
  rw [Json.Unquoted]
  decide

theorem shown_lettered {table : KeyTable} (filled : table.toList = [("HELLO", some "")]) :
    ¬ ((∀ c ∈ lettered.toJob.indentation.toList, Json.isSpace c) ∨ table.keys = []) := by
  rw [KeyTable.keys, filled]
  rintro (blank | empty)
  · cases blank 'x' (List.mem_singleton.2 rfl)
  · cases empty

theorem toList_greeting : (KeyTable.ofList [("HELLO", some "")]).toList = [("HELLO", some "")] :=
  KeyTable.toList_ofList (by decide)

theorem spoiled_of_entries {table : KeyTable} (filled : table.toList = [("HELLO", some "")]) :
    table.toFlatJson.toPrettyString "x" ++ "\n" = spoiled := by
  rw [KeyTable.toFlatJson, filled]
  decide

theorem parse_untranslated :
    ∃ read, Format.json.parse untranslated = .ok read ∧ read.toList = [("HELLO", none)] := by
  have text : (KeyTable.ofList [("HELLO", some "")]).toFlatJson.toPrettyString "\t" ++ "\n" =
      untranslated := by
    rw [KeyTable.toFlatJson, toList_greeting]
    decide
  obtain ⟨read, parsed, same⟩ :=
    (KeyTable.ofList [("HELLO", some "")]).ofJsonText_toFlatJson Json.isSpace_tab
  rw [text] at parsed
  rw [toList_greeting] at same
  exact ⟨read, parsed, same⟩

/-- There is nothing to look through. -/
theorem gather_lettered : ∀ text ∈ [untranslated, spoiled],
    lettered.toJob.gather (holding text) = .ok ⟨[], ["./**/*.html", "./**/*.ts"], 0⟩ := by
  have resolved : ∀ text ∈ [untranslated, spoiled],
      (holding text).resolve lettered.toJob.inputs lettered.toJob.patterns =
        .ok ⟨[], 0, ["./**/*.html", "./**/*.ts"]⟩ := by decide +kernel
  intro text listed
  exact gather_eq_ok_iff.2 ⟨_, resolved text listed, rfl, rfl, rfl⟩

/-- A run with these settings changes the indentation of the file. -/
theorem execute_lettered : ∃ summary table,
    lettered.toJob.execute (holding untranslated) = (holding spoiled, .ok summary) ∧
    lettered.toJob.Writes (holding untranslated) ⟨"out.json"⟩ table ∧
    table.toList = [("HELLO", some "")] := by
  obtain ⟨existing, parsed, entries⟩ := parse_untranslated
  have gathered := gather_lettered untranslated (by simp)
  have keys : existing.keys = ["HELLO"] := congrArg (List.map Prod.fst) entries
  have kept : lettered.keptKeys ∅ existing = ["HELLO"] := by
    rw [Settings.keptKeys, keys]
    rfl
  have wording : existing.wording "HELLO" = none := existing.wording_of_mem (by rw [entries]; simp)
  have final : (finalTable lettered.postProcessors ∅ existing).toList = [("HELLO", some "")] := by
    rw [KeyTable.toList_eq_map_keys, keys_finalTable lettered ∅ existing rfl, kept, List.map_singleton,
      wording_finalTable lettered existing KeyTable.wording_empty (by rw [kept]; simp), wording]
    rfl
  have rendered : lettered.toJob.format.render lettered.toJob.indentation
      (finalTable lettered.toJob.postProcessors ∅ existing) = .ok spoiled :=
    congrArg Except.ok (spoiled_of_entries final)
  obtain ⟨held, summary, ran⟩ := execute_holding rfl rfl rfl gathered parsed rendered
  exact ⟨summary, _, ran, ⟨_, existing, gathered, held, rfl⟩, final⟩

/-- The second run fails on what the first one has left. -/
theorem readable_of_execute_lettered :
    lettered.toJob.format = .json ∧ lettered.toJob.replace = false ∧
    Json.Unquoted lettered.toJob.indentation ∧ ⟨"out.json"⟩ ∈ lettered.toJob.outputs ∧
    ∃ next summary, lettered.toJob.execute (holding untranslated) = (next, .ok summary) ∧
      ∃ failure, lettered.toJob.execute next = (next, .error failure) := by
  obtain ⟨summary, table, ran, writes, entries⟩ := execute_lettered
  have listed : ⟨"out.json"⟩ ∈ lettered.toJob.outputs := List.mem_singleton.2 rfl
  obtain ⟨other, asked, written, text, writes', -, -, -, refused⟩ :=
    readable_of_execute rfl rfl unquoted_lettered ran listed
  cases List.mem_singleton.1 asked
  cases writes.unique writes'
  exact ⟨rfl, rfl, unquoted_lettered, listed, _, summary, ran, (refused (shown_lettered entries)).2⟩

/-- **Nothing keeps a run from writing what the next one refuses.**  The settings are accepted, the run
succeeds, and the same settings fail on the file that it has written. -/
theorem refuses_own_output :
    lettered.fault? (holding untranslated) = none ∧ lettered.format = .json ∧ lettered.replace = false ∧
    (∃ summary, lettered.toJob.execute (holding untranslated) = (holding spoiled, .ok summary)) ∧
    lettered.toJob.execute (holding spoiled) =
      (holding spoiled, .error (.malformedOutput ⟨"out.json"⟩ .notJson)) := by
  obtain ⟨summary, -, ran, -⟩ := execute_lettered
  have parsed : Format.json.parse spoiled = .error .notJson := by
    rw [← spoiled_of_entries toList_greeting]
    exact KeyTable.ofJsonText_of_shown _ unquoted_lettered (shown_lettered toList_greeting)
  have held : lettered.toJob.existing (holding spoiled) ⟨"out.json"⟩ =
      .error (.malformedOutput ⟨"out.json"⟩ .notJson) := by
    exact (existing_eq_of_read? rfl (read?_holding spoiled)).trans (congrArg _ parsed)
  have valid : PostProcessor.conflict? lettered.toJob.postProcessors = none := rfl
  have refused : lettered.toJob.prepare (holding spoiled) ∅ ⟨"out.json"⟩ =
      .error (.malformedOutput ⟨"out.json"⟩ .notJson) := by
    simp only [prepare, outputFile_holding, held]
    rfl
  have ready : lettered.toJob.outputs.mapM (lettered.toJob.prepare (holding spoiled) ∅) =
      .error (.malformedOutput ⟨"out.json"⟩ .notJson) :=
    mapM_eq_error_iff.2 ⟨[], _, [], rfl, by simp, refused⟩
  refine ⟨by decide +kernel, rfl, rfl, ⟨summary, ran⟩, execute_of_error _ _ ?_⟩
  exact plan_of_prepare_error valid (gather_lettered spoiled (by simp)) ready

end MessageKeys.Job
