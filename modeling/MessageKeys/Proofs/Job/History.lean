import MessageKeys.Proofs.Job.Again
import MessageKeys.Proofs.Job.Findings
import MessageKeys.Proofs.Job.Isolation
/-!
# Proofs.Job.History — translations survive any history of runs

Runs that merge into one output go on from what they read there (`history`). Between two of them the
sources may change in any way, and so may whatever else is on the disk; the output stays as it was left.
One run keeps every key and every wording that it reads (`kept_by_merge`), so by induction on the history
each of them is there after every later run.
-/
namespace MessageKeys
open Files (PathName Disk)

/-- The file that an output is written to in this format. -/
def Format.fileOf (format : Format) (disk : Disk) (output : PathName) : PathName :=
  if disk.isDirectory output then output.join ⟨"strings." ++ format.extension⟩ else output

/-- Reading an output back gives this table. -/
def Format.ReadsBack (format : Format) (disk : Disk) (output : PathName) (table : KeyTable) : Prop :=
  ∃ text, disk.read? (format.fileOf disk output) = some text ∧ format.parse text = .ok table

theorem Format.ReadsBack.unique {format : Format} {disk : Disk} {output : PathName} {one other : KeyTable}
    (reads : format.ReadsBack disk output one) (reads' : format.ReadsBack disk output other) : one = other := by
  obtain ⟨text, read, parsed⟩ := reads
  obtain ⟨text', read', parsed'⟩ := reads'
  cases read.symm.trans read'
  exact Except.ok.inj (parsed.symm.trans parsed')

/-- A later disk has the same at an output: what lies there, and in a directory the file in it. -/
def Format.SameOutput (format : Format) (output : PathName) (before after : Disk) : Prop :=
  after.at? output = before.at? output ∧
    after.at? (output.join ⟨"strings." ++ format.extension⟩) =
      before.at? (output.join ⟨"strings." ++ format.extension⟩)

/-- Settings of a run that merges what it finds into one output and drops nothing. -/
structure Settings.MergeInto (settings : Settings) (format : Format) (output : PathName) : Prop where
  outputs : settings.outputs = [output]
  inFormat : settings.format = format
  plain : format.IsPlain settings.indentation
  replace : settings.replace = false
  clean : settings.clean = false

/-- A disk after any number of merging runs onto an output, between which nothing else touches the
output. -/
inductive History (format : Format) (output : PathName) (first : Disk) : Disk → Prop where
  | start : History format output first first
  | run {last edited next : Disk} {settings : Settings} {summary : Job.Summary}
      (earlier : History format output first last) (same : format.SameOutput output last edited)
      (merges : settings.MergeInto format output)
      (ran : settings.toJob.execute edited = (next, .ok summary)) : History format output first next

namespace Job

variable {format : Format} {output : PathName} {settings : Settings} {disk : Disk}

theorem readsBack_of_same {before after : Disk} (same : format.SameOutput output before after)
    {table : KeyTable} (reads : format.ReadsBack before output table) :
    format.ReadsBack after output table := by
  obtain ⟨text, read, parsed⟩ := reads
  have file : after.at? (format.fileOf after output) = before.at? (format.fileOf before output) := by
    unfold Format.fileOf Disk.isDirectory
    rw [same.1]
    split
    · exact same.2
    · exact same.1
  refine ⟨text, ?_, parsed⟩
  rw [Disk.read?, file]
  exact read

/-- A successful run leaves the table of its output to be read back. -/
theorem readsBack_of_execute {disk next : Disk} {summary : Summary}
    (merges : settings.MergeInto format output)
    (ran : settings.toJob.execute disk = (next, .ok summary)) :
    ∃ extracted existing read,
      (∀ key, extracted.wording key = none) ∧
      settings.toJob.existing disk (format.fileOf disk output) = .ok existing ∧
      format.ReadsBack next output read ∧
      read.toList = format.readBack (finalTable settings.postProcessors extracted existing).toList := by
  obtain ⟨findings, prepared, planned, written⟩ := written_of_execute _ _ ran
  obtain ⟨-, gathered, ready⟩ := (plan_eq_ok_iff _ _).1 planned
  have one : settings.toJob.outputs = [output] := merges.outputs
  have single := mapM_eq_ok_iff.1 ready
  rw [one] at single
  obtain ⟨file, rfl⟩ : ∃ file, prepared = [file] :=
    List.length_eq_one_iff.1 (by simpa using (congrArg List.length single).symm)
  have made : settings.toJob.prepare disk findings.table output = .ok file :=
    (List.cons.inj single).1
  obtain ⟨existing, held, shown, path, -⟩ := (prepare_eq_ok_iff _ _).1 made
  have place : ∀ disk, settings.toJob.outputFile disk output = format.fileOf disk output := by
    intro disk
    rw [← merges.inFormat]
    rfl
  obtain ⟨text, read, shown', parsed, back⟩ := Format.parse_render merges.plain
    (finalTable settings.postProcessors findings.table existing)
  have sameText : text = file.text := by
    rw [← merges.inFormat] at shown'
    exact Except.ok.inj (shown'.symm.trans shown)
  subst sameText
  have wrote : next.read? file.path = some file.text :=
    written.read? List.mem_cons_self fun other among _ => by rw [List.mem_singleton.1 among]
  have stays := outputFile_of_within settings.toJob disk written.within
    (path ▸ isFile_of_read? wrote)
  refine ⟨findings.table, existing, read, wording_findings gathered, place disk ▸ held,
    ⟨file.text, ?_, parsed⟩, back⟩
  rw [← place, stays, ← path, wrote]

/-- What is read of an output is what a merging run goes on from. -/
theorem existing_of_readsBack {disk : Disk} {table : KeyTable}
    (merges : settings.MergeInto format output) (reads : format.ReadsBack disk output table) :
    settings.toJob.existing disk (format.fileOf disk output) = .ok table := by
  obtain ⟨text, read, parsed⟩ := reads
  have merging : settings.toJob.replace = false := merges.replace
  have sameFormat : settings.toJob.format = format := merges.inFormat
  rw [existing, merging, isFile_of_read? read, read, if_neg (by decide), sameFormat]
  simp only [parsed]

/-- One run keeps every key that it reads, and every wording. -/
theorem kept_by_merge {extracted existing read : KeyTable} {text : String}
    (unset : ∀ key, extracted.wording key = none) (clean : settings.clean = false)
    (parsed : format.parse text = .ok existing)
    (back : read.toList =
      format.readBack (finalTable settings.postProcessors extracted existing).toList) :
    (∀ key ∈ existing.keys, key ∈ read.keys) ∧
      ∀ key wording, existing.get? key = some (some wording) → read.get? key = some (some wording) := by
  have stable := Format.readBack_parse parsed
  have keeps : ∀ key ∈ existing.keys, format.keeps key := fun _ => Format.keeps_of_stable stable
  have kept : ∀ key ∈ existing.keys, key ∈ settings.keptKeys extracted existing :=
    fun _ member => settings.mem_keptKeys_of_held member (Or.inl clean)
  have present : ∀ key ∈ existing.keys, key ∈ read.keys := by
    intro key member
    rw [Format.keys_of_readBack back, List.mem_filter]
    exact ⟨(keys_finalTable_perm settings extracted existing).mem_iff.2 (kept key member),
      keeps key member⟩
  refine ⟨present, fun key wording held => ?_⟩
  have member : key ∈ existing.keys := (existing.mem_keys_iff key).2 ⟨_, held⟩
  have before := (existing.wording_eq_some_iff).2 held
  have after : read.wording key = some wording := by
    have same := Format.readBack_wording_of_stable stable key
    rw [before] at same
    rw [Format.wording_of_readBack (List.Perm.of_eq back), if_pos (keeps key member),
      wording_finalTable settings existing unset (kept key member), before, Option.some_or, same]
  rw [read.get?_of_mem (present key member), after]

/-- **Translations survive any history of runs.**  What reads back after a run is still there after every
later run: each key, and each wording as it was. -/
theorem translations_survive {start first last : Disk} {summary : Summary}
    (merges : settings.MergeInto format output)
    (ran : settings.toJob.execute start = (first, .ok summary))
    (history : History format output first last) :
    ∃ before after, format.ReadsBack first output before ∧ format.ReadsBack last output after ∧
      (∀ key ∈ before.keys, key ∈ after.keys) ∧
      ∀ key text, before.get? key = some (some text) → after.get? key = some (some text) := by
  obtain ⟨-, -, before, -, -, reads, -⟩ := readsBack_of_execute merges ran
  induction history with
  | start => exact ⟨before, before, reads, reads, fun _ => id, fun _ _ => id⟩
  | run earlier same merges' ran' ih =>
      obtain ⟨before, middle, first_, reads', keys, wordings⟩ := ih
      have edited := readsBack_of_same same reads'
      obtain ⟨extracted, existing, after, unset, held, readsAfter, back⟩ :=
        readsBack_of_execute merges' ran'
      -- The run went on from what was read before.
      have goesOn : existing = middle :=
        Except.ok.inj (held.symm.trans (existing_of_readsBack merges' edited))
      subst goesOn
      obtain ⟨text, -, parsed⟩ := edited
      obtain ⟨keysKept, wordingsKept⟩ := kept_by_merge unset merges'.clean parsed back
      exact ⟨before, after, first_, readsAfter, fun key member => keysKept key (keys key member),
        fun key text held => wordingsKept key text (wordings key text held)⟩

/-- Settings that merge nothing new into one JSON file. -/
def keeping : Settings where
  inputs := []
  outputs := [⟨"out.json"⟩]
  patterns := []
  format := .json
  indentation := "  "
  replace := false
  sort := true
  clean := false
  keyAsDefaultValue := true
  nullAsDefaultValue := false
  serviceName := none
  methodName := none
  pipeName := none
  markerName := none

/-- A disk with nothing but the file of these settings. -/
def holding (text : String) : Disk := ⟨Files.Tree.empty.put ["out.json"] (.file (.text text)), []⟩

theorem keeping_mergeInto : keeping.MergeInto .json ⟨"out.json"⟩ :=
  ⟨rfl, rfl, Or.inr ⟨rfl, List.all_eq_true.1 rfl⟩, rfl, rfl⟩

theorem read?_holding (text : String) : (holding text).read? ⟨"out.json"⟩ = some text := rfl

section OneFile

variable {job : Job} {next : Disk} {text shown : String} {findings : Findings} {table : KeyTable}

theorem outputFile_of_file (job : Job) (there : disk.at? ⟨"out.json"⟩ = some (.file (.text text))) :
    job.outputFile disk ⟨"out.json"⟩ = ⟨"out.json"⟩ := by
  rw [outputFile, Disk.isDirectory, there]
  rfl

/-- A job that merges into one file writes its text where the file can be read and the table has one. -/
theorem execute_of_one (there : disk.at? ⟨"out.json"⟩ = some (.file (.text text)))
    (placed : disk.write? ⟨"out.json"⟩ shown = some next) (alone : job.outputs = [⟨"out.json"⟩])
    (merging : job.replace = false) (valid : PostProcessor.conflict? job.postProcessors = none)
    (gathered : job.gather disk = .ok findings) (parsed : job.format.parse text = .ok table)
    (rendered : job.format.render job.indentation
      (finalTable job.postProcessors findings.table table) = .ok shown) :
    job.existing disk (job.outputFile disk ⟨"out.json"⟩) = .ok table ∧
      ∃ summary, job.execute disk = (next, .ok summary) := by
  have path := outputFile_of_file job there
  have held : job.existing disk ⟨"out.json"⟩ = .ok table := by
    rw [existing_eq_held, contentAt, there]
    simp only [Job.held, merging, parsed, Bool.false_eq_true, if_false]
  let file : Prepared := ⟨⟨"out.json"⟩, shown, (finalTable job.postProcessors findings.table table).size⟩
  have made : job.prepare disk findings.table ⟨"out.json"⟩ = .ok file :=
    (prepare_eq_ok_iff _ _).2 ⟨table, path.symm ▸ held, rendered, path.symm, rfl⟩
  have planned : job.plan disk = .ok (findings, [file]) := by
    refine (plan_eq_ok_iff _ _).2 ⟨valid, gathered, mapM_eq_ok_iff.2 ?_⟩
    rw [alone]
    exact congrArg (· :: []) made
  have atTop : (PathName.mk "out.json").parent?.filter (!·.text.isEmpty) = none := by decide
  have wrote : write disk file = (next, none) := by
    unfold write
    simp [file, atTop, placed]
  exact ⟨path.symm ▸ held, _, execute_of_writeAll _ _ planned (writeAll_of_written [] wrote)⟩

end OneFile

theorem outputFile_holding (job : Job) (text : String) :
    job.outputFile (holding text) ⟨"out.json"⟩ = ⟨"out.json"⟩ := outputFile_of_file job rfl

/-- What the text of the file is read as is what the output gives back. -/
theorem readsBack_holding {text : String} {table : KeyTable} (parsed : Format.json.parse text = .ok table) :
    Format.json.ReadsBack (holding text) ⟨"out.json"⟩ table := by
  have path : Format.json.fileOf (holding text) ⟨"out.json"⟩ = ⟨"out.json"⟩ :=
    outputFile_holding keeping.toJob text
  exact ⟨text, (congrArg (holding text).read? path).trans (read?_holding text), parsed⟩

theorem execute_holding {job : Job} {text shown : String} {findings : Findings} {table : KeyTable}
    (alone : job.outputs = [⟨"out.json"⟩]) (merging : job.replace = false)
    (valid : PostProcessor.conflict? job.postProcessors = none)
    (gathered : job.gather (holding text) = .ok findings) (parsed : job.format.parse text = .ok table)
    (rendered : job.format.render job.indentation
      (finalTable job.postProcessors findings.table table) = .ok shown) :
    job.existing (holding text) (job.outputFile (holding text) ⟨"out.json"⟩) = .ok table ∧
      ∃ summary, job.execute (holding text) = (holding shown, .ok summary) :=
  execute_of_one rfl rfl alone merging valid gathered parsed rendered

/-- Where the file can be read the run succeeds, and in the file that it leaves every translation can be read
again. -/
theorem keeping_execute {text : String} {table : KeyTable}
    (parsed : Format.json.parse text = .ok table) :
    ∃ shown read summary, Format.json.parse shown = .ok read ∧
      (∀ key wording, table.get? key = some (some wording) → read.get? key = some (some wording)) ∧
      keeping.toJob.execute (holding text) = (holding shown, .ok summary) := by
  obtain ⟨shown, read, rendered, back, entries⟩ := Format.parse_render keeping_mergeInto.plain
    (finalTable keeping.postProcessors ∅ table)
  have gathered : keeping.toJob.gather (holding text) = .ok ⟨[], [], 0⟩ := rfl
  obtain ⟨-, summary, ran⟩ := execute_holding rfl rfl (by decide) gathered parsed rendered
  exact ⟨shown, read, summary, back, (kept_by_merge KeyTable.wording_empty rfl parsed entries).2, ran⟩

/-- A file with a translation of `A`. -/
def oneTranslation : String := "\x7b\n  \"A\": \"x\"\n\x7d\n"

theorem parse_oneTranslation : ∃ table, Format.json.parse oneTranslation = .ok table ∧
    table.toList = [("A", some "x")] := by
  obtain ⟨text, table, shown, parsed, entries⟩ := Format.parse_render keeping_mergeInto.plain
    (KeyTable.ofList [("A", some "x")])
  have same : (KeyTable.ofList [("A", some "x")]).toList = [("A", some "x")] :=
    KeyTable.toList_ofList (by decide)
  have spelled : Format.json.render keeping.indentation (KeyTable.ofList [("A", some "x")]) =
      .ok oneTranslation := by
    rw [Format.render, KeyTable.toFlatJson, same]
    decide
  cases shown.symm.trans spelled
  exact ⟨table, parsed, by rw [entries, same]; rfl⟩

/-- A run on a file with a translation of `A`, and a run that goes on from there: `A` is still translated. -/
theorem translations_survive_twice :
    ∃ start first second summary summary',
      keeping.toJob.execute start = (first, .ok summary) ∧
      keeping.toJob.execute first = (second, .ok summary') ∧
      ∃ before after, Format.json.ReadsBack first ⟨"out.json"⟩ before ∧
        Format.json.ReadsBack second ⟨"out.json"⟩ after ∧ (∀ key ∈ before.keys, key ∈ after.keys) ∧
        before.get? "A" = some (some "x") ∧ after.get? "A" = some (some "x") := by
  obtain ⟨table, parsed, entries⟩ := parse_oneTranslation
  obtain ⟨shown, read, summary, back, kept, ran⟩ := keeping_execute parsed
  obtain ⟨shown', -, summary', -, -, ran'⟩ := keeping_execute back
  obtain ⟨before, after, first, last, keys, wordings⟩ :=
    translations_survive keeping_mergeInto ran (.run .start ⟨rfl, rfl⟩ keeping_mergeInto ran')
  have translated : table.get? "A" = some (some "x") :=
    (table.mem_toList_iff_get? "A" (some "x")).1 (entries ▸ List.mem_singleton_self _)
  have there : before.get? "A" = some (some "x") :=
    first.unique (readsBack_holding back) ▸ kept "A" "x" translated
  exact ⟨holding oneTranslation, holding shown, holding shown', summary, summary', ran, ran', before, after,
    first, last, keys, there, wordings "A" "x" there⟩

end Job
end MessageKeys
