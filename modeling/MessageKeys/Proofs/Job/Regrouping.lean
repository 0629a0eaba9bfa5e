import MessageKeys.Proofs.Format.Regrouping
import MessageKeys.Proofs.Job.Idempotence
import MessageKeys.Proofs.Job.Processors
/-!
# Proofs.Job.Regrouping — nested objects that are written again

Nested objects are read with the keys of each group together, so the second run merges into a table that is
ordered in another way than the one that was written. It does not show in the file: whatever is found comes
first in both runs, and what else was read comes up below every path as it did
(`eraseDups_keys_finalTable_again`), so the same object is made of it.
-/
namespace MessageKeys.Job
open Files (PathName Disk Level)
open Json (firstNames underPath nextName?)

/-- Names that are taken from the keys come up in the order in which they did, if they do so in what was
read. -/
theorem eraseDups_keys_finalTable_again {format : Format} {settings : Settings}
    {extracted existing read : KeyTable} (name : String → Option String)
    (stable : format.readBack existing.toList = existing.toList)
    (back : read.toList.Perm
      (format.readBack (finalTable settings.postProcessors extracted existing).toList))
    (same : (read.keys.filterMap name).eraseDups =
      ((finalTable settings.postProcessors extracted existing).keys.filterMap name).eraseDups) :
    ((finalTable settings.postProcessors extracted read).keys.filterMap name).eraseDups =
      ((finalTable settings.postProcessors extracted existing).keys.filterMap name).eraseDups := by
  cases sorted : settings.sort with
  | true => rw [keys_finalTable_again_of_sort stable back sorted]
  | false =>
      rw [keys_finalTable settings extracted existing sorted] at same ⊢
      rw [keys_finalTable settings extracted read sorted]
      cases clean : settings.clean with
      | true => rw [settings.keptKeys_of_clean clean, settings.keptKeys_of_clean clean]
      | false =>
          rw [settings.keptKeys_of_unclean clean] at same ⊢
          rw [settings.keptKeys_of_unclean clean]
          exact Occurrences.eraseDups_filterMap_append name same

/-! ## The same object -/

theorem firstNames_pathEntries (path : List String) (table : KeyTable) :
    firstNames (underPath path (pathEntries table.toList)) =
      (table.keys.filterMap fun key => nextName? path (keyPath key)).eraseDups := by
  rw [Json.firstNames_underPath, pathEntries, List.filterMap_map, KeyTable.keys, List.filterMap_map]
  rfl

theorem readBack_namespacedJson (entries : List (String × Wording)) :
    Format.namespacedJson.readBack entries = entries.map fun entry => (entry.1, entry.2.readBack) := by
  have all : entries.filter (Format.namespacedJson.keeps ·.1) = entries :=
    List.filter_eq_self.2 fun _ _ => rfl
  rw [Format.readBack, all]

variable {job : Job} {disk next : Disk}

/-- The keys can be read again as they are: none is cut into more pieces than objects may be nested, and
none starts with a dot. -/
def Readable (table : KeyTable) : Prop :=
  ∀ key ∈ table.keys, (keyPath key).length ≤ Json.maxDepth ∧ key.toList.head? ≠ some '.'

/-- What a job writes as nested objects stays. -/
theorem settles_of_nested (nested : job.format = .namespacedJson)
    (blank : ∀ c ∈ job.indentation.toList, Json.isSpace c)
    (valid : PostProcessor.conflict? job.postProcessors = none) {extracted existing : KeyTable}
    {path : PathName} {text : String} (unset : ∀ key, extracted.wording key = none)
    (held : job.existing disk path = .ok existing)
    (readable : Readable (finalTable job.postProcessors extracted existing))
    (shown : job.format.render job.indentation (finalTable job.postProcessors extracted existing) =
      .ok text) : job.Settles extracted text := by
  have stable := readBack_existing held
  rw [nested] at shown stable
  obtain ⟨free, rfl⟩ := Format.render_eq_ok_iff.1 shown
  have plain : ∀ entry ∈ (finalTable job.postProcessors extracted existing).toList,
      entry.1.toList.head? ≠ some '.' := fun entry member =>
    (readable _ (List.mem_map_of_mem member)).2
  have parsed := Format.parse_nested blank free fun key member => (readable key member).1
  have entries := Format.toList_ofList_regrouped free fun key member => (readable key member).2
  generalize KeyTable.ofList (regrouped (finalTable job.postProcessors extracted existing).toList) = read
    at parsed entries
  have back : read.toList.Perm (Format.namespacedJson.readBack
      (finalTable job.postProcessors extracted existing).toList) := by
    rw [entries, readBack_namespacedJson]
    exact regrouped_perm (KeyTable.nodup_keys _) free plain
  have names : ∀ path, firstNames (underPath path (pathEntries read.toList)) =
      firstNames (underPath path (pathEntries
        (finalTable job.postProcessors extracted existing).toList)) := by
    intro path
    rw [entries]
    exact firstNames_regrouped (KeyTable.nodup_keys _) free plain path
  refine ⟨read, by rw [nested]; exact parsed, ?_⟩
  -- From here on the processors are those of settings.
  have before := toList_finalTable_ofProcessors valid extracted existing
  have again := toList_finalTable_ofProcessors valid extracted read
  rw [before] at back
  simp only [before, firstNames_pathEntries] at names
  rw [nested]
  refine Format.render_of_perm shown ?_ fun path => ?_
  · rw [before, again]
    exact toList_finalTable_perm_again stable back unset
  · rw [before, again, firstNames_pathEntries, firstNames_pathEntries]
    exact eraseDups_keys_finalTable_again _ stable back (names path)

/-! ## The second run -/

/-- The table that a job writes to an output. -/
def Writes (job : Job) (disk : Disk) (output : PathName) (table : KeyTable) : Prop :=
  ∃ findings existing, job.gather disk = .ok findings ∧
    job.existing disk (job.outputFile disk output) = .ok existing ∧
    table = finalTable job.postProcessors findings.table existing

theorem Writes.unique {output : PathName} {first second : KeyTable}
    (one : job.Writes disk output first) (other : job.Writes disk output second) : first = second := by
  obtain ⟨findings, existing, gathered, held, rfl⟩ := one
  obtain ⟨findings', existing', gathered', held', rfl⟩ := other
  cases gathered.symm.trans gathered'
  cases held.symm.trans held'
  rfl

/-- A run that succeeds leaves at each output the text of a table that it writes. Two outputs may be one
file, so it need not be the table of this output. -/
theorem exists_written_of_execute {summary : Summary} (ran : job.execute disk = (next, .ok summary))
    {output : PathName} (listed : output ∈ job.outputs) :
    job.outputFile next output = job.outputFile disk output ∧
      ∃ other ∈ job.outputs, ∃ table text, job.Writes disk other table ∧
        job.format.render job.indentation table = .ok text ∧
        next.read? (job.outputFile disk output) = some text := by
  obtain ⟨findings, prepared, planned, written⟩ := written_of_execute job disk ran
  obtain ⟨-, gathered, ready⟩ := (plan_eq_ok_iff job disk).1 planned
  obtain ⟨i, at_⟩ := List.getElem?_of_mem listed
  obtain ⟨file, at_', made⟩ := getElem?_of_mapM ready at_
  obtain ⟨-, -, -, path, -⟩ := (prepare_eq_ok_iff job disk).1 made
  obtain ⟨place, front, final, back, shape, found, -, -, there⟩ :=
    written.holds file (List.mem_of_getElem? at_')
  have among : final ∈ prepared := by
    rw [shape]
    simp
  obtain ⟨other, asked, made'⟩ := exists_of_mem_mapM ready among
  obtain ⟨existing, held, shown, -, -⟩ := (prepare_eq_ok_iff job disk).1 made'
  have read : next.read? (job.outputFile disk output) = some final.text := by
    rw [← path, Disk.read?, Disk.at?_of_locate found, there]
  exact ⟨outputFile_of_within job disk written.within (isFile_of_read? read), other, asked, _,
    final.text, ⟨findings, existing, gathered, held, rfl⟩, shown, read⟩

/-- **Regrouping does not show.**  A job that merges into nested objects succeeds again on what it has left,
and every output file reads as it did; so does everything else on the disk. Its keys are to be readable,
and its search is not to climb out of a directory that the first run has made. -/
theorem execute_again_nested {summary : Summary} (nested : job.format = .namespacedJson)
    (blank : ∀ c ∈ job.indentation.toList, Json.isSpace c) (merging : job.replace = false)
    (other : ∀ output ∈ job.outputs, SourceKind.ofPath output.text = .other)
    (readable : ∀ output ∈ job.outputs, ∀ table, job.Writes disk output table → Readable table)
    (level : Level disk next job.inputs job.patterns)
    (ran : job.execute disk = (next, .ok summary)) :
    ∃ last summary', job.execute next = (last, .ok summary') ∧
      (∀ path, last.at? path = next.at? path) ∧
      ∀ output ∈ job.outputs, ∃ text, next.read? (job.outputFile disk output) = some text ∧
        last.read? (job.outputFile disk output) = some text := by
  obtain ⟨findings, prepared, planned, -⟩ := written_of_execute job disk ran
  obtain ⟨valid, gathered, ready⟩ := (plan_eq_ok_iff job disk).1 planned
  obtain ⟨last, summary', again, alike⟩ := execute_of_settles merging other ran level planned
    fun file member => by
      obtain ⟨output, listed, made⟩ := exists_of_mem_mapM ready member
      obtain ⟨existing, held, shown, -⟩ := (prepare_eq_ok_iff job disk).1 made
      exact settles_of_nested nested blank valid (wording_findings gathered) held
        (readable output listed _ ⟨findings, existing, gathered, held, rfl⟩) shown
  refine ⟨last, summary', again, alike.at?_path, fun output listed => ?_⟩
  obtain ⟨-, -, -, -, text, -, -, read⟩ := exists_written_of_execute ran listed
  refine ⟨text, read, ?_⟩
  rw [Disk.read?, alike.at?_path]
  exact read

/-- Settings that merge nothing new into one file of nested objects. -/
def grouping : Settings := { unsorted with format := .namespacedJson }

/-- A key between two others of one group. -/
def interleaved : List (String × Wording) := [("a.x", some "x"), ("b", none), ("a.y", none)]

/-- The keys of the group are read one after the other, though they were not written so, and the file stays
as it is. -/
theorem execute_again_nested_interleaved :
    ∃ start next summary, grouping.toJob.execute start = (next, .ok summary) ∧
      (∃ table, grouping.toJob.Writes start ⟨"out.json"⟩ table ∧ table.keys = ["a.x", "b", "a.y"]) ∧
      (∃ text read, next.read? ⟨"out.json"⟩ = some text ∧
        Format.namespacedJson.parse text = .ok read ∧ read.keys = ["a.x", "a.y", "b"]) ∧
      ∃ last summary', grouping.toJob.execute next = (last, .ok summary') ∧
        (∀ path, last.at? path = next.at? path) ∧
        ∀ output ∈ grouping.toJob.outputs, ∃ text,
          next.read? (grouping.toJob.outputFile start output) = some text ∧
            last.read? (grouping.toJob.outputFile start output) = some text := by
  have blank : ∀ c ∈ grouping.indentation.toList, Json.isSpace c := List.all_eq_true.1 rfl
  obtain ⟨text, table, parsed, entries⟩ : ∃ text table, Format.namespacedJson.parse text = .ok table ∧
      table.toList = (KeyTable.ofList interleaved).toList.map fun entry => (entry.1, entry.2.readBack) :=
    ⟨_, (KeyTable.ofList interleaved).ofJsonText_toFlatJson blank⟩
  have final : (finalTable grouping.postProcessors ∅ table).toList =
      [("a.x", some "x"), ("b", some ""), ("a.y", some "")] := by
    have filled : finalTable grouping.postProcessors ∅ table = fill (KeyTable.merge ∅ table) := rfl
    have same : (KeyTable.ofList interleaved).toList = interleaved := KeyTable.toList_ofList (by decide)
    rw [filled, fill, KeyTable.toList_mapValues, KeyTable.toList_empty_merge, entries, same]
    rfl
  have free : GroupFree (finalTable grouping.postProcessors ∅ table).keys := by
    rw [KeyTable.keys, final]
    unfold GroupFree
    decide
  have readable : Readable (finalTable grouping.postProcessors ∅ table) := by
    unfold Readable
    rw [KeyTable.keys, final]
    decide
  have back : (regrouped (finalTable grouping.postProcessors ∅ table).toList).map (·.1) =
      ["a.x", "a.y", "b"] := by
    rw [final]
    decide
  have gathered : grouping.toJob.gather (holding text) = .ok ⟨[], [], 0⟩ := rfl
  obtain ⟨held, summary, ran⟩ := execute_holding rfl rfl (by decide) gathered parsed
    (Format.render_eq_ok_iff.2 ⟨free, rfl⟩)
  have writes : grouping.toJob.Writes (holding text) ⟨"out.json"⟩
      (finalTable grouping.postProcessors ∅ table) := ⟨_, table, gathered, held, rfl⟩
  have again := Format.parse_nested blank free fun key member => (readable key member).1
  have only : ∀ output ∈ grouping.toJob.outputs, ∀ other,
      grouping.toJob.Writes (holding text) output other → Readable other := by
    intro output listed other writes'
    cases List.mem_singleton.1 listed
    exact writes.unique writes' ▸ readable
  have other : ∀ output ∈ grouping.toJob.outputs, SourceKind.ofPath output.text = .other := by
    intro output listed
    cases List.mem_singleton.1 listed
    have named : (PathName.mk "out.json").extension? = some Format.json.extension := by decide
    exact SourceKind.ofPath_extension named
  obtain ⟨_, _, -, written⟩ := written_of_execute _ _ ran
  have level : Level _ _ grouping.toJob.inputs grouping.toJob.patterns :=
    Files.level_of_flat written.within (by decide) fun root listed => absurd listed List.not_mem_nil
  refine ⟨_, _, summary, ran, ⟨_, writes, congrArg (List.map Prod.fst) final⟩, ⟨_, _, rfl, again, ?_⟩,
    execute_again_nested rfl blank rfl other only level ran⟩
  rw [KeyTable.keys, Format.toList_ofList_regrouped free fun key member => (readable key member).2]
  exact back

/-- A job that looks for one file and writes nested objects to a directory beside it. -/
def lookingNested (pattern : String) : Job := { looking pattern with format := .namespacedJson }

/-- **Climbing out of what has come.**  As in the other formats, the first run makes the directory that the
pattern climbs out of, so only the second one finds the file; it is no text, and the run fails. -/
theorem execute_again_nested_climbing :
    (lookingNested "i18n/../a.html").format = .namespacedJson ∧
      (∀ c ∈ (lookingNested "i18n/../a.html").indentation.toList, Json.isSpace c) ∧
      (lookingNested "i18n/../a.html").replace = false ∧
      (∀ output ∈ (lookingNested "i18n/../a.html").outputs, SourceKind.ofPath output.text = .other) ∧
      (∀ output ∈ (lookingNested "i18n/../a.html").outputs, ∀ table,
        (lookingNested "i18n/../a.html").Writes (beside (.bytes [255])) output table → table.keys = []) ∧
      ∃ next summary,
        (lookingNested "i18n/../a.html").execute (beside (.bytes [255])) = (next, .ok summary) ∧
        ¬ ∃ last summary', (lookingNested "i18n/../a.html").execute next = (last, .ok summary') := by
  refine ⟨rfl, List.all_eq_true.1 rfl, rfl, looking_other "i18n/../a.html", ?_, _, _, rfl, ?_⟩
  · rintro output listed table ⟨findings, existing, gathered, held, rfl⟩
    cases List.mem_singleton.1 listed
    cases gathered
    cases held
    rfl
  · rintro ⟨last, summary', ran⟩
    cases congrArg (·.2.toOption) ran

end MessageKeys.Job
