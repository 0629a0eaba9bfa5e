import MessageKeys.Proofs.Files.Alike
import MessageKeys.Proofs.Files.Resolve
import MessageKeys.Proofs.Job.Again
import MessageKeys.Proofs.Job.Findings
import MessageKeys.Proofs.Job.Isolation
/-!
# Proofs.Job.Rerun — carrying out a job again

A job that has been carried out finds the same keys again (`gather_again`): its search meets the same
sources, and the outputs that it may meet besides hold no keys. It goes on from what it has written, so if
the text of each output is one that stays (`Settles`), it makes the same texts ready (`prepare_again`) and
writes each of them over itself (`writeAll_again`).
-/
namespace MessageKeys
open Files (PathName Disk Location Tree Level Renewed)
open Files.Disk (Alike Within)

/-! ## Files without keys -/

/-- What a file is can be told by its name. -/
theorem SourceKind.ofPath_congr {first second : PathName} (same : first.fileName? = second.fileName?) :
    ofPath first.text = ofPath second.text := by
  have extension : first.extension? = second.extension? := by
    unfold PathName.extension?
    rw [same]
  obtain ⟨text⟩ := first
  obtain ⟨other⟩ := second
  unfold ofPath
  rw [extension]

/-- Files with the extension of a format are neither templates nor programs. -/
theorem SourceKind.ofPath_extension {path : PathName} {format : Format}
    (named : path.extension? = some format.extension) : ofPath path.text = .other := by
  have lower : format.extension.toLower = format.extension := by
    apply String.toList_inj.1
    exact String.toList_map.trans (by cases format <;> decide)
  obtain ⟨text⟩ := path
  unfold ofPath
  simp only [named, lower]
  cases format <;> rfl

theorem Source.keyTable_other (strategies : List Strategy) : Source.other.keyTable strategies = ∅ := by
  have none_ : strategies.filterMap (·.find? .other) = [] := by
    rw [List.filterMap_eq_nil_iff]
    intro strategy _
    cases strategy <;> rfl
  rw [keyTable, none_]
  rfl

namespace Job

variable {job : Job} {disk next : Disk} {prepared : List Prepared}

theorem extractFile_other {path : PathName} (other : SourceKind.ofPath path.text = .other) {text : String}
    (read : disk.read? path = some text) : job.extractFile disk path = .ok ∅ := by
  have extracted : extract job.strategies path.text text = .ok ∅ := by
    rw [extract, Source.read, other]
    exact congrArg Except.ok (Source.keyTable_other _)
  rw [extractFile, read]
  simp only [extracted]

theorem read?_of_extractFile {path : PathName}
    (extracted : ∃ table, job.extractFile disk path = .ok table) :
    ∃ text, disk.read? path = some text := by
  obtain ⟨table, extracted⟩ := extracted
  unfold extractFile at extracted
  split at extracted
  · cases extracted
  · exact ⟨_, by assumption⟩

/-! ## The same keys -/

/-- A file was written at this location. -/
def wroteAt (disk : Disk) (files : List Prepared) (place : Location) : Bool :=
  files.any fun file =>
    match disk.locate file.path with
    | .ok there => there == place
    | .error _ => false

theorem wroteAt_iff {files : List Prepared} {place : Location} :
    wroteAt disk files place ↔ ∃ file ∈ files, disk.locate file.path = .ok place := by
  rw [wroteAt, List.any_eq_true]
  refine exists_congr fun file => and_congr_right fun _ => ?_
  cases disk.locate file.path <;> simp

theorem Written.renewed (written : Written disk next prepared) :
    Renewed disk next (wroteAt next prepared) := by
  refine ⟨written.within, fun place wrote => ?_, fun place elsewhere => ?_⟩
  · obtain ⟨file, member, found⟩ := wroteAt_iff.1 wrote
    obtain ⟨there, _, last, _, -, found', -, -, text⟩ := written.holds file member
    cases found.symm.trans found'
    exact ⟨last.text, text⟩
  · refine written.others place fun file member found => ?_
    rw [wroteAt_iff.2 ⟨file, member, found⟩] at elsewhere
    cases elsewhere

/-- A file that is no source was written, so there are no keys in it. -/
theorem ofPath_of_written (written : Written disk next prepared)
    (other : ∀ file ∈ prepared, SourceKind.ofPath file.path.text = .other) {now : Disk}
    (within : Within now next) {path : PathName} (file : now.isFile path)
    (noSource : now.isSource (wroteAt next prepared) path = false) :
    SourceKind.ofPath path.text = .other := by
  obtain ⟨place, content, found, -⟩ := Files.locate_of_isFile file
  rw [Disk.isSource, found] at noSource
  simp only [file, Bool.true_and, Bool.not_eq_false'] at noSource
  obtain ⟨text, there⟩ := written.renewed.text place noSource
  obtain ⟨wrote, member, leads⟩ := wroteAt_iff.1 noSource
  rw [← other wrote member]
  apply SourceKind.ofPath_congr
  rw [Disk.fileName?_of_locate (within.locate found) there, Disk.fileName?_of_locate leads there]

/-- A file that is no source can be read after the run. -/
theorem read?_of_written (written : Written disk next prepared) {path : PathName}
    (file : next.isFile path) (noSource : next.isSource (wroteAt next prepared) path = false) :
    ∃ text, next.read? path = some text := by
  obtain ⟨place, content, leads, -⟩ := Files.locate_of_isFile file
  have wrote : wroteAt next prepared place := by
    rw [Disk.isSource, leads] at noSource
    simpa [file] using noSource
  obtain ⟨text, holds⟩ := written.renewed.text place wrote
  exact ⟨text, by rw [Disk.read?, Disk.at?_of_locate leads, holds]⟩

/-- A source reads as before. -/
theorem read?_of_isSource {written : Location → Bool} (renewed : Renewed disk next written)
    {path : PathName} (source : disk.isSource written path) : next.read? path = disk.read? path := by
  obtain ⟨place, content, found, there⟩ := Files.locate_of_isFile (Files.isFile_of_isSource source)
  rw [Disk.isSource, found, Bool.and_eq_true] at source
  have elsewhere : written place = false := by simpa using source.2
  have same : next.tree.at? place = disk.tree.at? place := by
    rcases renewed.others place elsewhere with same | ⟨nothing, -⟩
    · exact same
    · rw [there] at nothing
      cases nothing
  rw [Disk.read?, Disk.read?, Disk.at?_of_locate found,
    Disk.at?_of_locate (renewed.within.locate found), same]

/-- The keys of a file; none if it cannot be read. -/
def keysOf (job : Job) (disk : Disk) (path : PathName) : KeyTable :=
  (job.extractFile disk path).toOption.getD ∅

theorem keysOf_eq {path : PathName} {table : KeyTable}
    (read : job.extractFile disk path = .ok table) : job.keysOf disk path = table := by
  rw [keysOf, read]
  rfl

theorem mapM_extractFile {paths : List PathName}
    (readable : ∀ path ∈ paths, ∃ table, job.extractFile disk path = .ok table) :
    paths.mapM (fun path => (job.extractFile disk path).map (path, ·)) =
      .ok (paths.map fun path => (path, job.keysOf disk path)) := by
  refine mapM_of_forall fun path member => ?_
  obtain ⟨table, read⟩ := readable path member
  rw [keysOf_eq read, read]
  rfl

/-- Keys are found where every file can be read. -/
theorem gather_iff {table : KeyTable} :
    (∃ findings, job.gather disk = .ok findings ∧ findings.table = table) ↔
      ∃ resolution, disk.resolve job.inputs job.patterns = .ok resolution ∧
        (∀ path ∈ resolution.files, ∃ table, job.extractFile disk path = .ok table) ∧
        (resolution.files.map (job.keysOf disk)).foldl KeyTable.merge ∅ = table := by
  constructor
  · rintro ⟨findings, gathered, rfl⟩
    obtain ⟨resolution, found, -, -, all⟩ := gather_eq_ok_iff.1 gathered
    have readable : ∀ path ∈ resolution.files, ∃ table, job.extractFile disk path = .ok table := by
      intro path member
      obtain ⟨i, at_⟩ := List.getElem?_of_mem member
      obtain ⟨file, -, read⟩ := getElem?_of_mapM all at_
      cases result : job.extractFile disk path with
      | ok table => exact ⟨table, rfl⟩
      | error failure =>
          rw [result] at read
          cases read
    refine ⟨resolution, found, readable, ?_⟩
    rw [Findings.table, ← Except.ok.inj ((mapM_extractFile readable).symm.trans all), List.map_map]
    rfl
  · rintro ⟨resolution, found, readable, rfl⟩
    refine ⟨⟨_, resolution.unmatched, resolution.skipped⟩,
      gather_eq_ok_iff.2 ⟨resolution, found, rfl, rfl, mapM_extractFile readable⟩, ?_⟩
    rw [Findings.table, List.map_map]
    rfl

/-- Files without keys add none. -/
theorem foldl_merge_filter {p : PathName → Bool} {keys : PathName → KeyTable} {files : List PathName}
    (idle : ∀ path ∈ files, p path = false → keys path = ∅) (start : KeyTable) :
    (files.map keys).foldl KeyTable.merge start =
      ((files.filter p).map keys).foldl KeyTable.merge start := by
  induction files generalizing start with
  | nil => rfl
  | cons path files ih =>
      rw [List.forall_mem_cons] at idle
      rw [List.map_cons, List.foldl_cons, List.filter_cons]
      cases kept : p path with
      | true => exact ih idle.2 _
      | false =>
          rw [idle.1 kept, if_neg Bool.false_ne_true]
          exact ih idle.2 start

/-- After a run the same keys are found. -/
theorem gather_again {findings : Findings} (written : Written disk next prepared)
    (other : ∀ file ∈ prepared, SourceKind.ofPath file.path.text = .other)
    (level : Level disk next job.inputs job.patterns) (gathered : job.gather disk = .ok findings) :
    ∃ again, job.gather next = .ok again ∧ again.table = findings.table := by
  obtain ⟨first, found, readable, table⟩ := gather_iff.1 ⟨findings, gathered, rfl⟩
  obtain ⟨second, found', same⟩ := Files.resolve_again written.renewed level found
  have sourceOf : ∀ path ∈ second.files.filter (next.isSource (wroteAt next prepared)),
      path ∈ first.files ∧ disk.isSource (wroteAt next prepared) path := by
    intro path member
    rw [same] at member
    exact List.mem_filter.1 member
  have sameRead : ∀ path ∈ second.files.filter (next.isSource (wroteAt next prepared)),
      job.extractFile next path = job.extractFile disk path := by
    intro path member
    rw [extractFile, extractFile, read?_of_isSource written.renewed (sourceOf path member).2]
  -- A file that is no source was written by the run, so it is read as an output and holds no keys.
  have idle : ∀ path ∈ second.files, next.isSource (wroteAt next prepared) path = false →
      job.extractFile next path = .ok ∅ := by
    intro path member noSource
    have file := Files.isFile_of_resolve found' member
    obtain ⟨text, read⟩ := read?_of_written written file noSource
    exact extractFile_other (ofPath_of_written written other (Within.refl next) file noSource) read
  have idle' : ∀ path ∈ first.files, disk.isSource (wroteAt next prepared) path = false →
      job.extractFile disk path = .ok ∅ := by
    intro path member noSource
    have file := Files.isFile_of_resolve found member
    obtain ⟨text, read⟩ := read?_of_extractFile (readable path member)
    exact extractFile_other (ofPath_of_written written other written.within file noSource) read
  refine gather_iff.2 ⟨second, found', fun path member => ?_, ?_⟩
  · cases source : next.isSource (wroteAt next prepared) path with
    | true =>
        have among := List.mem_filter.2 ⟨member, source⟩
        rw [sameRead path among]
        exact readable path (sourceOf path among).1
    | false => exact ⟨∅, idle path member source⟩
  · rw [← table, foldl_merge_filter fun path member source => keysOf_eq (idle path member source),
      foldl_merge_filter fun path member source => keysOf_eq (idle' path member source), ← same]
    refine congrArg (List.foldl KeyTable.merge ∅) (List.map_congr_left fun path member => ?_)
    rw [keysOf, keysOf, sameRead path member]

/-! ## The same texts -/

/-- A text that stays: read back and brought up to date with the same keys, it comes out again. -/
def Settles (job : Job) (extracted : KeyTable) (text : String) : Prop :=
  ∃ read, job.format.parse text = .ok read ∧
    job.format.render job.indentation (finalTable job.postProcessors extracted read) = .ok text

/-- What is merged is nothing, or was read. -/
theorem existing_cases {path : PathName} {table : KeyTable}
    (held : job.existing disk path = .ok table) :
    table = ∅ ∨ ∃ text, job.format.parse text = .ok table := by
  unfold existing at held
  split at held
  · cases held
    exact Or.inl rfl
  · split at held
    · cases held
    · rename_i text _
      cases parsed : job.format.parse text with
      | error fault =>
          simp only [parsed] at held
          cases held
      | ok read =>
          simp only [parsed] at held
          cases held
          exact Or.inr ⟨text, parsed⟩

theorem readBack_existing {path : PathName} {table : KeyTable} (held : job.existing disk path = .ok table) :
    job.format.readBack table.toList = table.toList := by
  rcases existing_cases held with rfl | ⟨text, parsed⟩
  · rfl
  · exact Format.readBack_parse parsed

theorem existing_eq_of_read? {path : PathName} {text : String} (merging : job.replace = false)
    (read : disk.read? path = some text) :
    job.existing disk path = (job.format.parse text).mapError (.malformedOutput path) := by
  unfold existing
  rw [merging, isFile_of_read? read, read, if_neg (by decide)]
  cases parsed : job.format.parse text <;> simp only [parsed] <;> rfl

/-- The next run makes the texts ready that are there. -/
theorem prepare_again {extracted : KeyTable} (written : Written disk next prepared)
    (merging : job.replace = false)
    (ready : job.outputs.mapM (job.prepare disk extracted) = .ok prepared)
    (settles : ∀ file ∈ prepared, job.Settles extracted file.text) :
    ∃ again, job.outputs.mapM (job.prepare next extracted) = .ok again ∧
      ∀ file ∈ again, ∃ before ∈ prepared, file.path = before.path ∧
        next.read? file.path = some file.text := by
  refine mapM_transfer ready fun output _ file member made => ?_
  obtain ⟨place, front, last, back, shape, found, -, -, there⟩ := written.holds file member
  obtain ⟨read, parsed, shown⟩ := settles last (by rw [shape]; simp)
  obtain ⟨-, -, -, path, -⟩ := (prepare_eq_ok_iff job disk).1 made
  have text : next.read? file.path = some last.text := by
    rw [Disk.read?, Disk.at?_of_locate found, there]
  have stays := outputFile_of_within job disk written.within (path ▸ isFile_of_read? text)
  refine ⟨⟨file.path, last.text, (finalTable job.postProcessors extracted read).size⟩, ?_, rfl, text⟩
  refine (prepare_eq_ok_iff job next).2 ⟨read, ?_, shown, ?_, rfl⟩
  · rw [stays, ← path]
    rw [existing_eq_of_read? merging text, parsed]
    rfl
  · rw [stays, path]

/-! ## The same files -/

theorem write_again {file : Prepared} (read : disk.read? file.path = some file.text)
    (there : ∀ parent ∈ parentOf file, disk.isDirectory parent) :
    ∃ after, write disk file = (after, none) ∧ Alike disk after := by
  obtain ⟨after, wrote, alike⟩ := Disk.write?_again read
  refine ⟨after, ?_, alike⟩
  unfold write
  rw [← parentOf]
  cases named : parentOf file with
  | none => simp [wrote]
  | some parent => simp [Disk.makeDirectories_of_isDirectory (there parent named), wrote]

/-- Files that are there already can be written again, and all stays as it is. -/
theorem writeAll_again {files : List Prepared}
    (each : ∀ file ∈ files, disk.read? file.path = some file.text ∧
      ∀ parent ∈ parentOf file, disk.isDirectory parent) :
    ∃ after, writeAll disk files = (after, none) ∧ Alike disk after := by
  induction files generalizing disk with
  | nil => exact ⟨disk, rfl, Alike.refl disk⟩
  | cons file files ih =>
      rw [List.forall_mem_cons] at each
      obtain ⟨middle, wrote, alike⟩ := write_again each.1.1 each.1.2
      obtain ⟨after, others, alike'⟩ := @ih middle fun other member => by
        obtain ⟨read, there⟩ := each.2 other member
        refine ⟨?_, fun parent named => alike.within.isDirectory (there parent named)⟩
        rw [Disk.read?, alike.at?_path]
        exact read
      exact ⟨after, (writeAll_of_written files wrote).trans others, alike.trans alike'⟩

/-- The output file of an output that is neither a template nor a program is none. -/
theorem ofPath_outputFile {output : PathName} (other : SourceKind.ofPath output.text = .other)
    {place : Location} {content : Files.Content}
    (found : next.locate (job.outputFile disk output) = .ok place)
    (file : next.tree.at? place = some (.file content)) :
    SourceKind.ofPath (job.outputFile disk output).text = .other := by
  cases directory : disk.isDirectory output with
  | false => rwa [outputFile, directory, if_neg Bool.false_ne_true]
  | true =>
      obtain ⟨there, leads, -⟩ := Disk.locate_of_at? (eq_of_beq directory)
      have inside : job.outputFile disk output =
          output.join ⟨"strings." ++ job.format.extension⟩ := by
        rw [outputFile, directory, if_pos rfl]
      have name : (PathName.mk ("strings." ++ job.format.extension)).isAbsolute = false ∧
          (PathName.mk ("strings." ++ job.format.extension)).segments =
            ["strings." ++ job.format.extension] ∧
          (PathName.mk ("strings." ++ job.format.extension)).fileName? =
            some ("strings." ++ job.format.extension) ∧
          (PathName.mk ("strings." ++ job.format.extension)).extension? =
            some job.format.extension := by
        cases job.format <;> exact ⟨by decide, by decide, by decide, by decide⟩
      obtain ⟨relative, alone, named, extension⟩ := name
      obtain ⟨front, -, joined⟩ :=
        PathName.segments_join (Disk.text_ne_empty_of_locate leads) relative
      obtain ⟨front', here, last, shape, -, -, rfl⟩ := Disk.last_of_locate found file
      rw [inside, joined, alone] at shape
      have same := (List.append_inj' shape rfl).2
      rw [← SourceKind.ofPath_extension extension]
      apply SourceKind.ofPath_congr
      rw [Disk.fileName?_of_locate found file, List.getLast?_concat, named,
        (List.cons.inj same).1]

/-- A job whose texts stay can be carried out again and changes nothing. -/
theorem execute_of_settles {summary : Summary} {findings : Findings}
    (merging : job.replace = false)
    (other : ∀ output ∈ job.outputs, SourceKind.ofPath output.text = .other)
    (ran : job.execute disk = (next, .ok summary))
    (level : Level disk next job.inputs job.patterns)
    (planned : job.plan disk = .ok (findings, prepared))
    (settles : ∀ file ∈ prepared, job.Settles findings.table file.text) :
    ∃ last summary', job.execute next = (last, .ok summary') ∧ Alike next last := by
  have wrote := writeAll_of_execute job disk planned ran
  obtain ⟨findings', prepared', planned', written⟩ := written_of_execute job disk ran
  cases planned.symm.trans planned'
  obtain ⟨conflict, gathered, ready⟩ := (plan_eq_ok_iff job disk).1 planned
  have kinds : ∀ file ∈ prepared, SourceKind.ofPath file.path.text = .other := by
    intro file member
    obtain ⟨output, listed, made⟩ := exists_of_mem_mapM ready member
    obtain ⟨-, -, -, path, -⟩ := (prepare_eq_ok_iff job disk).1 made
    obtain ⟨place, -, last, -, -, found, -, -, there⟩ := written.holds file member
    rw [path] at found ⊢
    exact ofPath_outputFile (other output listed) found there
  obtain ⟨findings', gathered', same⟩ := gather_again written kinds level gathered
  obtain ⟨again, ready', related⟩ := prepare_again written merging ready settles
  have planned' : job.plan next = .ok (findings', again) :=
    (plan_eq_ok_iff job next).2 ⟨conflict, gathered', by rw [same]; exact ready'⟩
  obtain ⟨last, wrote', alike⟩ := @writeAll_again next again fun file member => by
    obtain ⟨before, earlier, path, read⟩ := related file member
    refine ⟨read, fun parent named => ?_⟩
    rw [parentOf, path] at named
    exact isDirectory_parentOf_writeAll wrote before earlier parent named
  exact ⟨last, _, execute_of_writeAll job next planned' wrote', alike⟩

end Job
end MessageKeys
