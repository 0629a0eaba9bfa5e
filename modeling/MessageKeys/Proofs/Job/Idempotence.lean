import MessageKeys.Proofs.Job.Extraction
import MessageKeys.Proofs.Job.History
import MessageKeys.Proofs.Job.Rerun
/-!
# Proofs.Job.Idempotence — a second run changes nothing

In a format that writes its entries one after the other, every text that a merging job writes stays
(`settles_of_plain`). So the job can be carried out again and leaves everything as it is, unless it makes a
directory and its search climbs out of it by `..`: then its second run may find a file that the first one
could not get to (`execute_again_climbing`).
-/
namespace MessageKeys.Job
open Files (PathName Disk Tree Level)
open Files.Disk (Alike)

variable {job : Job} {settings : Settings} {disk next : Disk}

/-- What a job writes in a plain format stays. -/
theorem settles_of_plain (plain : job.format.IsPlain job.indentation)
    (processors : job.postProcessors = settings.postProcessors) {extracted existing : KeyTable}
    {path : PathName} {text : String} (unset : ∀ key, extracted.wording key = none)
    (held : job.existing disk path = .ok existing)
    (shown : job.format.render job.indentation (finalTable job.postProcessors extracted existing) =
      .ok text) : job.Settles extracted text := by
  have stable := readBack_existing held
  rw [processors] at shown
  obtain ⟨text', read, shown', parsed, back⟩ :=
    Format.parse_render plain (finalTable settings.postProcessors extracted existing)
  cases shown.symm.trans shown'
  refine ⟨read, parsed, ?_⟩
  rw [processors, Format.render_congr _ _ (toList_finalTable_again unset stable back), shown]

/-- **A second run changes nothing.**  A job that merges into files of a plain format succeeds again on
what it has left, and every output file reads as it did; so does everything else on the disk. Its search is
not to climb out of a directory that the first run has made. -/
theorem execute_again {summary : Summary} (plain : job.format.IsPlain job.indentation)
    (processors : job.postProcessors = settings.postProcessors) (merging : job.replace = false)
    (other : ∀ output ∈ job.outputs, SourceKind.ofPath output.text = .other)
    (level : Level disk next job.inputs job.patterns)
    (ran : job.execute disk = (next, .ok summary)) :
    ∃ last summary', job.execute next = (last, .ok summary') ∧
      (∀ path, last.at? path = next.at? path) ∧
      ∀ output ∈ job.outputs, ∃ text, next.read? (job.outputFile disk output) = some text ∧
        last.read? (job.outputFile disk output) = some text := by
  obtain ⟨findings, prepared, planned, written⟩ := written_of_execute job disk ran
  obtain ⟨-, gathered, ready⟩ := (plan_eq_ok_iff job disk).1 planned
  obtain ⟨last, summary', again, alike⟩ := execute_of_settles merging other ran level planned
    fun file member => by
      obtain ⟨output, -, made⟩ := exists_of_mem_mapM ready member
      obtain ⟨existing, held, shown, -⟩ := (prepare_eq_ok_iff job disk).1 made
      exact settles_of_plain plain processors (wording_findings gathered) held shown
  refine ⟨last, summary', again, alike.at?_path, fun output listed => ?_⟩
  obtain ⟨i, at_⟩ := List.getElem?_of_mem listed
  obtain ⟨file, at_', made⟩ := getElem?_of_mapM ready at_
  obtain ⟨-, -, -, path, -⟩ := (prepare_eq_ok_iff job disk).1 made
  obtain ⟨place, -, final, -, -, found, -, -, there⟩ := written.holds file (List.mem_of_getElem? at_')
  rw [path] at found
  refine ⟨final.text, ?_, ?_⟩
  · rw [Disk.read?, Disk.at?_of_locate found, there]
  · rw [Disk.read?, alike.at?_path, Disk.at?_of_locate found, there]

/-- A job that looks through two pages and merges their keys into a file of translations. -/
def translating : Job :=
  { reading with outputs := [⟨"out.json"⟩], postProcessors := keeping.postProcessors }

/-- The folder with the pages, and a file beside it. -/
def folderWith (text : String) : Disk := ⟨folder.tree.put ["out.json"] (.file (.text text)), []⟩

theorem gather_translating : ∃ findings, translating.gather (folderWith oneTranslation) = .ok findings ∧
    findings.table.toList = [("B", none), ("A", none)] := by
  have resolved : (folderWith oneTranslation).resolve translating.inputs translating.patterns =
      .ok ⟨[⟨"src/a.html"⟩, ⟨"src/b.html"⟩], 0, []⟩ := by decide +kernel
  have readable : ∀ path ∈ [PathName.mk "src/a.html", ⟨"src/b.html"⟩],
      (folderWith oneTranslation).read? path = some ((pages.lookup path.text).getD "") := by decide +kernel
  obtain ⟨table, extracted, entries⟩ := toList_extractAll translating.strategies pages
    (mapM_of_forall read_pages)
  have found : (translating.gather (folderWith oneTranslation)).map (·.table) = .ok table := by
    rw [gather_of_readable translating resolved readable]
    exact congrArg (Except.mapError Failure.syntaxError) extracted
  obtain ⟨findings, gathered, same⟩ := map_eq_ok_iff.1 found
  refine ⟨findings, gathered, same ▸ entries.trans ?_⟩
  decide +kernel

theorem plain_translating : translating.format.IsPlain translating.indentation :=
  Or.inr ⟨rfl, List.all_eq_true.1 rfl⟩

/-- The run keeps the translation of one of the keys in the pages, and the other key becomes its own wording. -/
theorem execute_translating : ∃ shown read summary,
    translating.execute (folderWith oneTranslation) = (folderWith shown, .ok summary) ∧
      Format.json.parse shown = .ok read ∧ read.get? "A" = some (some "x") ∧ read.get? "B" = some (some "B") := by
  obtain ⟨findings, gathered, found⟩ := gather_translating
  obtain ⟨existing, parsed, entries⟩ := parse_oneTranslation
  obtain ⟨shown, read, rendered, back, readBack⟩ := Format.parse_render plain_translating
    (finalTable keeping.postProcessors findings.table existing)
  have there : (folderWith oneTranslation).at? ⟨"out.json"⟩ = some (.file (.text oneTranslation)) := rfl
  have placed : (folderWith oneTranslation).write? ⟨"out.json"⟩ shown = some (folderWith shown) := rfl
  obtain ⟨-, summary, ran⟩ := execute_of_one there placed rfl rfl (by decide) gathered parsed rendered
  have unset := wording_findings gathered
  have kept : read.get? "A" = some (some "x") :=
    (kept_by_merge unset rfl parsed readBack).2 "A" "x"
      ((existing.mem_toList_iff_get? "A" (some "x")).1 (entries ▸ List.mem_singleton_self _))
  have new : "B" ∈ keeping.keptKeys findings.table existing := by
    rw [keeping.keptKeys_of_unclean rfl, KeyTable.keys, found]
    exact List.mem_append_left _ List.mem_cons_self
  have unheld : existing.wording "B" = none :=
    existing.wording_of_notMem (by rw [KeyTable.keys, entries]; decide)
  have present : "B" ∈ read.keys := by
    rw [Format.keys_of_readBack readBack, List.mem_filter]
    exact ⟨(keys_finalTable_perm keeping findings.table existing).mem_iff.2 new, rfl⟩
  have worded : read.wording "B" = some "B" := by
    have keeps : translating.format.keeps "B" = true := rfl
    rw [Format.wording_of_readBack (List.Perm.of_eq readBack), if_pos keeps,
      wording_finalTable keeping existing unset new, unheld]
    rfl
  exact ⟨shown, read, summary, ran, back, kept, by rw [read.get?_of_mem present, worded]⟩

/-- The run finds the keys of the pages and keeps the translation of one of them; the other one is its own
wording from then on. -/
theorem execute_again_pages :
    ∃ next summary, translating.execute (folderWith oneTranslation) = (next, .ok summary) ∧
      (∃ text read, next.read? ⟨"out.json"⟩ = some text ∧ Format.json.parse text = .ok read ∧
        read.get? "A" = some (some "x") ∧ read.get? "B" = some (some "B")) ∧
      ∃ last summary', translating.execute next = (last, .ok summary') ∧
        (∀ path, last.at? path = next.at? path) ∧
        ∀ output ∈ translating.outputs, ∃ text,
          next.read? (translating.outputFile (folderWith oneTranslation) output) = some text ∧
            last.read? (translating.outputFile (folderWith oneTranslation) output) = some text := by
  obtain ⟨shown, read, summary, ran, back, kept, new⟩ := execute_translating
  have processors : translating.postProcessors = keeping.postProcessors := rfl
  have other : ∀ output ∈ translating.outputs, SourceKind.ofPath output.text = .other := by
    intro output listed
    cases List.mem_singleton.1 listed
    have named : (PathName.mk "out.json").extension? = some Format.json.extension := by decide
    exact SourceKind.ofPath_extension named
  obtain ⟨_, _, -, written⟩ := written_of_execute _ _ ran
  have level : Level _ _ translating.inputs translating.patterns :=
    Files.level_of_flat written.within (by decide) fun root _ => Or.inl (by decide +revert)
  exact ⟨_, summary, ran, ⟨shown, read, rfl, back, kept, new⟩,
    execute_again plain_translating processors rfl other level ran⟩

/-- Settings that ask for nothing to be done to the keys. -/
def unsorted : Settings := { keeping with sort := false, keyAsDefaultValue := false }

/-- A job that looks for one file and writes to a directory beside it. -/
def looking (pattern : String) : Job where
  inputs := [⟨"src"⟩]
  outputs := [⟨"src/i18n/en.json"⟩]
  patterns := [pattern]
  replace := false
  strategies := []
  postProcessors := []
  format := .json
  indentation := "\t"

/-- A directory with that file in it. -/
def beside (content : Files.Content) : Disk :=
  ⟨(Tree.empty.put ["src"] .directory).put ["src", "a.html"] (.file content), []⟩

theorem looking_other (pattern : String) :
    ∀ output ∈ (looking pattern).outputs, SourceKind.ofPath output.text = .other := by
  intro output listed
  cases List.mem_singleton.1 listed
  have named : (PathName.mk "src/i18n/en.json").extension? = some Format.json.extension := by decide
  exact SourceKind.ofPath_extension named

/-- **Climbing out of what has come.**  The first run makes the directory that the pattern climbs out of, so
only the second one finds the file; it is no text, and the run fails. -/
theorem execute_again_climbing :
    (looking "i18n/../a.html").format.IsPlain (looking "i18n/../a.html").indentation ∧
      (looking "i18n/../a.html").postProcessors = unsorted.postProcessors ∧
      (looking "i18n/../a.html").replace = false ∧
      (∀ output ∈ (looking "i18n/../a.html").outputs, SourceKind.ofPath output.text = .other) ∧
      ∃ next summary,
        (looking "i18n/../a.html").execute (beside (.bytes [255])) = (next, .ok summary) ∧
        ¬ ∃ last summary', (looking "i18n/../a.html").execute next = (last, .ok summary') := by
  refine ⟨Or.inr ⟨rfl, List.all_eq_true.1 rfl⟩, rfl, rfl, looking_other _, _, _, rfl, ?_⟩
  rintro ⟨last, summary', ran⟩
  cases congrArg (·.2.toOption) ran

end MessageKeys.Job
