import MessageKeys.Proofs.Format.RoundTrip
import MessageKeys.Proofs.Job.Extraction
import MessageKeys.Proofs.Job.Processors
/-!
# Proofs.Job.Sorting — a sorted output does not tell in which order files were found

The order of files and strategies decides where each key comes first, and so the order of what is found.
It does not decide which keys are found (`extractAll_of_readable`), and none of them has a wording. Keys
ascend in one order only, so once they are sorted nothing is left of the first one, whatever the other
processors do and in whatever order they do it.
-/
namespace MessageKeys

/-! ## What is found -/

/-- Some strategy finds the key in some file. -/
def FoundIn (strategies : List Strategy) (files : List (String × String)) (key : String) : Prop :=
  ∃ file ∈ files, ∃ source, Source.read file.1 file.2 = .ok source ∧
    ∃ strategy ∈ strategies, ∃ keys, strategy.keys? source = some keys ∧ key ∈ keys

section Found

variable {strategies strategies' : List Strategy} {files files' : List (String × String)} {key : String}

theorem FoundIn.of_subset (moreFiles : files ⊆ files') (moreStrategies : strategies ⊆ strategies')
    (found : FoundIn strategies files key) : FoundIn strategies' files' key := by
  obtain ⟨file, listed, source, read, strategy, asked, finds⟩ := found
  exact ⟨file, moreFiles listed, source, read, strategy, moreStrategies asked, finds⟩

theorem foundIn_of_perm (sameFiles : files'.Perm files) (sameStrategies : strategies'.Perm strategies) :
    FoundIn strategies' files' key ↔ FoundIn strategies files key :=
  ⟨.of_subset sameFiles.subset sameStrategies.subset,
    .of_subset sameFiles.symm.subset sameStrategies.symm.subset⟩

theorem Source.mem_foundKeys {source : Source} :
    key ∈ source.foundKeys strategies ↔
      ∃ strategy ∈ strategies, ∃ keys, strategy.keys? source = some keys ∧ key ∈ keys := by
  rw [foundKeys, List.mem_flatMap]
  refine exists_congr fun strategy => and_congr_right fun _ => ?_
  cases strategy.keys? source with
  | none => simp
  | some keys => simp

/-- Files that can all be read give the keys that are in some of them, none of them worded. -/
theorem extractAll_of_readable (strategies : List Strategy)
    (readable : ∀ file ∈ files, ∃ source, Source.read file.1 file.2 = .ok source) :
    ∃ table, extractAll strategies files = .ok table ∧
      (∀ key, key ∈ table.keys ↔ FoundIn strategies files key) ∧
      ∀ key, table.wording key = none := by
  obtain ⟨sources, read⟩ := exists_mapM_of_forall readable
  obtain ⟨table, found, entries⟩ := toList_extractAll strategies files read
  have keys : table.keys = (sources.flatMap (·.foundKeys strategies)).eraseDups := by
    rw [KeyTable.keys, entries, List.map_map]
    exact List.map_id _
  refine ⟨table, found, fun key => ?_, wording_extractAll strategies files found⟩
  rw [keys, List.mem_eraseDups, List.mem_flatMap]
  constructor
  · rintro ⟨source, listed, finds⟩
    obtain ⟨file, there, same⟩ := exists_of_mem_mapM read listed
    exact ⟨file, there, source, same, Source.mem_foundKeys.1 finds⟩
  · rintro ⟨file, there, source, same, finds⟩
    obtain ⟨i, at_⟩ := List.getElem?_of_mem there
    obtain ⟨source', at_', same'⟩ := getElem?_of_mapM read at_
    cases same.symm.trans same'
    exact ⟨source, List.mem_of_getElem? at_', Source.mem_foundKeys.2 finds⟩

end Found

/-! ## What is written -/

namespace PostProcessor

variable {processors : List PostProcessor} {first second : KeyTable}

theorem mem_keptByAll (extracted : KeyTable) (processors : List PostProcessor) (keys : List String)
    (key : String) :
    key ∈ keptByAll extracted processors keys ↔
      key ∈ keys ∧ (.purgeObsoleteKeys ∈ processors → key ∈ extracted.keys) := by
  unfold keptByAll
  split
  · rename_i purging
    simp [purging]
  · rename_i keeping
    simp [keeping]

theorem nodup_keptByAll (extracted draft : KeyTable) (processors : List PostProcessor) :
    (keptByAll extracted processors draft.keys).Nodup := by
  unfold keptByAll
  split
  · exact draft.nodup_keys.filter _
  · exact draft.nodup_keys

/-- Where keys are sorted, it makes no difference in which order they were found. -/
theorem toList_apply_of_sorted (valid : conflict? processors = none) (sorting : .sortByKey ∈ processors)
    (sameKeys : ∀ key, key ∈ first.keys ↔ key ∈ second.keys)
    (sameWordings : ∀ key, first.wording key = second.wording key) (existing : KeyTable) :
    (apply processors (first.merge existing) first existing).toList =
      (apply processors (second.merge existing) second existing).toList := by
  have kept : (keptByAll first processors (first.merge existing).keys).Perm
      (keptByAll second processors (second.merge existing).keys) := by
    refine (List.perm_ext_iff_of_nodup (nodup_keptByAll _ _ _) (nodup_keptByAll _ _ _)).2 fun key => ?_
    simp only [mem_keptByAll, KeyTable.mem_keys_merge, sameKeys]
  obtain ⟨perm, -⟩ := keys_apply first existing processors (first.merge existing)
  obtain ⟨perm', -⟩ := keys_apply second existing processors (second.merge existing)
  have same : (apply processors (first.merge existing) first existing).keys =
      (apply processors (second.merge existing) second existing).keys :=
    KeyTable.eq_of_ascending (perm.trans (kept.trans perm'.symm))
      (keys_apply_sorted first existing sorting _) (keys_apply_sorted second existing sorting _)
  refine KeyTable.toList_eq_of same fun key member => ?_
  rw [wording_apply first existing valid member, wording_apply second existing valid (same ▸ member),
    KeyTable.wording_merge, KeyTable.wording_merge, sameWordings]

end PostProcessor

namespace Job

variable {processors : List PostProcessor}

theorem toList_finalTable_of_sorted (valid : PostProcessor.conflict? processors = none)
    (sorting : .sortByKey ∈ processors) {first second : KeyTable}
    (sameKeys : ∀ key, key ∈ first.keys ↔ key ∈ second.keys)
    (sameWordings : ∀ key, first.wording key = second.wording key) (existing : KeyTable) :
    (finalTable processors first existing).toList = (finalTable processors second existing).toList := by
  have applied := PostProcessor.toList_apply_of_sorted valid sorting sameKeys sameWordings existing
  unfold finalTable
  dsimp only
  split
  · exact applied
  · exact toList_fill_congr applied

/-- What is made ready for an output is a matter of what is to be written. -/
theorem prepare_congr (job : Job) (disk : Files.Disk) {first second : KeyTable}
    (same : ∀ existing, (finalTable job.postProcessors first existing).toList =
      (finalTable job.postProcessors second existing).toList) (output : Files.PathName) :
    job.prepare disk first output = job.prepare disk second output := by
  unfold prepare
  refine congrArg (Except.bind (job.existing disk (job.outputFile disk output))) ?_
  funext existing
  simp only [KeyTable.size_congr (same existing),
    Format.render_congr job.format job.indentation (same existing)]

/-- **A sorted output does not tell in which order files were found.**  If all files can be read and the keys
are to be sorted, files in another order and strategies in another order lead to the same table,
whatever the output held and whatever else is done to the keys. Its keys ascend in the order of their
bytes, its text is the same in each format, and so is what a job makes ready. Sorting keeps the entries,
does nothing the second time, and tables with the same entries are the same once they are sorted. -/
theorem finalTable_of_sorted {files files' : List (String × String)}
    {strategies strategies' : List Strategy}
    (readable : ∀ file ∈ files, ∃ source, Source.read file.1 file.2 = .ok source)
    (sameFiles : files'.Perm files) (sameStrategies : strategies'.Perm strategies)
    (valid : PostProcessor.conflict? processors = none) (sorting : .sortByKey ∈ processors) :
    (∃ found found', extractAll strategies files = .ok found ∧
      extractAll strategies' files' = .ok found' ∧ ∀ existing,
        (finalTable processors found' existing).toList =
          (finalTable processors found existing).toList ∧
        ((finalTable processors found existing).keys.Pairwise fun a b => Text.bytes a < Text.bytes b) ∧
        (∀ (format : Format) (indentation : String),
          format.render indentation (finalTable processors found' existing) =
            format.render indentation (finalTable processors found existing)) ∧
        ∀ (job : Job) disk output, job.postProcessors = processors →
          job.prepare disk found' output = job.prepare disk found output) ∧
    (∀ table : KeyTable, table.sorted.sorted.toList = table.sorted.toList ∧
      table.sorted.toList.Perm table.toList) ∧
    ∀ a b : KeyTable, a.toList.Perm b.toList → a.sorted.toList = b.sorted.toList := by
  refine ⟨?_, fun table => ⟨?_, table.toList_sorted_perm⟩, fun a b => KeyTable.toList_sorted_congr⟩
  · have readable' : ∀ file ∈ files', ∃ source, Source.read file.1 file.2 = .ok source :=
      fun file listed => readable file (sameFiles.subset listed)
    obtain ⟨found, ran, keys, unset⟩ := extractAll_of_readable strategies readable
    obtain ⟨found', ran', keys', unset'⟩ := extractAll_of_readable strategies' readable'
    have sameKeys : ∀ key, key ∈ found'.keys ↔ key ∈ found.keys := by
      intro key
      rw [keys, keys', foundIn_of_perm sameFiles sameStrategies]
    -- Sorting needs the same keys and wordings alone, whatever order they were found in.
    have same := toList_finalTable_of_sorted valid sorting sameKeys
      fun key => (unset' key).trans (unset key).symm
    refine ⟨found, found', ran, ran', fun existing => ⟨same existing, ?_, ?_, ?_⟩⟩
    · rw [keys_finalTable_eq]
      exact (PostProcessor.keys_apply_sorted found existing sorting _).imp
        fun less => (Text.lt_iff_bytes_lt _ _).1 less
    · intro format indentation
      exact Format.render_congr format indentation (same existing)
    · rintro job disk output rfl
      exact job.prepare_congr disk same output
  · exact KeyTable.toList_sorted_congr table.toList_sorted_perm

theorem extractAll_pages : ∃ table, extractAll [.directive] pages = .ok table ∧
    table.toList = [("B", none), ("A", none)] := by
  obtain ⟨table, found, entries⟩ := toList_extractAll [.directive] pages (mapM_of_forall read_pages)
  refine ⟨table, found, entries.trans ?_⟩
  decide +kernel

theorem extractAll_pages_reverse : ∃ table, extractAll [.directive] pages.reverse = .ok table ∧
    table.toList = [("A", none), ("B", none)] := by
  have read := fun page member => read_pages page (List.mem_reverse.1 member)
  obtain ⟨table, found, entries⟩ := toList_extractAll [.directive] pages.reverse (mapM_of_forall read)
  refine ⟨table, found, entries.trans ?_⟩
  decide +kernel

/-- From its end the list of the two pages gives the keys in another order, and the same text. -/
theorem finalTable_of_sorted_pages :
    (∀ page ∈ pages, ∃ source, Source.read page.1 page.2 = .ok source) ∧
    pages.reverse.Perm pages ∧ [Strategy.directive].Perm [.directive] ∧
    PostProcessor.conflict? [.sortByKey, .keyAsDefaultValue] = none ∧
    ∃ found found', extractAll [.directive] pages = .ok found ∧
      found.toList = [("B", none), ("A", none)] ∧
      extractAll [.directive] pages.reverse = .ok found' ∧
      found'.toList = [("A", none), ("B", none)] ∧
      ∀ existing, Format.namespacedJson.render "\t"
          (finalTable [.sortByKey, .keyAsDefaultValue] found' existing) =
        Format.namespacedJson.render "\t"
          (finalTable [.sortByKey, .keyAsDefaultValue] found existing) := by
  have readable : ∀ page ∈ pages, ∃ source, Source.read page.1 page.2 = .ok source :=
    fun page member => ⟨_, read_pages page member⟩
  have valid : PostProcessor.conflict? [.sortByKey, .keyAsDefaultValue] = none := rfl
  have sorting : .sortByKey ∈ [PostProcessor.sortByKey, .keyAsDefaultValue] := List.mem_cons_self
  obtain ⟨found, found', ran, ran', same⟩ := (finalTable_of_sorted readable (List.reverse_perm _)
    (List.Perm.refl [.directive]) valid sorting).1
  obtain ⟨_, found₁, entries⟩ := extractAll_pages
  obtain ⟨_, found₂, entries'⟩ := extractAll_pages_reverse
  cases ran.symm.trans found₁
  cases ran'.symm.trans found₂
  exact ⟨readable, List.reverse_perm _, List.Perm.refl _, valid, found, found', ran, entries, ran',
    entries', fun existing => (same existing).2.2.1 _ _⟩

end Job

end MessageKeys
