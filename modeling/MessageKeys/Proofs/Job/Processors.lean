import MessageKeys.Proofs.Job.FinalTable
/-!
# Proofs.Job.Processors — processors in any order

Settings ask for each processor once and in a fixed order, but a job may have any list of them. As long as
they may be used together, neither their order nor a repetition makes a difference to what is written: every
list does what settings do that ask for the same processors (`toList_finalTable_ofProcessors`).
-/
namespace MessageKeys

/-- Settings that ask for the processors of a list. -/
def Settings.ofProcessors (processors : List PostProcessor) : Settings :=
  Settings.resolve
    { clean := processors.contains .purgeObsoleteKeys
      keyAsDefaultValue := processors.contains .keyAsDefaultValue
      nullAsDefaultValue := processors.contains .nullAsDefaultValue
      sort := processors.contains .sortByKey } {} ⟨"."⟩

variable {processors : List PostProcessor}

theorem Settings.mem_postProcessors_ofProcessors (valid : PostProcessor.conflict? processors = none)
    (processor : PostProcessor) :
    processor ∈ (Settings.ofProcessors processors).postProcessors ↔ processor ∈ processors := by
  rw [PostProcessor.conflict?_eq_none_iff] at valid
  simp only [Settings.ofProcessors, Settings.resolve, Settings.postProcessors, Bool.or_false,
    List.contains_eq_mem, decide_eq_true_eq, List.mem_append]
  by_cases worded : .keyAsDefaultValue ∈ processors
  · have absent : .nullAsDefaultValue ∉ processors := fun listed => valid ⟨worded, listed⟩
    cases processor <;> simp [worded, absent]
  · cases processor <;> simp [worded]

namespace Job

theorem toList_fill_congr {a b : KeyTable} (same : a.toList = b.toList) :
    (fill a).toList = (fill b).toList := by
  rw [fill, fill, KeyTable.toList_mapValues, KeyTable.toList_mapValues, same]

/-- Lists with the same processors write the same. -/
theorem toList_finalTable_congr {first second : List PostProcessor}
    (valid : PostProcessor.conflict? first = none)
    (same : ∀ processor, processor ∈ first ↔ processor ∈ second) (extracted existing : KeyTable) :
    (finalTable first extracted existing).toList = (finalTable second extracted existing).toList := by
  have applied := PostProcessor.toList_apply_congr extracted existing valid same
    (extracted.merge existing)
  simp only [finalTable, List.contains_eq_mem, same]
  split
  · exact applied
  · exact toList_fill_congr applied

/-- **Processors in any order.**  A list of processors that may be used together writes what the settings
write that ask for the same processors. -/
theorem toList_finalTable_ofProcessors (valid : PostProcessor.conflict? processors = none)
    (extracted existing : KeyTable) :
    (finalTable processors extracted existing).toList =
      (finalTable (Settings.ofProcessors processors).postProcessors extracted existing).toList :=
  toList_finalTable_congr valid
    (fun processor => (Settings.mem_postProcessors_ofProcessors valid processor).symm) extracted existing

end Job
end MessageKeys
