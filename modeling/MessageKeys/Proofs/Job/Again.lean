import MessageKeys.Proofs.Format.RoundTrip
import MessageKeys.Proofs.Job.FinalTable
/-!
# Proofs.Job.Again — a table that is read back and brought up to date again

The final table of an output is written, and the next run begins with what is read of it. With the same
keys found, a table of the same entries comes out, whatever order they were read in
(`toList_finalTable_perm_again`), and the same table if they were read in theirs
(`toList_finalTable_again`): no key changes its place, and a default is given again wherever it was not
read as a wording.
-/
namespace MessageKeys

namespace Format

variable {format : Format} {table read : KeyTable}

theorem map_fst_readBack (format : Format) (table : KeyTable) :
    (format.readBack table.toList).map (·.1) = table.keys.filter format.keeps := by
  rw [readBack, List.map_map, KeyTable.keys, List.filter_map]
  rfl

theorem keys_of_readBack (same : read.toList = format.readBack table.toList) :
    read.keys = table.keys.filter format.keeps := by
  rw [KeyTable.keys, same, map_fst_readBack]

theorem keys_perm_of_readBack (back : read.toList.Perm (format.readBack table.toList)) :
    read.keys.Perm (table.keys.filter format.keeps) := by
  rw [← map_fst_readBack]
  exact back.map (·.1)

theorem wording_of_readBack (back : read.toList.Perm (format.readBack table.toList)) (key : String) :
    read.wording key = if format.keeps key then (table.wording key).readBack else none := by
  have keys := keys_perm_of_readBack back
  by_cases member : key ∈ table.keys
  · by_cases kept : format.keeps key = true
    · rw [if_pos kept]
      apply KeyTable.wording_of_mem
      rw [back.mem_iff, readBack, List.mem_map]
      have listed := (table.mem_toList_iff_get? key _).2 (table.get?_of_mem member)
      exact ⟨_, List.mem_filter.2 ⟨listed, kept⟩, rfl⟩
    · rw [if_neg kept]
      apply KeyTable.wording_of_notMem
      rw [keys.mem_iff, List.mem_filter]
      exact fun both => kept both.2
  · rw [table.wording_of_notMem member, Wording.readBack_none, ite_self]
    apply KeyTable.wording_of_notMem
    rw [keys.mem_iff, List.mem_filter]
    exact fun both => member both.1

section Stable

variable (stable : format.readBack table.toList = table.toList)
include stable

theorem keeps_of_stable {key : String} (member : key ∈ table.keys) : format.keeps key := by
  rw [keys_of_readBack stable.symm] at member
  exact (List.mem_filter.1 member).2

theorem readBack_wording_of_stable (key : String) :
    (table.wording key).readBack = table.wording key := by
  have same := wording_of_readBack (List.Perm.of_eq stable.symm) key
  by_cases kept : format.keeps key = true
  · rw [if_pos kept] at same
    exact same.symm
  · rw [if_neg kept] at same
    rw [same, Wording.readBack_none]

end Stable

end Format

namespace Job

variable {format : Format} {settings : Settings} {extracted existing read : KeyTable}

/-- What is read back adds the same keys to those that were found. -/
theorem filter_keptKeys (extracted : KeyTable) (stable : format.readBack existing.toList = existing.toList)
    (clean : settings.clean = false) :
    ((settings.keptKeys extracted existing).filter format.keeps).filter (· ∉ extracted.keys) =
      existing.keys.filter (· ∉ extracted.keys) := by
  rw [settings.keptKeys_of_unclean clean, List.filter_append, List.filter_append,
    List.filter_filter, List.filter_filter, List.filter_filter]
  have own : extracted.keys.filter
      (fun key => decide (key ∉ extracted.keys) && format.keeps key) = [] :=
    List.filter_eq_nil_iff.2 fun key member => by simp [member]
  have others : existing.keys.filter (fun key => decide (key ∉ extracted.keys) &&
      format.keeps key && decide (key ∉ extracted.keys)) =
        existing.keys.filter (· ∉ extracted.keys) :=
    List.filter_congr fun key member => by
      rw [Format.keeps_of_stable stable member, Bool.and_true, Bool.and_self]
  rw [own, List.nil_append, others]

/-! ## Read in any order -/

section Perm

variable (stable : format.readBack existing.toList = existing.toList)
  (back : read.toList.Perm
    (format.readBack (finalTable settings.postProcessors extracted existing).toList))
include stable back

/-- The next run keeps the same keys. -/
theorem keptKeys_perm_again :
    (settings.keptKeys extracted read).Perm (settings.keptKeys extracted existing) := by
  cases clean : settings.clean with
  | true => rw [settings.keptKeys_of_clean clean, settings.keptKeys_of_clean clean]
  | false =>
      have whole := (keys_finalTable_perm settings extracted existing).filter format.keeps
      have added := ((Format.keys_perm_of_readBack back).trans whole).filter
        fun key => decide (key ∉ extracted.keys)
      rw [filter_keptKeys extracted stable clean] at added
      rw [settings.keptKeys_of_unclean clean, settings.keptKeys_of_unclean clean]
      exact added.append_left _

theorem keys_finalTable_perm_again :
    (finalTable settings.postProcessors extracted read).keys.Perm
      (finalTable settings.postProcessors extracted existing).keys :=
  ((keys_finalTable_perm settings extracted read).trans (keptKeys_perm_again stable back)).trans
    (keys_finalTable_perm settings extracted existing).symm

theorem keys_finalTable_again_of_sort (sorted : settings.sort = true) :
    (finalTable settings.postProcessors extracted read).keys =
      (finalTable settings.postProcessors extracted existing).keys :=
  KeyTable.eq_of_ascending (keys_finalTable_perm_again stable back)
    (keys_finalTable_sorted settings extracted read sorted)
    (keys_finalTable_sorted settings extracted existing sorted)

theorem wording_finalTable_again (unset : ∀ key, extracted.wording key = none) {key : String}
    (member : key ∈ (finalTable settings.postProcessors extracted read).keys) :
    (finalTable settings.postProcessors extracted read).wording key =
      (finalTable settings.postProcessors extracted existing).wording key := by
  have written := (keys_finalTable_perm_again stable back).mem_iff.1 member
  have kept := (keys_finalTable_perm settings extracted existing).mem_iff.1 written
  rw [wording_finalTable settings read unset ((keptKeys_perm_again stable back).mem_iff.2 kept),
    Format.wording_of_readBack back, wording_finalTable settings existing unset kept]
  by_cases held : format.keeps key = true
  · rw [if_pos held]
    exact Wording.readBack_or (Format.readBack_wording_of_stable stable key) _
  · have absent : key ∉ existing.keys := fun listed => held (Format.keeps_of_stable stable listed)
    rw [if_neg held, existing.wording_of_notMem absent, Option.none_or]

/-- Brought up to date with the same keys, the table has the entries that were written. -/
theorem toList_finalTable_perm_again (unset : ∀ key, extracted.wording key = none) :
    (finalTable settings.postProcessors extracted read).toList.Perm
      (finalTable settings.postProcessors extracted existing).toList :=
  KeyTable.toList_perm_of (keys_finalTable_perm_again stable back) fun _ member =>
    wording_finalTable_again stable back unset member

end Perm

/-! ## Read in its order -/

theorem keys_finalTable_again (stable : format.readBack existing.toList = existing.toList)
    (same : read.toList =
      format.readBack (finalTable settings.postProcessors extracted existing).toList) :
    (finalTable settings.postProcessors extracted read).keys =
      (finalTable settings.postProcessors extracted existing).keys := by
  have readKeys := Format.keys_of_readBack same
  cases sorted : settings.sort with
  | true => exact keys_finalTable_again_of_sort stable (List.Perm.of_eq same) sorted
  | false =>
      rw [keys_finalTable settings extracted existing sorted] at readKeys ⊢
      rw [keys_finalTable settings extracted read sorted]
      cases clean : settings.clean with
      | true => rw [settings.keptKeys_of_clean clean, settings.keptKeys_of_clean clean]
      | false =>
          have added := filter_keptKeys extracted stable clean
          rw [settings.keptKeys_of_unclean clean, readKeys, added, settings.keptKeys_of_unclean clean]

/-- **A second run finds nothing to change.**  What is written, read back and brought up to date with the
same keys is what was written. -/
theorem toList_finalTable_again (unset : ∀ key, extracted.wording key = none)
    (stable : format.readBack existing.toList = existing.toList)
    (same : read.toList =
      format.readBack (finalTable settings.postProcessors extracted existing).toList) :
    (finalTable settings.postProcessors extracted read).toList =
      (finalTable settings.postProcessors extracted existing).toList :=
  KeyTable.toList_eq_of (keys_finalTable_again stable same) fun _ member =>
    wording_finalTable_again stable (List.Perm.of_eq same) unset member

end Job
end MessageKeys
