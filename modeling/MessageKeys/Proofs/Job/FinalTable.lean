import MessageKeys.Proofs.KeyTable.Merge
import MessageKeys.Proofs.PostProcessor
import MessageKeys.Proofs.Text.ByteOrder
import MessageKeys.Run
/-!
# Proofs.Job.FinalTable — what a run writes

The table of an output is made of what was found and what the output held, by dropping, a default
for keys without a wording, sorting and filling, as the settings ask. What comes out of all of this is
said at once: its keys (`keys_finalTable`, `keys_finalTable_sorted`) and the wording of each
(`wording_finalTable`).
-/
namespace MessageKeys

namespace PostProcessor

variable (extracted existing : KeyTable)

/-- Keeping only wordings that the output held changes nothing where there are no others. -/
theorem toList_process_nullAsDefaultValue (draft : KeyTable)
    (restored : ∀ key ∈ draft.keys, draft.wording key = existing.wording key) :
    (process .nullAsDefaultValue draft extracted existing).toList = draft.toList := by
  have sameKeys : (process .nullAsDefaultValue draft extracted existing).keys = draft.keys := by
    rw [process, KeyTable.keys_mapValues]
  refine KeyTable.toList_eq_of sameKeys fun key member => ?_
  rw [sameKeys] at member
  rw [process, KeyTable.wording_mapValues _ _ member, restored key member]
  rfl

end PostProcessor

namespace Settings

variable (settings : Settings)

/-- The keys of an output in the order they have before sorting. -/
def keptKeys (extracted existing : KeyTable) : List String :=
  if settings.clean then extracted.keys
  else extracted.keys ++ existing.keys.filter (· ∉ extracted.keys)

theorem keptKeys_of_clean (cleaned : settings.clean = true) (extracted existing : KeyTable) :
    settings.keptKeys extracted existing = extracted.keys :=
  if_pos cleaned

theorem keptKeys_of_unclean (uncleaned : settings.clean = false) (extracted existing : KeyTable) :
    settings.keptKeys extracted existing =
      extracted.keys ++ existing.keys.filter (· ∉ extracted.keys) := by
  rw [keptKeys, uncleaned, if_neg Bool.false_ne_true]

/-- What is written for a key that the output has no wording for. -/
def defaultWording (key : String) : Wording :=
  if settings.keyAsDefaultValue then some key
  else if settings.nullAsDefaultValue then none
  else some ""

/-- The draft after the dropping that the settings ask for. -/
def purged (extracted existing : KeyTable) : KeyTable :=
  if settings.clean then (extracted.merge existing).intersect extracted
  else extracted.merge existing

theorem keys_purged (extracted existing : KeyTable) :
    (settings.purged extracted existing).keys = settings.keptKeys extracted existing := by
  unfold purged keptKeys
  split
  · rw [KeyTable.keys_intersect, KeyTable.keys_merge, List.filter_append, List.filter_filter]
    have all : extracted.keys.filter (extracted.contains ·) = extracted.keys :=
      List.filter_eq_self.2 fun key member => by simpa using member
    have others : (existing.keys.filter fun key =>
        extracted.contains key && decide (key ∉ extracted.keys)) = [] :=
      List.filter_eq_nil_iff.2 fun key _ => by simp
    rw [all, others, List.append_nil]
  · exact KeyTable.keys_merge _ _

/-- A key of the output is kept if nothing is dropped, and one that was found in any case. -/
theorem mem_keptKeys_of_held {extracted existing : KeyTable} {key : String}
    (held : key ∈ existing.keys) (stays : settings.clean = false ∨ key ∈ extracted.keys) :
    key ∈ settings.keptKeys extracted existing := by
  cases cleaned : settings.clean with
  | true =>
      rw [settings.keptKeys_of_clean cleaned]
      exact stays.resolve_left (by simp [cleaned])
  | false =>
      rw [settings.keptKeys_of_unclean cleaned, List.mem_append, List.mem_filter]
      by_cases found : key ∈ extracted.keys
      · exact Or.inl found
      · exact Or.inr ⟨held, by simpa using found⟩

theorem mem_extracted_of_clean {extracted existing : KeyTable} {key : String}
    (member : key ∈ settings.keptKeys extracted existing) (cleaned : settings.clean = true) :
    key ∈ extracted.keys := by
  rwa [settings.keptKeys_of_clean cleaned] at member

theorem wording_purged {extracted existing : KeyTable} (unset : ∀ key, extracted.wording key = none)
    {key : String} (member : key ∈ settings.keptKeys extracted existing) :
    (settings.purged extracted existing).wording key = existing.wording key := by
  unfold purged
  split
  · rename_i cleaned
    rw [KeyTable.wording_intersect _ _ (settings.mem_extracted_of_clean member cleaned),
      KeyTable.wording_merge, unset, Option.none_or]
  · rw [KeyTable.wording_merge, unset, Option.none_or]

/-- The draft after the dropping and the default that the settings ask for. -/
def defaulted (extracted existing : KeyTable) : KeyTable :=
  PostProcessor.apply
    (if settings.keyAsDefaultValue then [.keyAsDefaultValue]
      else if settings.nullAsDefaultValue then [.nullAsDefaultValue] else [])
    (settings.purged extracted existing) extracted existing

theorem keys_defaulted (extracted existing : KeyTable) :
    (settings.defaulted extracted existing).keys = settings.keptKeys extracted existing := by
  rw [← keys_purged, defaulted]
  cases settings.keyAsDefaultValue <;> cases settings.nullAsDefaultValue <;>
    simp [PostProcessor.apply, PostProcessor.process]

/-- Filling settles what the default leaves open, unless wordings may stay unset. -/
theorem wording_defaulted {extracted existing : KeyTable}
    (unset : ∀ key, extracted.wording key = none) {key : String}
    (member : key ∈ settings.keptKeys extracted existing) :
    (if settings.nullAsDefaultValue && !settings.keyAsDefaultValue then
        (settings.defaulted extracted existing).wording key
      else some (((settings.defaulted extracted existing).wording key).getD "")) =
      (existing.wording key).or (settings.defaultWording key) := by
  have held : key ∈ (settings.purged extracted existing).keys := by rwa [keys_purged]
  have before := settings.wording_purged unset member
  unfold defaulted defaultWording
  cases settings.keyAsDefaultValue <;> cases settings.nullAsDefaultValue <;>
    simp only [PostProcessor.apply, PostProcessor.process, List.foldl_cons, List.foldl_nil,
      KeyTable.wording_mapValues _ _ held, before, Bool.not_true, Bool.not_false, Bool.and_true,
      Bool.and_false, Bool.false_eq_true, if_true, if_false]
  · cases existing.wording key <;> rfl
  · rw [Option.or_none]; rfl
  · cases existing.wording key <;> rfl
  · cases existing.wording key <;> rfl

end Settings

namespace Job

variable (settings : Settings) (extracted existing : KeyTable)

theorem contains_nullAsDefaultValue :
    settings.postProcessors.contains .nullAsDefaultValue =
      (settings.nullAsDefaultValue && !settings.keyAsDefaultValue) := by
  unfold Settings.postProcessors
  cases settings.clean <;> cases settings.keyAsDefaultValue <;>
    cases settings.nullAsDefaultValue <;> cases settings.sort <;> rfl

/-- The order of the stages: dropping, default, sorting. -/
theorem apply_postProcessors :
    PostProcessor.apply settings.postProcessors (extracted.merge existing) extracted existing =
      if settings.sort then (settings.defaulted extracted existing).sorted
      else settings.defaulted extracted existing := by
  have dropped : PostProcessor.apply (if settings.clean then [.purgeObsoleteKeys] else [])
      (extracted.merge existing) extracted existing = settings.purged extracted existing := by
    unfold Settings.purged
    split <;> rfl
  rw [Settings.postProcessors, PostProcessor.apply_append, PostProcessor.apply_append, dropped,
    ← Settings.defaulted]
  split <;> rfl

theorem keys_finalTable_eq (processors : List PostProcessor) :
    (finalTable processors extracted existing).keys =
      (PostProcessor.apply processors (extracted.merge existing) extracted existing).keys := by
  unfold finalTable
  simp only
  split
  · rfl
  · exact KeyTable.keys_mapValues _ _

theorem keys_finalTable (unsorted : settings.sort = false) :
    (finalTable settings.postProcessors extracted existing).keys =
      settings.keptKeys extracted existing := by
  rw [keys_finalTable_eq, apply_postProcessors, unsorted, if_neg Bool.false_ne_true,
    Settings.keys_defaulted]

theorem keys_finalTable_perm :
    (finalTable settings.postProcessors extracted existing).keys.Perm
      (settings.keptKeys extracted existing) := by
  rw [keys_finalTable_eq, apply_postProcessors, ← Settings.keys_defaulted]
  split
  · exact KeyTable.keys_sorted_perm _
  · exact List.Perm.refl _

theorem keys_finalTable_sorted (sorted : settings.sort = true) :
    (finalTable settings.postProcessors extracted existing).keys.Pairwise (· < ·) := by
  rw [keys_finalTable_eq, apply_postProcessors, if_pos sorted]
  exact KeyTable.keys_sorted_pairwise _

/-- Every key has the wording that the output held for it, or else the default. -/
theorem wording_finalTable {extracted : KeyTable} (unset : ∀ key, extracted.wording key = none)
    {key : String} (member : key ∈ settings.keptKeys extracted existing) :
    (finalTable settings.postProcessors extracted existing).wording key =
      (existing.wording key).or (settings.defaultWording key) := by
  have sortedOrNot : (PostProcessor.apply settings.postProcessors (extracted.merge existing)
      extracted existing).wording key = (settings.defaulted extracted existing).wording key := by
    rw [apply_postProcessors]
    split
    · exact KeyTable.wording_sorted _ _
    · rfl
  rw [← settings.wording_defaulted unset member, finalTable, contains_nullAsDefaultValue]
  split
  · exact sortedOrNot
  · rw [fill, KeyTable.wording_mapValues, sortedOrNot]
    have perm := keys_finalTable_perm settings extracted existing
    rw [keys_finalTable_eq] at perm
    exact perm.mem_iff.2 member

theorem get?_finalTable {extracted : KeyTable} (unset : ∀ key, extracted.wording key = none)
    {key : String} (member : key ∈ settings.keptKeys extracted existing) :
    (finalTable settings.postProcessors extracted existing).get? key =
      some ((existing.wording key).or (settings.defaultWording key)) := by
  rw [KeyTable.get?_of_mem, wording_finalTable settings existing unset member]
  exact (keys_finalTable_perm settings extracted existing).mem_iff.2 member

/-- **What a run writes.**  The final table has the kept keys, in ascending order of bytes if sorting is
asked for; a wording that the output held stays, every other key gets the default; and keeping only
wordings that the output held changes nothing in the draft. -/
theorem finalTable_exact (settings : Settings) (extracted existing : KeyTable)
    (unset : ∀ key ∈ extracted.keys, extracted.get? key = some none) :
    (settings.sort = false →
      (finalTable settings.postProcessors extracted existing).keys =
        settings.keptKeys extracted existing) ∧
    (settings.sort = true →
      (finalTable settings.postProcessors extracted existing).keys.Perm
        (settings.keptKeys extracted existing) ∧
      (finalTable settings.postProcessors extracted existing).keys.Pairwise
        fun a b => Text.bytes a < Text.bytes b) ∧
    (∀ key ∈ settings.keptKeys extracted existing,
      (∀ text, existing.get? key ≠ some (some text)) →
      (finalTable settings.postProcessors extracted existing).get? key =
        some (settings.defaultWording key)) ∧
    (∀ key text, existing.get? key = some (some text) →
      settings.clean = false ∨ key ∈ extracted.keys →
      (finalTable settings.postProcessors extracted existing).get? key = some (some text)) ∧
    (PostProcessor.process .nullAsDefaultValue (settings.purged extracted existing) extracted
      existing).toList = (settings.purged extracted existing).toList ∧
    (∀ disk output,
      settings.toJob.existing disk (settings.toJob.outputFile disk output) = .ok existing →
      settings.toJob.prepare disk extracted output =
        match settings.format.render settings.indentation
            (finalTable settings.postProcessors extracted existing) with
        | .ok text => .ok ⟨settings.toJob.outputFile disk output, text,
            (finalTable settings.postProcessors extracted existing).size⟩
        | .error conflict =>
            .error (.unwritableTable (settings.toJob.outputFile disk output) conflict)) := by
  have noWording := KeyTable.wording_of_unset unset
  refine ⟨keys_finalTable settings extracted existing, fun sorted => ⟨?_, ?_⟩, ?_, ?_, ?_, ?_⟩
  · exact keys_finalTable_perm settings extracted existing
  · exact (keys_finalTable_sorted settings extracted existing sorted).imp
      fun less => (Text.lt_iff_bytes_lt _ _).1 less
  · intro key member open_
    have nothing : existing.wording key = none :=
      Option.eq_none_iff_forall_ne_some.2 fun text held =>
        open_ text ((existing.wording_eq_some_iff).1 held)
    rw [get?_finalTable settings existing noWording member, nothing, Option.none_or]
  · intro key text held stays
    have listed : key ∈ existing.keys := (existing.mem_keys_iff key).2 ⟨_, held⟩
    have member := settings.mem_keptKeys_of_held listed stays
    rw [get?_finalTable settings existing noWording member, (existing.wording_eq_some_iff).2 held,
      Option.some_or]
  · apply PostProcessor.toList_process_nullAsDefaultValue
    intro key member
    rw [Settings.keys_purged] at member
    exact settings.wording_purged noWording member
  · intro disk output held
    simp only [prepare, held]
    rfl

/-- Settings that ask for sorting and for keys as default wordings. -/
def sortedByName : Settings :=
  Settings.resolve { sort := true, keyAsDefaultValue := true } {} ⟨"."⟩

/-- A stale key keeps its translation, and a found key without one gets itself. -/
theorem finalTable_exact_sample :
    (∀ key ∈ (KeyTable.ofKeys ["b", "a"]).keys,
      (KeyTable.ofKeys ["b", "a"]).get? key = some none) ∧
    (finalTable sortedByName.postProcessors (KeyTable.ofKeys ["b", "a"])
      (KeyTable.ofList [("old", some "x"), ("a", none)])).get? "old" = some (some "x") ∧
    (finalTable sortedByName.postProcessors (KeyTable.ofKeys ["b", "a"])
      (KeyTable.ofList [("old", some "x"), ("a", none)])).get? "a" = some (some "a") := by
  have unset : ∀ key ∈ (KeyTable.ofKeys ["b", "a"]).keys,
      (KeyTable.ofKeys ["b", "a"]).get? key = some none := fun _ => KeyTable.get?_ofKeys
  have held : ∀ key, (KeyTable.ofList [("old", some "x"), ("a", none)]).get? key =
      [("old", some "x"), ("a", none)].lookup key := KeyTable.get?_ofList (by decide)
  have kept : "a" ∈ sortedByName.keptKeys (KeyTable.ofKeys ["b", "a"])
      (KeyTable.ofList [("old", some "x"), ("a", none)]) := by
    rw [← Settings.keys_purged]
    refine (KeyTable.mem_keys_merge _ _ _).2 (Or.inr ?_)
    rw [KeyTable.mem_keys_iff, held]
    exact ⟨none, rfl⟩
  obtain ⟨-, -, defaults, stays, -⟩ := finalTable_exact sortedByName (KeyTable.ofKeys ["b", "a"])
    (KeyTable.ofList [("old", some "x"), ("a", none)]) unset
  refine ⟨unset, stays "old" "x" ?_ (Or.inl rfl), defaults "a" kept fun text => ?_⟩
  · rw [held]
    rfl
  · rw [held]
    exact fun same => by cases same

end Job
end MessageKeys
