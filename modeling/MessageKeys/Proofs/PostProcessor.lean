import Mathlib.Data.List.Induction
import MessageKeys.PostProcessor
import MessageKeys.Proofs.KeyTable.Reference
/-!
# Proofs.PostProcessor — only the set of processors counts

A list of processors does to a draft what its members do, however often they stand there and in whatever
order: it keeps the keys that all of them keep (`keys_apply`), gives each the wording that the one of them
that words keys gives it (`wording_apply`), and puts the keys in order if one of them does so, wherever it
stands (`keys_apply_sorted`). Only the two that treat keys without a wording get in each other's way, and
they may not be used together.
-/
namespace MessageKeys.PostProcessor

variable (extracted existing : KeyTable)

theorem apply_append (first second : List PostProcessor) (draft : KeyTable) :
    apply (first ++ second) draft extracted existing =
      apply second (apply first draft extracted existing) extracted existing :=
  List.foldl_append

theorem apply_concat (processors : List PostProcessor) (processor : PostProcessor) (draft : KeyTable) :
    apply (processors ++ [processor]) draft extracted existing =
      processor.process (apply processors draft extracted existing) extracted existing :=
  apply_append extracted existing processors [processor] draft

/-! ## One processor -/

/-- The keys that a processor keeps. -/
def keptBy (processor : PostProcessor) (keys : List String) : List String :=
  match processor with
  | .purgeObsoleteKeys => keys.filter (extracted.contains ·)
  | _ => keys

theorem keptBy_sublist (processor : PostProcessor) (keys : List String) :
    (keptBy extracted processor keys).Sublist keys := by
  cases processor with
  | purgeObsoleteKeys => exact List.filter_sublist
  | _ => exact List.Sublist.refl keys

theorem keys_process (processor : PostProcessor) (draft : KeyTable) :
    (processor.process draft extracted existing).keys.Perm (keptBy extracted processor draft.keys) ∧
      (processor ≠ .sortByKey →
        (processor.process draft extracted existing).keys = keptBy extracted processor draft.keys) := by
  cases processor with
  | purgeObsoleteKeys =>
      have same := KeyTable.keys_intersect draft extracted
      exact ⟨List.Perm.of_eq same, fun _ => same⟩
  | sortByKey => exact ⟨KeyTable.keys_sorted_perm draft, fun other => absurd rfl other⟩
  | _ => simp [process, keptBy]

theorem mem_of_mem_process {processor : PostProcessor} {draft : KeyTable} {key : String}
    (member : key ∈ (processor.process draft extracted existing).keys) : key ∈ draft.keys :=
  (keptBy_sublist extracted processor draft.keys).subset
    ((keys_process extracted existing processor draft).1.mem_iff.1 member)

/-- The wording that a processor gives a key which has this one. -/
def wordedBy (processor : PostProcessor) (key : String) (value : Wording) : Wording :=
  match processor with
  | .keyAsDefaultValue => some (value.getD key)
  | .nullAsDefaultValue => existing.wording key
  | .purgeObsoleteKeys | .sortByKey => value

theorem wording_process {processor : PostProcessor} {draft : KeyTable} {key : String}
    (member : key ∈ (processor.process draft extracted existing).keys) :
    (processor.process draft extracted existing).wording key =
      wordedBy existing processor key (draft.wording key) := by
  have before := mem_of_mem_process extracted existing member
  cases processor with
  | purgeObsoleteKeys =>
      rw [process, KeyTable.keys_intersect, List.mem_filter, KeyTable.contains_iff] at member
      exact KeyTable.wording_intersect draft extracted member.2
  | keyAsDefaultValue => exact KeyTable.wording_mapValues _ draft before
  | nullAsDefaultValue => exact KeyTable.wording_mapValues _ draft before
  | sortByKey => exact KeyTable.wording_sorted draft key

/-! ## Any list of them -/

variable {processors : List PostProcessor}

theorem conflict?_eq_none_iff :
    conflict? processors = none ↔
      ¬ (.keyAsDefaultValue ∈ processors ∧ .nullAsDefaultValue ∈ processors) := by
  simp [conflict?]

/-- The keys that are left where these processors are used. -/
def keptByAll (processors : List PostProcessor) (keys : List String) : List String :=
  if .purgeObsoleteKeys ∈ processors then keys.filter (extracted.contains ·) else keys

/-- The wording that a key has after these processors. -/
def wordedByAll (processors : List PostProcessor) (key : String) (value : Wording) : Wording :=
  if .keyAsDefaultValue ∈ processors then some (value.getD key)
  else if .nullAsDefaultValue ∈ processors then existing.wording key
  else value

theorem keptByAll_concat (processors : List PostProcessor) (processor : PostProcessor)
    (keys : List String) :
    keptByAll extracted (processors ++ [processor]) keys =
      keptBy extracted processor (keptByAll extracted processors keys) := by
  cases processor with
  | purgeObsoleteKeys =>
      by_cases before : .purgeObsoleteKeys ∈ processors
      · simp [keptByAll, keptBy, before, List.filter_filter]
      · simp [keptByAll, keptBy, before]
  | _ => simp [keptByAll, keptBy]

/-- The one that words keys may come first or last, and again after itself. -/
theorem wordedByAll_concat {processor : PostProcessor}
    (valid : conflict? (processors ++ [processor]) = none) (key : String) (value : Wording) :
    wordedByAll existing (processors ++ [processor]) key value =
      wordedBy existing processor key (wordedByAll existing processors key value) := by
  rw [conflict?_eq_none_iff, List.mem_append, List.mem_append, List.mem_singleton,
    List.mem_singleton] at valid
  cases processor with
  | purgeObsoleteKeys => simp [wordedByAll, wordedBy]
  | sortByKey => simp [wordedByAll, wordedBy]
  | keyAsDefaultValue =>
      have absent : .nullAsDefaultValue ∉ processors := fun listed => valid ⟨Or.inr rfl, Or.inl listed⟩
      by_cases before : .keyAsDefaultValue ∈ processors
      · simp [wordedByAll, wordedBy, before]
      · simp [wordedByAll, wordedBy, before, absent]
  | nullAsDefaultValue =>
      have absent : .keyAsDefaultValue ∉ processors := fun listed => valid ⟨Or.inl listed, Or.inr rfl⟩
      simp [wordedByAll, wordedBy, absent]

theorem keys_apply (processors : List PostProcessor) (draft : KeyTable) :
    (apply processors draft extracted existing).keys.Perm (keptByAll extracted processors draft.keys) ∧
      (.sortByKey ∉ processors →
        (apply processors draft extracted existing).keys =
          keptByAll extracted processors draft.keys) := by
  induction processors using List.reverseRecOn with
  | nil => exact ⟨List.Perm.refl _, fun _ => rfl⟩
  | append_singleton processors processor ih =>
      obtain ⟨perm, ordered⟩ :=
        keys_process extracted existing processor (apply processors draft extracted existing)
      rw [apply_concat, keptByAll_concat]
      constructor
      · refine perm.trans ?_
        cases processor with
        | purgeObsoleteKeys => exact ih.1.filter _
        | _ => exact ih.1
      · intro unsorted
        rw [List.mem_append, not_or, List.mem_singleton] at unsorted
        rw [ordered (Ne.symm unsorted.2), ih.2 unsorted.1]

/-- Once the keys have been sorted they stay so. -/
theorem keys_apply_sorted (sorted : .sortByKey ∈ processors) (draft : KeyTable) :
    (apply processors draft extracted existing).keys.Pairwise (· < ·) := by
  induction processors using List.reverseRecOn with
  | nil => cases sorted
  | append_singleton processors processor ih =>
      rw [apply_concat]
      by_cases last : processor = .sortByKey
      · subst last
        exact KeyTable.keys_sorted_pairwise _
      · have before : .sortByKey ∈ processors := by
          rcases List.mem_append.1 sorted with before | here
          · exact before
          · exact absurd (List.mem_singleton.1 here).symm last
        rw [(keys_process extracted existing processor _).2 last]
        exact (ih before).sublist (keptBy_sublist extracted processor _)

theorem wording_apply (valid : conflict? processors = none) {draft : KeyTable} {key : String}
    (member : key ∈ (apply processors draft extracted existing).keys) :
    (apply processors draft extracted existing).wording key =
      wordedByAll existing processors key (draft.wording key) := by
  induction processors using List.reverseRecOn with
  | nil => rfl
  | append_singleton processors processor ih =>
      have valid' : conflict? processors = none := by
        rw [conflict?_eq_none_iff] at valid ⊢
        exact fun both => valid ⟨List.mem_append_left _ both.1, List.mem_append_left _ both.2⟩
      rw [apply_concat] at member ⊢
      rw [wording_process extracted existing member, wordedByAll_concat existing valid,
        ih valid' (mem_of_mem_process extracted existing member)]

/-- Lists with the same members make the same of a draft. -/
theorem toList_apply_congr {first second : List PostProcessor} (valid : conflict? first = none)
    (same : ∀ processor, processor ∈ first ↔ processor ∈ second) (draft : KeyTable) :
    (apply first draft extracted existing).toList =
      (apply second draft extracted existing).toList := by
  have valid' : conflict? second = none := by
    rw [conflict?_eq_none_iff] at valid ⊢
    rwa [← same, ← same]
  have sameKept : keptByAll extracted first draft.keys = keptByAll extracted second draft.keys := by
    simp only [keptByAll, same]
  obtain ⟨perm, ordered⟩ := keys_apply extracted existing first draft
  obtain ⟨perm', ordered'⟩ := keys_apply extracted existing second draft
  have sameKeys : (apply first draft extracted existing).keys =
      (apply second draft extracted existing).keys := by
    by_cases sorted : .sortByKey ∈ first
    · exact KeyTable.eq_of_ascending (perm.trans (sameKept ▸ perm'.symm))
        (keys_apply_sorted extracted existing sorted draft)
        (keys_apply_sorted extracted existing ((same _).1 sorted) draft)
    · rw [ordered sorted, ordered' fun there => sorted ((same _).2 there), sameKept]
  refine KeyTable.toList_eq_of sameKeys fun key member => ?_
  rw [wording_apply extracted existing valid member,
    wording_apply extracted existing valid' (sameKeys ▸ member)]
  simp only [wordedByAll, same]

/-- **Only the set of processors counts.**  A list of processors that may be used together makes the same of
any draft as every other list with the same members. So two processors may change places unless they
are the two that treat keys without a wording, and each of them does nothing the second time. -/
theorem apply_of_sameMembers {first second : List PostProcessor} (valid : conflict? first = none)
    (same : ∀ processor, processor ∈ first ↔ processor ∈ second)
    (draft extracted existing : KeyTable) :
    (apply first draft extracted existing).toList = (apply second draft extracted existing).toList ∧
    (∀ one other : PostProcessor,
      ¬ (one = .keyAsDefaultValue ∧ other = .nullAsDefaultValue) →
      ¬ (one = .nullAsDefaultValue ∧ other = .keyAsDefaultValue) →
      (one.process (other.process draft extracted existing) extracted existing).toList =
        (other.process (one.process draft extracted existing) extracted existing).toList) ∧
    ∀ processor : PostProcessor,
      (processor.process (processor.process draft extracted existing) extracted existing).toList =
        (processor.process draft extracted existing).toList := by
  refine ⟨toList_apply_congr extracted existing valid same draft, fun one other apart apart' => ?_,
    fun processor => ?_⟩
  · have together : conflict? [other, one] = none := by
      rw [conflict?_eq_none_iff]
      simp only [List.mem_cons, List.not_mem_nil, or_false]
      rintro ⟨rfl | rfl, second | second⟩
      · cases second
      · exact apart' ⟨second.symm, rfl⟩
      · exact apart ⟨rfl, second.symm⟩
      · cases second
    have swapped : ∀ processor, processor ∈ [other, one] ↔ processor ∈ [one, other] := by
      simp [or_comm]
    exact toList_apply_congr extracted existing together swapped draft
  · have alone : conflict? [processor, processor] = none := by
      cases processor <;> rfl
    have once : ∀ member, member ∈ [processor, processor] ↔ member ∈ [processor] := by simp
    exact toList_apply_congr extracted existing alone once draft

/-- Sorted first and last or only at the end, the keys and their wordings are the same. -/
theorem apply_of_sameMembers_repeated :
    conflict? [sortByKey, keyAsDefaultValue, purgeObsoleteKeys, sortByKey] = none ∧
    (∀ processor, processor ∈ [sortByKey, keyAsDefaultValue, purgeObsoleteKeys, sortByKey] ↔
      processor ∈ [purgeObsoleteKeys, keyAsDefaultValue, sortByKey]) ∧
    (apply [sortByKey, keyAsDefaultValue, purgeObsoleteKeys, sortByKey]
        (.ofList [("b", none), ("old", some "x"), ("a", some "y")])
        (.ofList [("a", none), ("b", none)]) ∅).toList = [("a", some "y"), ("b", some "b")] := by
  have valid : conflict? [sortByKey, keyAsDefaultValue, purgeObsoleteKeys, sortByKey] = none := rfl
  have same : ∀ processor, processor ∈ [sortByKey, keyAsDefaultValue, purgeObsoleteKeys, sortByKey] ↔
      processor ∈ [purgeObsoleteKeys, keyAsDefaultValue, sortByKey] := by
    intro processor
    cases processor <;> decide
  refine ⟨valid, same, (apply_of_sameMembers valid same _ _ _).1.trans ?_⟩
  simp only [apply, process, List.foldl_cons, List.foldl_nil, KeyTable.toList_sorted_eq,
    KeyTable.toList_mapValues, KeyTable.toList_intersect, KeyTable.toList_ofList_eq]
  decide

end MessageKeys.PostProcessor
