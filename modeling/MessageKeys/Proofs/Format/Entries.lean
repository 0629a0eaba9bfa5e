import MessageKeys.Proofs.Format.Gettext
import MessageKeys.Proofs.Format.Regrouping
import MessageKeys.Proofs.KeyTable.Reference
/-!
# Proofs.Format.Entries — the last entry for a key counts

A text may hold several entries for one key: in an object a key can be spelled flat and nested, in a
template it can stand in several contexts. Reading makes a table of all of them, in which a key has the
wording of its last entry, even where that is none (`Format.read_of_last`). The entries of a template are
found block by block, each from the line that opens it up to the next such line
(`Gettext.entriesOf_of_run`).
-/
namespace MessageKeys

/-- The last entry for a key words it. -/
theorem KeyTable.wording_ofList_of_last {before after : List (String × Wording)} {key : String}
    (value : Wording) (last : key ∉ after.map (·.1)) :
    (KeyTable.ofList (before ++ (key, value) :: after)).wording key = value := by
  induction after using List.reverseRecOn with
  | nil =>
      rw [ofList_concat, wording_set, if_pos rfl]
  | append_singleton after entry ih =>
      rw [List.map_append, List.map_singleton, List.mem_append, List.mem_singleton, not_or] at last
      rw [← List.cons_append, ← List.append_assoc, ofList_concat, wording_set, if_neg last.2, ih last.1]

/-- Entries for other keys do not count. -/
theorem KeyTable.wording_ofList_filter (entries : List (String × Wording)) (key : String) :
    (KeyTable.ofList (entries.filter (·.1 = key))).wording key =
      (KeyTable.ofList entries).wording key := by
  induction entries using List.reverseRecOn with
  | nil => rfl
  | append_singleton entries entry ih =>
      rw [List.filter_append, ofList_concat, wording_set]
      by_cases same : key = entry.1
      · simp [same, ofList_concat, wording_set]
      · simp [same, Ne.symm same, ih]

namespace Json

/-! ## Objects -/

mutual

/-- What is read in a value are its leaves. -/
theorem eq_of_leaves {path : String} {value : Json} {entries : List (String × Wording)}
    (read : leaves path value = .ok entries) :
    entries = (leafPaths value).map fun leaf => (leaf.1.foldl joinKey path, leaf.2.leafWording) := by
  match value with
  | .null =>
      cases read
      rfl
  | .string text =>
      cases read
      rw [← Wording.readBack_some]
      rfl
  | .object fields =>
      rw [leaves] at read
      rw [leafPaths]
      exact eq_of_leavesOfFields read
  | .bool _ | .number _ | .array _ => cases read

theorem eq_of_leavesOfFields {path : String} {fields : List (String × Json)}
    {entries : List (String × Wording)} (read : leavesOfFields path fields = .ok entries) :
    entries = (fieldPaths fields).map fun leaf => (leaf.1.foldl joinKey path, leaf.2.leafWording) := by
  match fields with
  | [] =>
      cases read
      rfl
  | (name, value) :: fields =>
      rw [leavesOfFields] at read
      obtain ⟨here, first, read⟩ := bind_eq_ok_iff.1 read
      obtain ⟨others, rest, same⟩ := bind_eq_ok_iff.1 read
      cases same
      rw [fieldPaths, List.map_append, List.map_map, eq_of_leaves first, eq_of_leavesOfFields rest]
      rfl

end

end Json

namespace Gettext

/-! ## Templates -/

/-- The line opens an entry. -/
def opens (line : List Char) : Bool := (Reading.after? "msgid " (Text.trimChars line)).isSome

/-- The lines before the first entry, and those of each entry, from the line that opens it up to the next
such line. -/
def blocks : List (List Char) → List (List Char) × List (List (List Char))
  | [] => ([], [])
  | line :: lines =>
    if opens line then ([], (line :: (blocks lines).1) :: (blocks lines).2)
    else (line :: (blocks lines).1, (blocks lines).2)

/-- The entry that these lines hold by themselves. -/
def blockPair? (lines : List (List Char)) : Option (String × Wording) :=
  match (Reading.mk [] none).run 1 lines with
  | .ok reading => reading.current.bind (·.toPair?)
  | .error _ => none

namespace Reading

variable {reading next last : Reading} {line : List Char}

theorem reverse_close (reading : Reading) : reading.close.reverse =
    reading.done.reverse ++ (reading.current.bind (·.toPair?)).toList := by
  rw [close, List.reverse_append]
  cases reading.current.bind (·.toPair?) <;> rfl

/-- The entries come out block by block. -/
theorem run_blocks {lines : List (List Char)} {number : Nat} (ran : reading.run number lines = .ok last) :
    ∃ first : Reading, (∀ number, (Reading.mk [] reading.current).run number (blocks lines).1 = .ok first) ∧
      last.close.reverse = reading.done.reverse ++ (first.current.bind (·.toPair?)).toList ++
        (blocks lines).2.filterMap blockPair? := by
  induction lines generalizing reading number with
  | nil =>
      cases ran
      exact ⟨⟨[], last.current⟩, fun _ => rfl, by simp [reverse_close, blocks]⟩
  | cons line lines ih =>
      rw [run] at ran
      cases step : reading.step (Text.trimChars line) with
      | error fault =>
          rw [step] at ran
          cases ran
      | ok next =>
          rw [step] at ran
          obtain ⟨first, block, entries⟩ := ih ran
          cases opening : opens line with
          | true =>
              -- The entry that was open ends here, and a block starts that does not depend on it.
              obtain ⟨entry, opened⟩ := step_of_opens opening step
              cases step.symm.trans (opened reading)
              have here : blockPair? (line :: (blocks lines).1) = first.current.bind (·.toPair?) := by
                rw [blockPair?, run, opened]
                simp only [close, Option.bind_none, Option.toList_none, List.nil_append]
                rw [block]
              refine ⟨⟨[], reading.current⟩, fun _ => ?_, ?_⟩
              · rw [blocks, if_pos opening]
                rfl
              · rw [entries, reverse_close, blocks, if_pos opening, List.filterMap_cons, here]
                cases first.current.bind (·.toPair?) <;> simp
          | false =>
              -- The line goes on with the block in front, which is read alike whatever was done before.
              have other : after? "msgid " (Text.trimChars line) = none := by
                simpa [opens] using opening
              refine ⟨first, fun number => ?_, ?_⟩
              · rw [blocks, if_neg (by simp [opening]), run, step_of_not_opens other step]
                exact block _
              · rw [entries, done_of_not_opens other step, blocks, if_neg (by simp [opening])]

end Reading

/-- The entries that lines hold, block by block. -/
def entriesOf (lines : List (List Char)) : List (String × Wording) :=
  ((blocks lines).1 :: (blocks lines).2).filterMap blockPair?

theorem entriesOf_of_run {lines : List (List Char)} {last : Reading}
    (ran : (Reading.mk [] none).run 1 lines = .ok last) : last.close.reverse = entriesOf lines := by
  obtain ⟨first, block, entries⟩ := Reading.run_blocks ran
  have here : blockPair? (blocks lines).1 = first.current.bind (·.toPair?) := by
    rw [blockPair?, block]
  rw [entries, entriesOf, List.filterMap_cons, here]
  cases first.current.bind (·.toPair?) <;> rfl

end Gettext

namespace Format

/-- The leaves of the object that a text stands for, none if it is blank. -/
def leavesIn (text : String) : Json.Paths :=
  if (Text.trim text).isEmpty then []
  else
    match Json.ofString? text with
    | some (.object fields) => Json.fieldPaths fields
    | _ => []

/-- The entries that a text holds, in the order in which they stand there; a text that is empty is no
wording. A leaf of an object stands for the names that lead to it, with dots between them. -/
def entriesIn (format : Format) (text : String) : List (String × Wording) :=
  match format with
  | .json | .namespacedJson =>
    (leavesIn text).map fun leaf => (Text.joinStrings '.' leaf.1, leaf.2.leafWording)
  | .pot => Gettext.entriesOf (Text.split '\n' text.toList)

/-- No leaf below an empty outermost name has anything to do with the key: its names do not join to it, and
it is not read as the key. -/
def Rooted (format : Format) (text key : String) : Prop :=
  match format with
  | .json | .namespacedJson => ∀ leaf ∈ leavesIn text, ¬ Json.Rooted leaf.1 →
      Text.joinStrings '.' leaf.1 ≠ key ∧ joinPath leaf.1 ≠ key
  | .pot => True

theorem ofJsonText_eq {text : String} {table : KeyTable} (parsed : KeyTable.ofJsonText text = .ok table) :
    table = .ofList ((leavesIn text).map fun leaf => (joinPath leaf.1, leaf.2.leafWording)) := by
  unfold KeyTable.ofJsonText at parsed
  unfold leavesIn
  split at parsed
  · rename_i blank
    cases parsed
    rw [if_pos blank]
    rfl
  · rename_i shown
    rw [if_neg shown]
    cases meant : Json.ofString? text with
    | none =>
        rw [meant] at parsed
        cases parsed
    | some value =>
        rw [meant] at parsed
        cases value with
        | object fields =>
            dsimp only at parsed ⊢
            obtain ⟨entries, read, rfl⟩ := map_eq_ok_iff.1 parsed
            rw [Json.eq_of_leavesOfFields read]
            rfl
        | _ => cases parsed

theorem filter_leaves {leaves : Json.Paths} {key : String}
    (rooted : ∀ leaf ∈ leaves, ¬ Json.Rooted leaf.1 →
      Text.joinStrings '.' leaf.1 ≠ key ∧ joinPath leaf.1 ≠ key) :
    (leaves.map fun leaf => (joinPath leaf.1, leaf.2.leafWording)).filter (·.1 = key) =
      (leaves.map fun leaf => (Text.joinStrings '.' leaf.1, leaf.2.leafWording)).filter
        (·.1 = key) := by
  induction leaves with
  | nil => rfl
  | cons leaf leaves ih =>
      rw [List.forall_mem_cons] at rooted
      rw [List.map_cons, List.map_cons, List.filter_cons, List.filter_cons, ih rooted.2]
      by_cases here : Json.Rooted leaf.1
      · rw [joinPath_of_rooted here]
      · obtain ⟨joined, read⟩ := rooted.1 here
        simp [joined, read]

/-- Reading makes a table of the entries. -/
theorem exists_entries_of_parse {format : Format} {text key : String} {table : KeyTable}
    (parsed : format.parse text = .ok table) (rooted : format.Rooted text key) :
    ∃ entries, table = .ofList entries ∧
      entries.filter (·.1 = key) = (format.entriesIn text).filter (·.1 = key) := by
  cases format with
  | json => exact ⟨_, ofJsonText_eq parsed, filter_leaves rooted⟩
  | namespacedJson => exact ⟨_, ofJsonText_eq parsed, filter_leaves rooted⟩
  | pot =>
      obtain ⟨last, ran, rfl⟩ := map_eq_ok_iff.1 parsed
      exact ⟨_, rfl, congrArg _ (Gettext.entriesOf_of_run ran)⟩

/-- The last entry for a key is what is read for it. -/
theorem read_of_last {format : Format} {text key : String} {table : KeyTable}
    (parsed : format.parse text = .ok table) (rooted : format.Rooted text key)
    {before after : List (String × Wording)} {value : Wording}
    (shape : format.entriesIn text = before ++ (key, value) :: after) (last : key ∉ after.map (·.1)) :
    key ∈ table.keys ∧ table.wording key = value := by
  obtain ⟨entries, rfl, same⟩ := exists_entries_of_parse parsed rooted
  constructor
  · have there : (key, value) ∈ (format.entriesIn text).filter (·.1 = key) := by simp [shape]
    rw [← same] at there
    rw [KeyTable.keys_ofList, List.mem_eraseDups]
    exact List.mem_map_of_mem (List.mem_filter.1 there).1
  · rw [← KeyTable.wording_ofList_filter, same, KeyTable.wording_ofList_filter, shape]
    exact KeyTable.wording_ofList_of_last value last

/-- What a printed object holds. -/
theorem parse_object {fields : List (String × Json)} {entries : List (String × Wording)}
    {indentation text : String} (textual : Json.Textual Json.maxDepth (.object fields))
    (blank : ∀ c ∈ indentation.toList, Json.isSpace c)
    (leaves : Json.leavesOfFields "" fields = .ok entries)
    (shown : (Json.object fields).toPrettyString indentation ++ "\n" = text) :
    json.parse text = .ok (.ofList entries) ∧ leavesIn text = Json.fieldPaths fields := by
  subst shown
  have ending : ∀ c ∈ "\n".toList, Json.isSpace c := List.all_eq_true.1 rfl
  constructor
  · rw [parse, KeyTable.ofJsonText_object textual blank, leaves]
    rfl
  · simp only [leavesIn, trim_toPrettyString_ne_empty, Bool.false_eq_true, if_false,
      Json.ofString?_toPrettyString textual blank ending]

end Format
end MessageKeys
