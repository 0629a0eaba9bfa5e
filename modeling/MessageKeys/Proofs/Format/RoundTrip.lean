import MessageKeys.Format
import MessageKeys.Proofs.Format.Flat
import MessageKeys.Proofs.Format.Gettext
/-!
# Proofs.Format.RoundTrip — what a format reads of what it writes

`Format.readBack` says what becomes of entries that are written and read again. A format that writes its
entries one by one reads back exactly that (`parse_render`), and whatever a format has read stays as it
is (`readBack_parse`), so a second round trip changes nothing.
-/
namespace MessageKeys

namespace KeyTable

theorem mem_toList_set {table : KeyTable} {key : String} {value : Wording}
    {entry : String × Wording} (member : entry ∈ (table.set key value).toList) :
    entry ∈ table.toList ∨ entry = (key, value) := by
  obtain ⟨other, held⟩ := entry
  rw [mem_toList_iff_get?, get?_set] at member
  by_cases same : other = key
  · rw [if_pos same, Option.some.injEq] at member
    exact Or.inr (by rw [same, member])
  · rw [if_neg same] at member
    exact Or.inl ((table.mem_toList_iff_get? _ _).2 member)

/-- A table of entries holds none but these. -/
theorem mem_of_mem_ofList {entries : List (String × Wording)} {entry : String × Wording}
    (member : entry ∈ (ofList entries).toList) : entry ∈ entries := by
  have grows : ∀ table : KeyTable,
      entry ∈ (entries.foldl (fun table entry => table.set entry.1 entry.2) table).toList →
        entry ∈ table.toList ∨ entry ∈ entries := by
    clear member
    induction entries with
    | nil => exact fun table member => Or.inl member
    | cons first entries ih =>
        intro table member
        rcases ih (table.set first.1 first.2) member with old | later
        · rcases mem_toList_set old with before | rfl
          · exact Or.inl before
          · exact Or.inr List.mem_cons_self
        · exact Or.inr (List.mem_cons_of_mem _ later)
  rcases grows empty member with none_ | among
  · cases none_
  · exact among

theorem conflict?_congr {a b : KeyTable} (same : a.toList = b.toList) : a.conflict? = b.conflict? := by
  have sameKeys : a.keys = b.keys := congrArg (List.map Prod.fst) same
  have held : a.contains = b.contains := by
    funext key
    rw [Bool.eq_iff_iff, contains_iff, contains_iff, sameKeys]
  have groups : a.groupConflict? = b.groupConflict? := by
    funext key
    rw [groupConflict?, groupConflict?, held]
  rw [conflict?, conflict?, sameKeys, groups]

end KeyTable

namespace Format

/-- The key has a place in a file of this format. -/
def keeps (format : Format) (key : String) : Bool := format != .pot || key != ""

/-- The entries that are read where these were written. -/
def readBack (format : Format) (entries : List (String × Wording)) : List (String × Wording) :=
  (entries.filter (format.keeps ·.1)).map fun entry => (entry.1, entry.2.readBack)

/-- The format writes one entry after the other, with blanks for an indentation. -/
def IsPlain (format : Format) (indentation : String) : Prop :=
  format = .pot ∨ format = .json ∧ ∀ c ∈ indentation.toList, Json.isSpace c

/-- **Every table has a text, and reads back from it.** -/
theorem parse_render {format : Format} {indentation : String} (plain : format.IsPlain indentation)
    (table : KeyTable) :
    ∃ text read, format.render indentation table = .ok text ∧ format.parse text = .ok read ∧
      read.toList = format.readBack table.toList := by
  rcases plain with rfl | ⟨rfl, blank⟩
  · obtain ⟨read, parsed, same⟩ := Gettext.parse_render table
    refine ⟨_, read, rfl, parsed, same.trans ?_⟩
    have keeps : ∀ key : String, Format.pot.keeps key = decide (key ≠ "") := by
      intro key
      by_cases empty : key = "" <;> simp [Format.keeps, empty]
    simp only [Gettext.Reading.pairs, readBack, keeps]
  · obtain ⟨read, parsed, same⟩ := table.ofJsonText_toFlatJson blank
    refine ⟨_, read, rfl, parsed, same.trans ?_⟩
    have all : table.toList.filter (Format.json.keeps ·.1) = table.toList :=
      List.filter_eq_self.2 fun _ _ => rfl
    rw [readBack, all]

/-- The text of a table shows nothing but its entries. -/
theorem render_congr (format : Format) (indentation : String) {a b : KeyTable}
    (same : a.toList = b.toList) : format.render indentation a = format.render indentation b := by
  cases format with
  | json => rw [render, render, KeyTable.toFlatJson, KeyTable.toFlatJson, same]
  | namespacedJson =>
      rw [render, render, KeyTable.conflict?_congr same, KeyTable.toNestedJson, KeyTable.toNestedJson,
        same]
  | pot => rw [render, render, Gettext.render, Gettext.render, same]

theorem readBack_eq_self {format : Format} {entries : List (String × Wording)}
    (stable : ∀ entry ∈ entries, format.keeps entry.1 ∧ entry.2.readBack = entry.2) :
    format.readBack entries = entries := by
  rw [readBack, List.filter_eq_self.2 fun entry member => (stable entry member).1]
  conv => rhs; rw [← List.map_id entries]
  exact List.map_congr_left fun entry member => Prod.ext rfl (stable entry member).2

end Format

/-! ## What has been read stays as it is -/

namespace Json

mutual

theorem readBack_leaves {path : String} {value : Json} {entries : List (String × Wording)}
    (read : leaves path value = .ok entries) : ∀ entry ∈ entries, entry.2.readBack = entry.2 := by
  match value with
  | .null =>
      cases read
      simp
  | .string text =>
      cases read
      rw [← Wording.readBack_some]
      simp
  | .object fields =>
      rw [leaves] at read
      exact readBack_leavesOfFields read
  | .bool _ | .number _ | .array _ => cases read

theorem readBack_leavesOfFields {path : String} {fields : List (String × Json)}
    {entries : List (String × Wording)} (read : leavesOfFields path fields = .ok entries) :
    ∀ entry ∈ entries, entry.2.readBack = entry.2 := by
  match fields with
  | [] =>
      cases read
      simp
  | (name, value) :: fields =>
      rw [leavesOfFields] at read
      cases first : leaves (joinKey path name) value with
      | error fault =>
          rw [first] at read
          cases read
      | ok here =>
          cases rest : leavesOfFields path fields with
          | error fault =>
              rw [first, rest] at read
              cases read
          | ok others =>
              rw [first, rest] at read
              cases read
              intro entry member
              rcases List.mem_append.1 member with early | late
              · exact readBack_leaves first entry early
              · exact readBack_leavesOfFields rest entry late

end

end Json

namespace Gettext

/-- An entry that can stand in a table that was read: it has a key and no empty wording. -/
def Stable (entry : String × Wording) : Prop := entry.1 ≠ "" ∧ entry.2.readBack = entry.2

theorem stable_toPair? {entry : Entry} {pair : String × Wording} (found : entry.toPair? = some pair) :
    Stable pair := by
  unfold Entry.toPair? at found
  split at found
  · cases found
  · rename_i filled
    cases found
    refine ⟨by simpa using filled, ?_⟩
    cases entry.value with
    | none => rfl
    | some text =>
        rw [Option.filter_some]
        by_cases empty : text = []
        · simp [empty]
        · simp [empty, Wording.readBack_some]

theorem stable_close {reading : Reading} (done : ∀ pair ∈ reading.done, Stable pair) :
    ∀ pair ∈ reading.close, Stable pair := by
  intro pair member
  rcases List.mem_append.1 member with last | earlier
  · obtain ⟨entry, -, found⟩ := Option.bind_eq_some_iff.1 (Option.mem_toList.1 last)
    exact stable_toPair? found
  · exact done pair earlier

theorem stable_run {lines : List (List Char)} {reading last : Reading} {number : Nat}
    (done : ∀ pair ∈ reading.done, Stable pair) (run : reading.run number lines = .ok last) :
    ∀ pair ∈ last.done, Stable pair := by
  induction lines generalizing reading number with
  | nil =>
      cases run
      exact done
  | cons line lines ih =>
      rw [Reading.run] at run
      split at run
      · rename_i next step
        refine ih ?_ run
        rcases Reading.done_step step with same | closed
        · rw [same]
          exact done
        · rw [closed]
          exact stable_close done
      · cases run

theorem stable_parse {text : String} {table : KeyTable} (read : parse text = .ok table) :
    ∀ entry ∈ table.toList, Stable entry := by
  obtain ⟨last, run, rfl⟩ := map_eq_ok_iff.1 read
  intro entry member
  have among := KeyTable.mem_of_mem_ofList member
  exact stable_close (stable_run (by simp) run) entry (List.mem_reverse.1 among)

end Gettext

theorem KeyTable.readBack_ofJsonText {text : String} {table : KeyTable}
    (read : ofJsonText text = .ok table) : ∀ entry ∈ table.toList, entry.2.readBack = entry.2 := by
  unfold ofJsonText at read
  split at read
  · cases read
    simp
  · split at read
    · cases read
    · rename_i fields parsed
      cases leaves : Json.leavesOfFields "" fields with
      | error fault =>
          rw [leaves] at read
          cases read
      | ok entries =>
          rw [leaves] at read
          cases read
          exact fun entry member =>
            Json.readBack_leavesOfFields leaves entry (mem_of_mem_ofList member)
    · cases read

/-- **What has been read stays as it is.**  Writing it and reading it again would give the same entries. -/
theorem Format.readBack_parse {format : Format} {text : String} {table : KeyTable}
    (read : format.parse text = .ok table) : format.readBack table.toList = table.toList := by
  apply readBack_eq_self
  intro entry member
  cases format with
  | pot =>
      obtain ⟨named, same⟩ := Gettext.stable_parse read entry member
      exact ⟨by simpa [keeps] using named, same⟩
  | json => exact ⟨rfl, KeyTable.readBack_ofJsonText read entry member⟩
  | namespacedJson => exact ⟨rfl, KeyTable.readBack_ofJsonText read entry member⟩

end MessageKeys
