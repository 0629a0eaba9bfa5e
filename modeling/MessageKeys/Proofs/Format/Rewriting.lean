import MessageKeys.Proofs.Format.RoundTrip
import MessageKeys.Proofs.KeyTable.Reference
/-!
# Proofs.Format.Rewriting — what a format reads of its own texts

Both formats that write one entry after the other read their entries again, whatever the keys and
wordings are made of. In a template this holds line by line: once the header and some entries have been
read, the lines of the next entry close what stands before them and open this entry, so no text ends up
in another line, in the header or in a neighbour (`Gettext.parse_render_entries`). A table that has been
read, from a nested object too, comes back from its text as it is, and so does the text
(`Format.parse_render_json`).
-/
namespace MessageKeys

namespace Gettext

theorem toList_render_of_parse {text : String} {table : KeyTable} (parsed : parse text = .ok table) :
    Reading.pairs table.toList = table.toList := by
  have stable := stable_parse parsed
  have named : table.toList.filter (·.1 ≠ "") = table.toList := by
    apply List.filter_eq_self.2
    intro entry member
    simpa using (stable entry member).1
  rw [Reading.pairs, named]
  conv => rhs; rw [← List.map_id table.toList]
  apply List.map_congr_left
  intro entry member
  exact Prod.ext rfl (stable entry member).2

/-- **A template says what its table holds.**  It reads back with the entries in their order, except for the
one with the empty key, and with no wording where the wording is empty. Each entry has lines of its own:
when all before them has been read, these lines leave what was read alone and open just this entry. A
table that comes from a text comes back from its own as it is. -/
theorem parse_render_entries (table : KeyTable) :
    (∃ read, parse (render table) = .ok read ∧
      read.toList = (table.toList.filter (·.1 ≠ "")).map fun entry => (entry.1, entry.2.readBack)) ∧
    (∀ before entry after, table.toList = before ++ entry :: after →
      Text.split '\n' (render table).toList = headerLines ++ before.flatMap entryLines ++
        (entryLines entry ++ after.flatMap entryLines ++ [[]]) ∧
      ∃ reading : Reading,
        (Reading.mk [] none).run 1 (headerLines ++ before.flatMap entryLines) = .ok reading ∧
        reading.close.reverse =
          (before.filter (·.1 ≠ "")).map (fun entry => (entry.1, entry.2.readBack)) ∧
        ∀ number, reading.run number (entryLines entry) =
          .ok ⟨reading.close, some ⟨entry.1.toList, some (entry.2.getD "").toList, .value⟩⟩) ∧
    ∀ text, parse text = .ok table →
      ∃ read, parse (render table) = .ok read ∧ read.toList = table.toList := by
  obtain ⟨read, parsed, entries⟩ := parse_render table
  refine ⟨⟨read, parsed, entries⟩, ?_, ?_⟩
  · intro before entry after shape
    obtain ⟨reading, front, closed⟩ := Reading.run_front before []
    rw [List.append_nil] at front
    refine ⟨?_, reading, front, closed, fun number => ?_⟩
    · rw [split_render, shape]
      simp only [List.flatMap_append, List.flatMap_cons, List.append_assoc]
    · have own := Reading.run_entryLines reading number entry []
      rw [List.append_nil] at own
      exact own
  · intro text source
    exact ⟨read, parsed, entries.trans (toList_render_of_parse source)⟩

/-- Keys and wordings that look like lines of a template. -/
def lookalikes : KeyTable :=
  .ofList [("", some "Content-Type: none\n"), ("a\"\nmsgstr \"b\\", some "\"\r\nmsgid \"c\""),
    ("#\t ", some ""), ("é", none)]

theorem toList_lookalikes :
    lookalikes.toList = [("", some "Content-Type: none\n"),
      ("a\"\nmsgstr \"b\\", some "\"\r\nmsgid \"c\""), ("#\t ", some ""), ("é", none)] :=
  KeyTable.toList_ofList (by decide)

theorem parse_render_entries_lookalikes :
    ∃ read, parse (render lookalikes) = .ok read ∧
      read.toList = [("a\"\nmsgstr \"b\\", some "\"\r\nmsgid \"c\""), ("#\t ", none), ("é", none)] ∧
      (∃ again, parse (render read) = .ok again ∧ again.toList = read.toList) ∧
      ∃ reading : Reading, ∀ number, reading.run number (entryLines ("#\t ", some "")) =
        .ok ⟨reading.close, some ⟨['#', '\t', ' '], some [], .value⟩⟩ := by
  obtain ⟨⟨read, parsed, entries⟩, lines, -⟩ := parse_render_entries lookalikes
  obtain ⟨-, -, stays⟩ := parse_render_entries read
  obtain ⟨-, reading, -, -, opens⟩ := lines [_, _] ("#\t ", some "") [_] toList_lookalikes
  refine ⟨read, parsed, ?_, stays _ parsed, reading, opens⟩
  rw [entries, toList_lookalikes]
  decide

end Gettext

namespace Format

/-- **A flat object says what its table holds.**  It reads back with all entries in their order, and with
no wording where the wording is empty. A table that comes from a text, however nested, comes back from
its own as it is, and is written in the same way again. -/
theorem parse_render_json {indentation : String} (blank : ∀ c ∈ indentation.toList, Json.isSpace c)
    (table : KeyTable) :
    ∃ text, json.render indentation table = .ok text ∧
      (∃ read, json.parse text = .ok read ∧
        read.toList = table.toList.map fun entry => (entry.1, entry.2.readBack)) ∧
      ∀ source, json.parse source = .ok table →
        ∃ read, json.parse text = .ok read ∧ read.toList = table.toList ∧
          json.render indentation read = .ok text := by
  have plain : json.IsPlain indentation := Or.inr ⟨rfl, blank⟩
  obtain ⟨read, parsed, entries⟩ := table.ofJsonText_toFlatJson blank
  refine ⟨_, rfl, ⟨read, parsed, entries⟩, ?_⟩
  intro source parsedSource
  obtain ⟨text, read, rendered, parsed, entries⟩ := parse_render plain table
  cases rendered
  have same : read.toList = table.toList := entries.trans (readBack_parse parsedSource)
  exact ⟨read, parsed, same, render_congr json indentation same⟩

/-- Two ways to the key `a.b`, a name that is empty, and one that holds a control character. -/
def colliding : List (String × Json) :=
  [("a", .object [("b", .string "x"), ("", .null)]), ("", .string ""), ("a.b", .string "\x01\"")]

theorem parse_colliding : json.parse ((Json.object colliding).toPrettyString "\n" ++ "\n") =
    .ok (.ofList [("a.b", some "x"), ("a.", none), ("", none), ("a.b", some "\x01\"")]) := by
  have textual : Json.Textual Json.maxDepth (.object colliding) := by
    refine .object (by decide) ?_
    simp only [colliding, List.forall_mem_cons]
    refine ⟨.object (by decide) ?_, .string _ _, .string _ _, by simp⟩
    simp only [List.forall_mem_cons]
    exact ⟨.string _ _, .null _, by simp⟩
  have blank : ∀ c ∈ "\n".toList, Json.isSpace c := List.all_eq_true.1 rfl
  have leaves : Json.leavesOfFields "" colliding =
      .ok [("a.b", some "x"), ("a.", none), ("", none), ("a.b", some "\x01\"")] := by
    simp [colliding, Json.leavesOfFields, Json.leaves, joinKey, bind, Except.bind, pure, Except.pure]
  rw [Format.parse, KeyTable.ofJsonText_object textual blank, leaves]
  rfl

/-- Of two wordings the later one stands in the place of the first, and no more than that is lost. -/
theorem parse_render_json_colliding :
    (∀ c ∈ " \t".toList, Json.isSpace c) ∧
    ∃ source table, json.parse source = .ok table ∧
      table.toList = [("a.b", some "\x01\""), ("a.", none), ("", none)] ∧
      ∃ text, json.render " \t" table = .ok text ∧
        ∃ read, json.parse text = .ok read ∧ read.toList = table.toList ∧
          json.render " \t" read = .ok text := by
  have blank : ∀ c ∈ " \t".toList, Json.isSpace c := List.all_eq_true.1 rfl
  obtain ⟨text, rendered, -, stays⟩ := parse_render_json blank
    (.ofList [("a.b", some "x"), ("a.", none), ("", none), ("a.b", some "\x01\"")])
  refine ⟨blank, _, _, parse_colliding, ?_, text, rendered, stays _ parse_colliding⟩
  rw [KeyTable.toList_ofList_eq]
  decide

end Format

end MessageKeys
