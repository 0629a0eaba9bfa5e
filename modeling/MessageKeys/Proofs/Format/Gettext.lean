import MessageKeys.Format.Gettext
import MessageKeys.Proofs.Format.ReadBack
import MessageKeys.Proofs.KeyTable.Entries
import MessageKeys.Proofs.Results
import MessageKeys.Proofs.Text.Pieces
/-!
# Proofs.Format.Gettext — a rendered template reads back

A rendered template is a list of lines, none of which holds a line end: those of the header, and for
every entry a blank one, one for its key and one for its wording (`split_render`). Each of these lines
does one thing to a `Reading`, so an entry as a whole closes what was read before and leaves itself open
(`run_entryLines`), and the entries of a table come out in their order. What has an empty key looks like
the header and is passed over.

Whoever wrote a template, a line either opens an entry, and ends the one before, or belongs to the entry
that is being read (`step_of_opens`, `step_of_not_opens`).
-/
namespace MessageKeys.Gettext

/-! ## Escaping -/

/-- A character as it stands between quotes: never a line end. -/
theorem escapeChar_cases (c : Char) :
    (∃ d, escapeChar c = ['\\', d] ∧ escaped d = c ∧ d ≠ '\n') ∨
      (escapeChar c = [c] ∧ c ≠ '\\' ∧ c ≠ '\n') := by
  unfold escapeChar
  split
  · exact Or.inl ⟨'\\', rfl, rfl, by decide⟩
  · exact Or.inl ⟨'"', rfl, rfl, by decide⟩
  · exact Or.inl ⟨'n', rfl, rfl, by decide⟩
  · exact Or.inl ⟨'r', rfl, rfl, by decide⟩
  · exact Or.inl ⟨'t', rfl, rfl, by decide⟩
  · exact Or.inr ⟨rfl, by assumption, by assumption⟩

theorem unescape?_escape (text : List Char) : unescape? (escape text) = some text := by
  induction text with
  | nil => rfl
  | cons c rest ih =>
      rw [escape, List.flatMap_cons, ← escape]
      rcases escapeChar_cases c with ⟨d, shown, meant, -⟩ | ⟨shown, plain, -⟩
      · rw [shown, List.cons_append, List.cons_append, List.nil_append, unescape?, ih, meant]
        rfl
      · rw [shown, List.singleton_append, unescape?, ih]
        · rfl
        · exact fun same => absurd same plain
        · exact fun _ _ same => absurd same plain

theorem newline_notMem_escape (text : List Char) : '\n' ∉ escape text := by
  intro member
  obtain ⟨c, -, within⟩ := List.mem_flatMap.1 member
  rcases escapeChar_cases c with ⟨d, shown, -, other⟩ | ⟨shown, -, other⟩ <;>
    simp [shown, Ne.symm other] at within

/-- A text between quotes. -/
def quoted (written : List Char) : List Char := '"' :: written ++ ['"']

theorem unquote_quoted {written text : List Char} (means : unescape? written = some text) :
    unquote (quoted written) = .ok text := by
  have visible : Text.isBlank '"' = false := rfl
  have trimmed := Text.trimChars_of_ends written visible visible
  have ends : (written ++ ['"']).getLast? = some '"' := by simp
  unfold unquote quoted
  rw [trimmed]
  simp only [List.cons_append, ends, List.dropLast_concat, means]
  rfl

/-! ## The lines of a template -/

/-- The line of a field. -/
def fieldLine (keyword : String) (text : List Char) : List Char :=
  keyword.toList ++ '"' :: escape text ++ ['"']

theorem fieldLine_eq (keyword : String) (text : List Char) :
    fieldLine keyword text = keyword.toList ++ quoted (escape text) :=
  List.append_assoc ..

/-- The lines of an entry. -/
def entryLines (entry : String × Wording) : List (List Char) :=
  [[], fieldLine "msgid " entry.1.toList, fieldLine "msgstr " (entry.2.getD "").toList]

/-- The lines of the header. -/
def headerLines : List (List Char) :=
  ["msgid \"\"".toList, "msgstr \"\"".toList, "\"Content-Type: text/plain; charset=utf-8\\n\"".toList,
    "\"Content-Transfer-Encoding: 8bit\\n\"".toList]

theorem newline_notMem_fieldLine {keyword : String} (clear : '\n' ∉ keyword.toList)
    (text : List Char) : '\n' ∉ fieldLine keyword text := by
  simp [fieldLine, clear, newline_notMem_escape]

theorem newline_notMem_entryLines (entry : String × Wording) :
    ∀ line ∈ entryLines entry, '\n' ∉ line := by
  simp only [entryLines, List.forall_mem_cons]
  exact ⟨by simp, newline_notMem_fieldLine (by decide) _, newline_notMem_fieldLine (by decide) _,
    by simp⟩

theorem entryText_eq (entry : String × Wording) :
    entryText entry.1 entry.2 = (entryLines entry).flatMap (· ++ ['\n']) := by
  have beforeKey : "\nmsgid \"".toList = '\n' :: "msgid ".toList ++ ['"'] := rfl
  have beforeValue : "\"\nmsgstr \"".toList = '"' :: '\n' :: "msgstr ".toList ++ ['"'] := rfl
  have atEnd : "\"\n".toList = ['"', '\n'] := rfl
  unfold entryText entryLines fieldLine
  rw [beforeKey, beforeValue, atEnd]
  simp only [List.flatMap_cons, List.flatMap_nil]
  simp only [List.append_assoc, List.cons_append, List.nil_append, List.append_nil]

theorem header_eq : header.toList = headerLines.flatMap (· ++ ['\n']) := by decide +kernel

theorem split_render (table : KeyTable) :
    Text.split '\n' (render table).toList =
      headerLines ++ table.toList.flatMap entryLines ++ [[]] := by
  have lines : (render table).toList =
      (headerLines ++ table.toList.flatMap entryLines).flatMap (· ++ ['\n']) := by
    rw [render, String.toList_ofList, List.flatMap_append, List.flatMap_assoc, header_eq]
    exact congrArg _ (List.flatMap_congr fun entry _ => entryText_eq entry)
  rw [lines, Text.split_flatMap_mark]
  intro line member
  rcases List.mem_append.1 member with inHeader | inEntries
  · have clear : ∀ line ∈ headerLines, '\n' ∉ line := by decide
    exact clear line inHeader
  · obtain ⟨entry, -, within⟩ := List.mem_flatMap.1 inEntries
    exact newline_notMem_entryLines entry line within

/-! ## Reading them -/

namespace Reading

theorem after?_append (keyword : String) (rest : List Char) :
    after? keyword (keyword.toList ++ rest) = some rest := by
  rw [after?, if_pos (List.isPrefixOf_iff_prefix.2 (List.prefix_append _ _)), List.drop_left]

theorem step_key_quoted (reading : Reading) {written text : List Char} (means : unescape? written = some text) :
    reading.step ("msgid ".toList ++ quoted written) = .ok ⟨reading.close, some ⟨text, none, .key⟩⟩ := by
  rw [step, if_neg (by simp), after?_append]
  simp only [unquote_quoted means]
  rfl

theorem step_value_quoted (done : List (String × Wording)) (entry : Entry) {written text : List Char}
    (means : unescape? written = some text) :
    (Reading.mk done (some entry)).step ("msgstr ".toList ++ quoted written) =
      .ok ⟨done, some { entry with value := some text, field := .value }⟩ := by
  have other : after? "msgid " ("msgstr ".toList ++ quoted written) = none := by simp [after?]
  rw [step, if_neg (by simp), other, after?_append]
  simp only [unquote_quoted means]
  rfl

theorem step_key (reading : Reading) (text : List Char) :
    reading.step (fieldLine "msgid " text) = .ok ⟨reading.close, some ⟨text, none, .key⟩⟩ := by
  rw [fieldLine_eq, step_key_quoted reading (unescape?_escape text)]

theorem step_value (done : List (String × Wording)) (entry : Entry) (text : List Char) :
    (Reading.mk done (some entry)).step (fieldLine "msgstr " text) =
      .ok ⟨done, some { entry with value := some text, field := .value }⟩ := by
  rw [fieldLine_eq, step_value_quoted done entry (unescape?_escape text)]

section Inversion

variable {reading next : Reading} {line : List Char}

/-- No comment opens an entry. -/
theorem shown_of_after? {rest : List Char} (found : after? "msgid " line = some rest) :
    (line.isEmpty || line.head? == some '#') = false := by
  cases line with
  | nil => cases found
  | cons c line =>
      have first : c = 'm' := by
        unfold after? at found
        split at found
        · rename_i starts
          simp only [List.isPrefixOf_iff_prefix] at starts
          exact (List.cons_prefix_cons.1 starts).1.symm
        · cases found
      subst first
      rfl

/-- A line that opens an entry ends the one before, whatever that is. -/
theorem step_of_opens (opening : (after? "msgid " line).isSome) (step : reading.step line = .ok next) :
    ∃ entry, ∀ other : Reading, other.step line = .ok ⟨other.close, some entry⟩ := by
  obtain ⟨rest, found⟩ := Option.isSome_iff_exists.1 opening
  have shown := shown_of_after? found
  unfold Reading.step at step ⊢
  simp only [found, shown, Bool.false_eq_true, if_false] at step ⊢
  obtain ⟨key, read, -⟩ := map_eq_ok_iff.1 step
  exact ⟨_, fun other => map_eq_ok_iff.2 ⟨key, read, rfl⟩⟩

/-- Any other line belongs to the entry that is being read, whatever was read before. -/
theorem step_of_not_opens (other : after? "msgid " line = none) (step : reading.step line = .ok next)
    (done : List (String × Wording)) :
    (Reading.mk done reading.current).step line = .ok ⟨done, next.current⟩ := by
  obtain ⟨before, current⟩ := reading
  unfold Reading.step at step ⊢
  simp only [other] at step ⊢
  -- The kinds of lines, in the order in which they are tried.
  by_cases passed : line.isEmpty || line.head? == some '#'
  · rw [if_pos passed] at step ⊢
    cases step
    rfl
  rw [if_neg passed] at step ⊢
  cases value : after? "msgstr " line with
  | some rest =>
      simp only [value] at step ⊢
      cases current with
      | none => cases step
      | some entry =>
          obtain ⟨text, read, rfl⟩ := map_eq_ok_iff.1 step
          exact map_eq_ok_iff.2 ⟨text, read, rfl⟩
  | none =>
      simp only [value] at step ⊢
      by_cases ignored : isIgnored line
      · rw [if_pos ignored] at step ⊢
        cases step
        rfl
      rw [if_neg ignored] at step ⊢
      by_cases quoted : line.head? == some '"'
      · rw [if_pos quoted] at step ⊢
        obtain ⟨text, read, rfl⟩ := map_eq_ok_iff.1 step
        exact map_eq_ok_iff.2 ⟨text, read, rfl⟩
      · rw [if_neg quoted] at step
        cases step

theorem done_of_not_opens (other : after? "msgid " line = none) (step : reading.step line = .ok next) :
    next.done = reading.done := by
  have moved : next = ⟨reading.done, next.current⟩ :=
    Except.ok.inj (step.symm.trans (step_of_not_opens other step reading.done))
  rw [moved]

/-- A line leaves the entries that were read alone, or closes one more. -/
theorem done_step (step : reading.step line = .ok next) :
    next.done = reading.done ∨ next.done = reading.close := by
  cases opening : after? "msgid " line with
  | some rest =>
      obtain ⟨entry, opened⟩ := step_of_opens (by rw [opening]; rfl) step
      cases step.symm.trans (opened reading)
      exact Or.inr rfl
  | none => exact Or.inl (done_of_not_opens opening step)

end Inversion

theorem trimChars_quoted {lead : List Char} {first : Char} {others : List Char} (starts : lead = first :: others)
    (visible : Text.isBlank first = false) (written : List Char) :
    Text.trimChars (lead ++ quoted written) = lead ++ quoted written := by
  have shape : lead ++ quoted written = first :: (others ++ '"' :: written) ++ ['"'] := by simp [quoted, starts]
  rw [shape, Text.trimChars_of_ends _ visible rfl]

theorem trimChars_fieldLine (keyword : String) {first : Char} {others : List Char}
    (starts : keyword.toList = first :: others) (visible : Text.isBlank first = false)
    (text : List Char) : Text.trimChars (fieldLine keyword text) = fieldLine keyword text := by
  rw [fieldLine_eq, trimChars_quoted starts visible]

/-- An entry that has been read and is still open. -/
def opened (entry : String × Wording) : Entry :=
  ⟨entry.1.toList, some (entry.2.getD "").toList, .value⟩

theorem run_entryLines (reading : Reading) (number : Nat) (entry : String × Wording)
    (lines : List (List Char)) :
    reading.run number (entryLines entry ++ lines) =
      (Reading.mk reading.close (some (opened entry))).run (number + 3) lines := by
  have blank : reading.step (Text.trimChars []) = .ok reading := rfl
  simp only [entryLines, List.cons_append, List.nil_append, run, blank,
    trimChars_fieldLine "msgid " rfl rfl,
    trimChars_fieldLine "msgstr " rfl rfl, step_key, step_value]
  rfl

theorem toPair?_opened (entry : String × Wording) :
    (opened entry).toPair? =
      if entry.1 = "" then none else some (entry.1, Wording.readBack entry.2) := by
  obtain ⟨key, value⟩ := entry
  have emptyKey : key.toList.isEmpty = decide (key = "") := by
    rw [Bool.eq_iff_iff]
    simp
  have back : ((some (value.getD "").toList).filter (!·.isEmpty)).map String.ofList =
      Wording.readBack value := by
    cases value with
    | none => rfl
    | some text =>
        rw [Wording.readBack_some]
        by_cases blank : text = ""
        · subst blank
          rfl
        · simp [Option.filter_some, blank]
  simp only [opened, Entry.toPair?, back, emptyKey, String.ofList_toList, decide_eq_true_eq]

/-- The entries that come out, in order. -/
def pairs (entries : List (String × Wording)) : List (String × Wording) :=
  (entries.filter (·.1 ≠ "")).map fun entry => (entry.1, Wording.readBack entry.2)

/-- The lines of entries, whatever lines come after them. -/
theorem run_entries (entries : List (String × Wording)) (reading : Reading) (number : Nat)
    (lines : List (List Char)) :
    ∃ last : Reading, reading.run number (entries.flatMap entryLines ++ lines) =
        last.run (number + 3 * entries.length) lines ∧
      last.close.reverse = reading.close.reverse ++ pairs entries := by
  induction entries generalizing reading number with
  | nil => exact ⟨reading, rfl, by simp [pairs]⟩
  | cons entry entries ih =>
      obtain ⟨last, read, closed⟩ :=
        ih (Reading.mk reading.close (some (opened entry))) (number + 3)
      have count : number + 3 + 3 * entries.length = number + 3 * (entry :: entries).length := by
        rw [List.length_cons]
        omega
      refine ⟨last, ?_, ?_⟩
      · rw [List.flatMap_cons, List.append_assoc, run_entryLines, read, count]
      · rw [closed, close, Option.bind_some, toPair?_opened]
        by_cases empty : entry.1 = "" <;> simp [pairs, empty]

theorem run_headerLines (lines : List (List Char)) :
    ∃ reading : Reading, reading.close = [] ∧
      (Reading.mk [] none).run 1 (headerLines ++ lines) = reading.run 5 lines :=
  ⟨_, rfl, rfl⟩

/-- After the header and some entries these entries have been read, and nothing else. -/
theorem run_front (entries : List (String × Wording)) (lines : List (List Char)) :
    ∃ reading : Reading,
      (Reading.mk [] none).run 1 (headerLines ++ entries.flatMap entryLines ++ lines) =
        reading.run (5 + 3 * entries.length) lines ∧
      reading.close.reverse = pairs entries := by
  obtain ⟨first, nothing, header⟩ := run_headerLines (entries.flatMap entryLines ++ lines)
  obtain ⟨reading, read, closed⟩ := run_entries entries first 5 lines
  rw [nothing, List.reverse_nil, List.nil_append] at closed
  exact ⟨reading, by rw [List.append_assoc, header, read], closed⟩

end Reading

/-- **A rendered template reads back.**  Entries keep their order; those with an empty key are gone, and
an empty wording has become none. -/
theorem parse_render (table : KeyTable) :
    ∃ read, parse (render table) = .ok read ∧ read.toList = Reading.pairs table.toList := by
  obtain ⟨last, entries, closed⟩ := Reading.run_front table.toList [[]]
  refine ⟨KeyTable.ofList last.close.reverse, ?_, ?_⟩
  · rw [parse, split_render, entries]
    rfl
  · rw [closed]
    apply KeyTable.toList_ofList
    rw [Reading.pairs, List.map_map]
    exact (List.filter_sublist.map _).nodup table.nodup_keys

end MessageKeys.Gettext
