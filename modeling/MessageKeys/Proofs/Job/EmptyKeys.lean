import Mathlib.Data.List.Nodup
import MessageKeys.Proofs.EmptyKeys
import MessageKeys.Proofs.Format.Entries
import MessageKeys.Proofs.Job.FinalTable
import MessageKeys.Proofs.Job.Isolation
/-!
# Proofs.Job.EmptyKeys — an empty key looks like the header

In a Gettext template the entry with an empty key is the header. The writer gives every key an entry, an empty
one as well, and the reader passes over both (`Gettext.emptyEntries_render`, `Gettext.size_of_parse_render`).
So a run that drops what its outputs held leaves templates with one such entry, and reports as many keys as
can be read back, unless a file that it looked through hands on an empty key; then there is one more of both
(`Job.empty_key_of_calls`).
-/
namespace MessageKeys

namespace Gettext

/-! ## Entries with an empty key -/

/-- The entry that a block of lines holds has an empty key. -/
def hasEmptyKey (block : List (List Char)) : Bool :=
  match (Reading.mk [] none).run 1 block with
  | .ok reading => reading.current.any (·.key.isEmpty)
  | .error _ => false

/-- The number of entries of a template that have an empty key, the header among them. -/
def emptyEntries (text : String) : Nat :=
  (blocks (Text.split '\n' text.toList)).2.countP hasEmptyKey

/-- The lines of an entry from the one that opens it, and the blank one before the next entry. -/
def entryBlock (entry : String × Wording) : List (List Char) :=
  [fieldLine "msgid " entry.1.toList, fieldLine "msgstr " (entry.2.getD "").toList, []]

theorem opens_msgid (text : List Char) : opens (fieldLine "msgid " text) = true := by
  rw [opens, Reading.trimChars_fieldLine "msgid " rfl rfl, fieldLine, List.append_assoc,
    Reading.after?_append]
  rfl

theorem opens_msgstr (text : List Char) : opens (fieldLine "msgstr " text) = false := by
  rw [opens, Reading.trimChars_fieldLine "msgstr " rfl rfl]
  simp [Reading.after?, fieldLine]

theorem blocks_entries (entries : List (String × Wording)) :
    blocks (entries.flatMap entryLines ++ [[]]) = ([[]], entries.map entryBlock) := by
  induction entries with
  | nil => rfl
  | cons entry entries ih =>
      have blank : opens [] = false := rfl
      rw [List.flatMap_cons, List.append_assoc, entryLines]
      simp [blocks, blank, opens_msgid, opens_msgstr, ih, entryBlock]

theorem blocks_headerLines (lines : List (List Char)) :
    blocks (headerLines ++ lines) = ([], (headerLines ++ (blocks lines).1) :: (blocks lines).2) := by
  have first : opens "msgid \"\"".toList = true := rfl
  have second : opens "msgstr \"\"".toList = false := rfl
  have third : opens "\"Content-Type: text/plain; charset=utf-8\\n\"".toList = false := rfl
  have fourth : opens "\"Content-Transfer-Encoding: 8bit\\n\"".toList = false := rfl
  simp only [headerLines, List.cons_append, List.nil_append, blocks, first, second, third, fourth,
    Bool.false_eq_true, if_true, if_false]

theorem hasEmptyKey_entryBlock (entry : String × Wording) :
    hasEmptyKey (entryBlock entry) = (entry.1 == "") := by
  have blank (reading : Reading) : reading.step (Text.trimChars []) = .ok reading := rfl
  have msgid := Reading.trimChars_fieldLine "msgid " rfl rfl entry.1.toList
  have msgstr := Reading.trimChars_fieldLine "msgstr " rfl rfl (entry.2.getD "").toList
  simp only [hasEmptyKey, entryBlock, Reading.run, msgid, msgstr, Reading.step_key, Reading.step_value, blank]
  rw [Bool.eq_iff_iff]
  simp

/-- The header has an empty key, and so has the entry of the empty key. -/
theorem emptyEntries_render (table : KeyTable) : emptyEntries (render table) = 1 + table.keys.count "" := by
  have header : hasEmptyKey (headerLines ++ [[]]) = true := rfl
  rw [emptyEntries, split_render, List.append_assoc, blocks_headerLines, blocks_entries,
    List.countP_cons_of_pos header, List.countP_map, KeyTable.keys, List.count, List.countP_map, Nat.add_comm]
  exact congrArg (1 + ·) (List.countP_congr fun entry _ => by simp [hasEmptyKey_entryBlock])

/-- The empty key is the only one that cannot be read back. -/
theorem size_of_parse_render {table read : KeyTable} (parsed : parse (render table) = .ok read) :
    table.size = read.size + table.keys.count "" := by
  obtain ⟨read', parsed', entries⟩ := parse_render table
  cases parsed.symm.trans parsed'
  have kept : read.size = table.keys.countP (· ≠ "") := by
    rw [KeyTable.size, ← Array.length_toList, ← KeyTable.toList, entries, Reading.pairs, List.length_map,
      ← List.countP_eq_length_filter, KeyTable.keys, List.countP_map]
    rfl
  have all : table.size = table.keys.length := by
    rw [KeyTable.keys, List.length_map, KeyTable.toList, Array.length_toList, KeyTable.size]
  rw [all, kept, List.length_eq_countP_add_countP (· ≠ ""), List.count]
  exact congrArg (_ + ·) (List.countP_congr fun key _ => by simp)

end Gettext

namespace Job
open Files (PathName Disk)

/-! ## Runs -/

variable {job : Job} {disk after : Disk} {findings : Findings}

/-- A file that was looked through has a call that hands on an empty key. -/
def FindsEmpty (job : Job) (disk : Disk) (findings : Findings) : Prop :=
  ∃ file ∈ findings.files, ∃ text source, disk.read? file.1 = some text ∧
    Source.read file.1.text text = .ok source ∧ ∃ strategy ∈ job.strategies, strategy.HandsEmpty source

theorem extractFile_eq_ok_iff {path : PathName} {table : KeyTable} :
    job.extractFile disk path = .ok table ↔
      ∃ text, disk.read? path = some text ∧ extract job.strategies path.text text = .ok table := by
  unfold extractFile
  cases disk.read? path with
  | none => simp
  | some text => cases found : extract job.strategies path.text text <;> simp [found]

theorem empty_mem_extractFile_iff {path : PathName} {table : KeyTable}
    (read : job.extractFile disk path = .ok table) :
    "" ∈ table.keys ↔ ∃ text source, disk.read? path = some text ∧
      Source.read path.text text = .ok source ∧ ∃ strategy ∈ job.strategies, strategy.HandsEmpty source := by
  obtain ⟨text, there, found⟩ := extractFile_eq_ok_iff.1 read
  rw [empty_mem_extract_iff found]
  constructor
  · rintro ⟨source, parsed, hands⟩
    exact ⟨text, source, there, parsed, hands⟩
  · rintro ⟨other, source, again, parsed, hands⟩
    cases there.symm.trans again
    exact ⟨source, parsed, hands⟩

theorem empty_mem_findings_iff (gathered : job.gather disk = .ok findings) :
    "" ∈ findings.table.keys ↔ job.FindsEmpty disk findings := by
  obtain ⟨resolution, -, -, -, all⟩ := gather_eq_ok_iff.1 gathered
  rw [Findings.table, KeyTable.keys_foldl_merge, KeyTable.keys_empty, List.nil_append, List.mem_eraseDups,
    List.mem_flatMap]
  simp only [List.mem_map, exists_exists_and_eq_and]
  refine exists_congr fun file => and_congr_right fun listed => empty_mem_extractFile_iff ?_
  obtain ⟨path, -, read⟩ := exists_of_mem_mapM all listed
  obtain ⟨table, found, rfl⟩ := map_eq_ok_iff.1 read
  exact found

/-- Where nothing is merged, processors change the order of what was found and nothing else. -/
theorem keys_finalTable_of_replaced (processors : List PostProcessor) (extracted : KeyTable) :
    (finalTable processors extracted ∅).keys.Perm extracted.keys := by
  have all : PostProcessor.keptByAll extracted processors extracted.keys = extracted.keys := by
    unfold PostProcessor.keptByAll
    split
    · exact List.filter_eq_self.2 fun key member => by simpa using member
    · rfl
  rw [keys_finalTable_eq, KeyTable.merge_empty]
  exact all ▸ (PostProcessor.keys_apply extracted ∅ processors extracted).1

/-- What is written where nothing is merged. -/
theorem prepare_of_replaced (replacing : job.replace = true) (template : job.format = .pot)
    {extracted : KeyTable} {output : PathName} {file : Prepared}
    (made : job.prepare disk extracted output = .ok file) :
    file.text = Gettext.render (finalTable job.postProcessors extracted ∅) ∧
      file.keys = (finalTable job.postProcessors extracted ∅).size := by
  obtain ⟨table, held, shown, -, keys⟩ := (prepare_eq_ok_iff job disk).1 made
  obtain rfl : table = ∅ := by
    rw [existing, replacing] at held
    exact (Except.ok.inj held).symm
  rw [template] at shown
  exact ⟨(Except.ok.inj shown).symm, keys⟩

/-- A template with one entry that has an empty key, the header, from which as many keys can be read back as
are reported; or, if an empty key was found, one more of both. -/
def Shows (finds : Prop) (text : String) (keys : Nat) : Prop :=
  ∃ read, Gettext.parse text = .ok read ∧
    (¬ finds → Gettext.emptyEntries text = 1 ∧ keys = read.size) ∧
    (finds → Gettext.emptyEntries text = 2 ∧ keys = read.size + 1)

theorem shows_render (gathered : job.gather disk = .ok findings) (processors : List PostProcessor) :
    Shows (job.FindsEmpty disk findings) (Gettext.render (finalTable processors findings.table ∅))
      (finalTable processors findings.table ∅).size := by
  obtain ⟨read, parsed, -⟩ := Gettext.parse_render (finalTable processors findings.table ∅)
  have entries := Gettext.emptyEntries_render (finalTable processors findings.table ∅)
  have size := Gettext.size_of_parse_render parsed
  rw [(keys_finalTable_of_replaced processors findings.table).count_eq,
    findings.table.nodup_keys.count] at entries size
  rw [← empty_mem_findings_iff gathered]
  exact ⟨read, parsed, fun finds => by simp_all, fun finds => by simp_all⟩

theorem summary_of_execute {prepared : List Prepared} {summary : Summary}
    (planned : job.plan disk = .ok (findings, prepared)) (ran : job.execute disk = (after, .ok summary)) :
    summary = summarize findings prepared := by
  have written := execute_of_writeAll job disk planned (writeAll_of_execute job disk planned ran)
  exact Except.ok.inj (congrArg Prod.snd (ran.symm.trans written))

/-- **An empty key comes from a call and looks like the header.**  A file gives an empty key if and only if it
is a program with a call of the service or of the marker function whose first argument can come out empty.
If no file that is looked through has such a call, every template that a run writes without merging has
the header as its only entry with an empty key, and as many keys are reported for it as can be read back from
it; otherwise there is one more of both. -/
theorem empty_key_of_calls (job : Job) (disk : Disk) :
    (∀ path text table, extract job.strategies path text = .ok table →
      ("" ∈ table.keys ↔ ∃ source, Source.read path text = .ok source ∧
        ∃ strategy ∈ job.strategies, strategy.HandsEmpty source)) ∧
    (job.replace = true → job.format = .pot → ∀ findings prepared,
      job.plan disk = .ok (findings, prepared) →
        ∀ file ∈ prepared, Shows (job.FindsEmpty disk findings) file.text file.keys) ∧
    (job.replace = true → job.format = .pot → ∀ after summary,
      job.execute disk = (after, .ok summary) → ∃ findings, job.gather disk = .ok findings ∧
        ∀ output ∈ summary.outputs, ∃ text, after.read? output.path = some text ∧
          Shows (job.FindsEmpty disk findings) text output.keys) := by
  have made (replacing : job.replace = true) (template : job.format = .pot) {findings : Findings}
      {prepared : List Prepared} (planned : job.plan disk = .ok (findings, prepared)) :
      job.gather disk = .ok findings ∧ ∀ file ∈ prepared,
        file.text = Gettext.render (finalTable job.postProcessors findings.table ∅) ∧
          file.keys = (finalTable job.postProcessors findings.table ∅).size := by
    obtain ⟨-, gathered, ready⟩ := (plan_eq_ok_iff job disk).1 planned
    refine ⟨gathered, fun file member => ?_⟩
    obtain ⟨output, -, prepared_⟩ := exists_of_mem_mapM ready member
    exact prepare_of_replaced replacing template prepared_
  refine ⟨fun path text table => empty_mem_extract_iff,
    fun replacing template findings prepared planned => ?_, fun replacing template after summary ran => ?_⟩
  · obtain ⟨gathered, each⟩ := made replacing template planned
    intro file member
    rw [(each file member).1, (each file member).2]
    exact shows_render gathered job.postProcessors
  · obtain ⟨findings, prepared, planned, written⟩ := written_of_execute job disk ran
    obtain ⟨gathered, each⟩ := made replacing template planned
    refine ⟨findings, gathered, ?_⟩
    rw [summary_of_execute planned ran]
    simp only [summarize, List.forall_mem_map]
    intro file member
    -- All outputs get the same text, so it makes no difference if some are one file.
    refine ⟨file.text, written.read? member fun other listed _ => ?_, ?_⟩
    · rw [(each other listed).1, (each file member).1]
    · rw [(each file member).1, (each file member).2]
      exact shows_render gathered job.postProcessors

/-- A job that looks through two pages and writes a template without merging. -/
def replacing : Job :=
  { reading with
    outputs := [⟨"out.pot"⟩], replace := true, format := .pot, strategies := [.directive, .marker "marker"] }

/-- What is found in a page. -/
def pageTable (text : String) : KeyTable :=
  (Source.template (Template.Document.ofString text)).keyTable replacing.strategies

theorem gather_replacing : ∃ findings, replacing.gather folder = .ok findings ∧
    findings.table.keys = ["B", "A"] := by
  have each : ∀ page ∈ pages, replacing.extractFile folder ⟨page.1⟩ = .ok (pageTable page.2) := by
    intro page member
    have there : folder.read? ⟨page.1⟩ = some page.2 := by
      revert page
      decide
    exact extractFile_eq_ok_iff.2 ⟨page.2, there, by rw [extract, read_pages page member]; rfl⟩
  have resolved : folder.resolve replacing.inputs replacing.patterns =
      .ok ⟨pages.map fun page => ⟨page.1⟩, 0, []⟩ := by decide +kernel
  refine ⟨⟨pages.map fun page => (⟨page.1⟩, pageTable page.2), [], 0⟩,
    gather_eq_ok_iff.2 ⟨_, resolved, rfl, rfl, ?_⟩, ?_⟩
  · rw [List.mapM_map]
    have paired : ∀ page ∈ pages, (replacing.extractFile folder ⟨page.1⟩).map (PathName.mk page.1, ·) =
        .ok (⟨page.1⟩, pageTable page.2) := by
      intro page member
      rw [each page member]
      rfl
    have all := mapM_of_forall paired
    exact all
  · simp only [Findings.table, KeyTable.keys_foldl_merge, List.flatMap_map, List.map_map, Function.comp_def,
      pageTable, Source.keys_keyTable]
    decide +kernel

theorem execute_replacing {findings : Findings} (gathered : replacing.gather folder = .ok findings) :
    ∃ after summary, replacing.execute folder = (after, .ok summary) ∧
      summary.outputs = [⟨⟨"out.pot"⟩, (finalTable [] findings.table ∅).size⟩] := by
  let file : Prepared := ⟨⟨"out.pot"⟩, Gettext.render (finalTable [] findings.table ∅),
    (finalTable [] findings.table ∅).size⟩
  have made : replacing.prepare folder findings.table ⟨"out.pot"⟩ = .ok file :=
    (prepare_eq_ok_iff _ _).2 ⟨∅, rfl, rfl, rfl, rfl⟩
  have planned : replacing.plan folder = .ok (findings, [file]) :=
    (plan_eq_ok_iff _ _).2 ⟨rfl, gathered, mapM_eq_ok_iff.2 (congrArg (· :: []) made)⟩
  have atTop : (PathName.mk "out.pot").parent?.filter (!·.text.isEmpty) = none := by decide
  obtain ⟨after, wrote⟩ : ∃ after, write folder file = (after, none) := by
    unfold write
    simp only [file, atTop]
    exact ⟨_, rfl⟩
  exact ⟨after, _, execute_of_writeAll _ _ planned (writeAll_of_written [] wrote), rfl⟩

theorem empty_key_of_calls_pages :
    replacing.replace = true ∧ replacing.format = .pot ∧
    ∃ after summary, replacing.execute folder = (after, .ok summary) ∧
      ∃ output ∈ summary.outputs, ∃ text read, after.read? output.path = some text ∧
        Gettext.parse text = .ok read ∧ Gettext.emptyEntries text = 1 ∧ output.keys = read.size := by
  obtain ⟨findings, gathered, keys⟩ := gather_replacing
  have none_ : ¬ replacing.FindsEmpty folder findings := by
    rw [← empty_mem_findings_iff gathered, keys]
    decide
  obtain ⟨after, summary, ran, outputs⟩ := execute_replacing gathered
  obtain ⟨findings', gathered', each⟩ := (empty_key_of_calls replacing folder).2.2 rfl rfl _ _ ran
  cases gathered.symm.trans gathered'
  have listed : ⟨⟨"out.pot"⟩, (finalTable [] findings.table ∅).size⟩ ∈ summary.outputs := by
    rw [outputs]
    exact List.mem_cons_self
  obtain ⟨text, there, read, parsed, shows, -⟩ := each _ listed
  exact ⟨rfl, rfl, after, summary, ran, _, listed, text, read, there, parsed, shows none_⟩

/-- The program `marker('')`. -/
def emptyCall : Script.Module := ⟨[], [.call (.identifier "marker") [.str (some "")] []]⟩

/-- Its call gives an empty key, and a second entry that looks like the header. -/
theorem empty_key_of_emptyCall :
    "" ∈ ((Source.program emptyCall []).keyTable [.marker "marker"]).keys ∧
    Gettext.emptyEntries (Gettext.render
      (finalTable [] ((Source.program emptyCall []).keyTable [.marker "marker"]) ∅)) = 2 := by
  have keys : ((Source.program emptyCall []).keyTable [.marker "marker"]).keys = [""] := by
    rw [Source.keys_keyTable]
    decide
  refine ⟨keys ▸ List.mem_singleton_self "", ?_⟩
  rw [Gettext.emptyEntries_render, (keys_finalTable_of_replaced [] _).count_eq, keys]
  rfl

end Job

end MessageKeys
