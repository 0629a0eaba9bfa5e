import MessageKeys.Proofs.Format.Entries
import MessageKeys.Proofs.Job.Extraction
import MessageKeys.Proofs.Job.Idempotence
/-!
# Proofs.Job.LastEntry — the last entry for a key decides about its translation

An output may hold several entries for one key. Merging what is found into it keeps every wording that was
read (`wording_finalTable`), but of several entries only the last one is read. So a translation survives a
run if no other entry for its key comes after it, whatever came before (`translation_of_last`), and is lost
if an empty one does (`translation_lost`).
-/
namespace MessageKeys.Job
open Files (PathName Disk)

theorem get?_finalTable_of_read {settings : Settings} (keeping : settings.clean = false)
    {found existing : KeyTable} (unset : ∀ key, found.wording key = none) {key : String}
    (listed : key ∈ existing.keys) :
    (finalTable settings.postProcessors found existing).get? key =
      some ((existing.wording key).or (settings.defaultWording key)) :=
  get?_finalTable settings existing unset (settings.mem_keptKeys_of_held listed (Or.inl keeping))

/-- **The last entry for a key decides about its translation.**  A run that merges into an output and drops
nothing goes on from what the output holds. Each key that has an entry there is written with the
wording of its last entry, whatever other entries come before it; where that entry is empty, with what
the settings give a key without a wording. -/
theorem translation_of_last {settings : Settings} {disk : Disk} {output : PathName} {text : String}
    {existing found : KeyTable} {strategies : List Strategy} {files : List (String × String)}
    (merging : settings.replace = false) (keeping : settings.clean = false)
    (read : disk.read? (settings.toJob.outputFile disk output) = some text)
    (parsed : settings.format.parse text = .ok existing)
    (extracted : extractAll strategies files = .ok found) :
    settings.toJob.existing disk (settings.toJob.outputFile disk output) = .ok existing ∧
      ∀ before key value after, settings.format.entriesIn text = before ++ (key, value) :: after →
        key ∉ after.map (·.1) → settings.format.Rooted text key →
        (finalTable settings.postProcessors found existing).get? key =
          some (value.or (settings.defaultWording key)) := by
  constructor
  · have sameFormat : settings.toJob.format = settings.format := rfl
    rw [existing_eq_of_read? merging read, sameFormat, parsed]
    rfl
  · intro before key value after shape last rooted
    obtain ⟨listed, wording⟩ := Format.read_of_last parsed rooted shape last
    have unset := wording_extractAll strategies files extracted
    rw [get?_finalTable_of_read keeping unset listed, wording]

/-! ## One key spelled in two ways -/

theorem extractAll_nil (strategies : List Strategy) : extractAll strategies [] = .ok ∅ := rfl

/-- The key `a.b`, nested without a translation and flat with one. -/
def spellings : List (String × Json) := [("a", .object [("b", .string "")]), ("a.b", .string "x")]

theorem textual_spellings : Json.Textual Json.maxDepth (.object spellings) := by
  refine .object (by decide) ?_
  simp only [spellings, List.forall_mem_cons]
  refine ⟨.object (by decide) ?_, .string _ _, by simp⟩
  simp only [List.forall_mem_cons]
  exact ⟨.string _ _, by simp⟩

/-- The flat spelling comes last. -/
def nestedFirst : String :=
  "\x7b\n\t\"a\": \x7b\n\t\t\"b\": \"\"\n\t\x7d,\n\t\"a.b\": \"x\"\n\x7d\n"

theorem parse_nestedFirst :
    Format.json.parse nestedFirst = .ok (.ofList [("a.b", none), ("a.b", some "x")]) ∧
    Format.leavesIn nestedFirst = [(["a", "b"], .string ""), (["a.b"], .string "x")] := by
  refine Format.parse_object textual_spellings Json.isSpace_tab ?_ (by decide)
  simp [spellings, Json.leavesOfFields, Json.leaves, joinKey, bind, Except.bind, pure, Except.pure]

/-- The translation comes last, and survives. -/
theorem translation_of_last_nested :
    unsorted.replace = false ∧ unsorted.clean = false ∧
    (holding nestedFirst).read? (unsorted.toJob.outputFile (holding nestedFirst) ⟨"out.json"⟩) =
      some nestedFirst ∧
    unsorted.format.Rooted nestedFirst "a.b" ∧ extractAll [] [] = .ok ∅ ∧
    unsorted.format.entriesIn nestedFirst = [("a.b", none), ("a.b", some "x")] ∧
    ∃ existing, unsorted.format.parse nestedFirst = .ok existing ∧
      (finalTable unsorted.postProcessors ∅ existing).get? "a.b" = some (some "x") := by
  have merging : unsorted.replace = false := rfl
  have keeping : unsorted.clean = false := rfl
  have format : unsorted.format = .json := rfl
  have read : (holding nestedFirst).read?
      (unsorted.toJob.outputFile (holding nestedFirst) ⟨"out.json"⟩) = some nestedFirst := by
    rw [outputFile_holding, read?_holding]
  obtain ⟨parsed, leaves⟩ := parse_nestedFirst
  have rooted : Format.json.Rooted nestedFirst "a.b" := by
    simp [Format.Rooted, leaves, Json.Rooted]
  have entries : Format.json.entriesIn nestedFirst = [("a.b", none), ("a.b", some "x")] := by
    rw [Format.entriesIn, leaves]
    rfl
  rw [← format] at parsed rooted entries
  obtain ⟨-, counts⟩ := translation_of_last merging keeping read parsed (extractAll_nil [])
  exact ⟨merging, keeping, read, rooted, extractAll_nil [], entries, _, parsed,
    counts [("a.b", none)] "a.b" (some "x") [] entries (by simp) rooted⟩

/-- The nested spelling comes last. -/
def flatFirst : String :=
  "\x7b\n\t\"a.b\": \"x\",\n\t\"a\": \x7b\n\t\t\"b\": \"\"\n\t\x7d\n\x7d\n"

theorem parse_flatFirst :
    Format.json.parse flatFirst = .ok (.ofList [("a.b", some "x"), ("a.b", none)]) ∧
    Format.leavesIn flatFirst = [(["a.b"], .string "x"), (["a", "b"], .string "")] := by
  have backwards := textual_spellings.of_perm (List.reverse_perm spellings)
  refine Format.parse_object backwards Json.isSpace_tab ?_ (by decide)
  simp [spellings, Json.leavesOfFields, Json.leaves, joinKey, bind, Except.bind, pure, Except.pure]

/-- A translation below a name without characters. -/
def unnamed : String := "\x7b\n\t\"\": \x7b\n\t\t\"a\": \"x\"\n\t\x7d\n\x7d\n"

theorem parse_unnamed :
    Format.json.parse unnamed = .ok (.ofList [("a", some "x")]) ∧
    Format.leavesIn unnamed = [(["", "a"], .string "x")] := by
  have textual : Json.Textual Json.maxDepth (.object [("", .object [("a", .string "x")])]) := by
    refine .object (by decide) ?_
    simp only [List.forall_mem_cons]
    refine ⟨.object (by decide) ?_, by simp⟩
    simp only [List.forall_mem_cons]
    exact ⟨.string _ _, by simp⟩
  refine Format.parse_object textual Json.isSpace_tab ?_ (by decide)
  simp [Json.leavesOfFields, Json.leaves, joinKey, bind, Except.bind, pure, Except.pure]

/-- The same key in two contexts, the second time without a translation. -/
def contexts : String :=
  "msgctxt \"menu\"\nmsgid \"Open\"\nmsgstr \"x\"\n\nmsgctxt \"file\"\nmsgid \"Open\"\nmsgstr \"\"\n"

theorem parse_contexts :
    Format.pot.parse contexts = .ok (.ofList [("Open", some "x"), ("Open", none)]) ∧
    Format.pot.entriesIn contexts = [("Open", some "x"), ("Open", none)] := by
  have last : ((Gettext.Reading.mk [] none).run 1 (Text.split '\n' contexts.toList)).toOption =
      some ⟨[("Open", some "x")], some ⟨"Open".toList, some [], .value⟩⟩ := by decide +kernel
  cases ran : (Gettext.Reading.mk [] none).run 1 (Text.split '\n' contexts.toList) with
  | error fault =>
      rw [ran] at last
      cases last
  | ok reading =>
      rw [ran] at last
      cases last
      constructor
      · rw [Format.parse, Gettext.parse, ran]
        rfl
      · exact (Gettext.entriesOf_of_run ran).symm

/-- **A translation is lost to an empty entry that comes later.**  Here the key is spelled in two ways in an
object, and stands in two contexts in a template. Below an empty outermost name a translation goes to
another key. -/
theorem translation_lost :
    unsorted.replace = false ∧ unsorted.clean = false ∧ extractAll [] [] = .ok ∅ ∧
    (∃ existing, Format.json.parse flatFirst = .ok existing ∧
      ("a.b", some "x") ∈ Format.json.entriesIn flatFirst ∧
      (finalTable unsorted.postProcessors ∅ existing).get? "a.b" = some (some "")) ∧
    (∃ existing, Format.pot.parse contexts = .ok existing ∧
      ("Open", some "x") ∈ Format.pot.entriesIn contexts ∧
      (finalTable unsorted.postProcessors ∅ existing).get? "Open" = some (some "")) ∧
    ∃ existing, Format.json.parse unnamed = .ok existing ∧
      (".a", some "x") ∈ Format.json.entriesIn unnamed ∧
      (finalTable unsorted.postProcessors ∅ existing).get? ".a" = none := by
  have keeping : unsorted.clean = false := rfl
  have lost : ∀ key, (finalTable unsorted.postProcessors ∅
      (.ofList [(key, some "x"), (key, none)])).get? key = some (some "") := by
    intro key
    have last : (KeyTable.ofList [(key, some "x"), (key, none)]).wording key = none := by
      simp [KeyTable.wording_ofList]
    have listed : key ∈ (KeyTable.ofList [(key, some "x"), (key, none)]).keys := by
      simp [KeyTable.keys_ofList]
    rw [get?_finalTable_of_read keeping KeyTable.wording_empty listed, last]
    rfl
  have other : (finalTable unsorted.postProcessors ∅ (.ofList [("a", some "x")])).get? ".a" = none := by
    rw [KeyTable.get?_eq_none_iff, keys_finalTable unsorted _ _ rfl,
      unsorted.keptKeys_of_unclean keeping, KeyTable.keys_ofList]
    decide
  obtain ⟨parsed, leaves⟩ := parse_flatFirst
  obtain ⟨parsed', entries'⟩ := parse_contexts
  obtain ⟨parsed'', leaves''⟩ := parse_unnamed
  refine ⟨rfl, keeping, extractAll_nil [], ⟨_, parsed, ?_, lost "a.b"⟩, ⟨_, parsed', ?_, lost "Open"⟩,
    _, parsed'', ?_, other⟩
  · rw [Format.entriesIn, leaves]
    exact List.mem_cons_self
  · rw [entries']
    exact List.mem_cons_self
  · rw [Format.entriesIn, leaves'']
    exact List.mem_cons_self

end MessageKeys.Job
