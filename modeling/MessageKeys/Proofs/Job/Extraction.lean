import MessageKeys.Proofs.Job.Findings
/-!
# Proofs.Job.Extraction — extraction follows the order of the files

What is found in files is the list of their keys, file by file and in each file strategy by strategy,
with each key where it comes first (`toList_extractAll`). It is therefore a merge of what is found in
the parts of a list of files, and the first file that is no program decides how it fails. The files may
be looked through side by side, as long as each result goes to the place of its file: what the results
make does not depend on which of them was ready first (`extractInOrder_eq`). A job finds the same in the
files it comes upon.
-/
namespace MessageKeys
open Occurrences

/-! ## Keys in order -/

namespace Source

/-- The keys that the strategies find, in their order and maybe more than once. -/
def foundKeys (strategies : List Strategy) (source : Source) : List String :=
  strategies.flatMap fun strategy => (strategy.keys? source).getD []

theorem keys_keyTable (strategies : List Strategy) (source : Source) :
    (source.keyTable strategies).keys = (source.foundKeys strategies).eraseDups := by
  have tables : (strategies.filterMap (·.find? source)).flatMap KeyTable.keys =
      strategies.flatMap fun strategy => ((strategy.keys? source).getD []).eraseDups := by
    induction strategies with
    | nil => rfl
    | cons strategy strategies ih =>
        rw [List.flatMap_cons, ← ih]
        cases found : strategy.keys? source with
        | none => simp [Strategy.find?, found]
        | some keys => simp [Strategy.find?, found, KeyTable.keys_ofKeys]
  rw [keyTable, KeyTable.keys_foldl_merge, KeyTable.keys_empty, List.nil_append, tables,
    eraseDups_flatMap, foundKeys]

end Source

section Files

variable (strategies : List Strategy) (files others : List (String × String))

theorem extractAll_eq : extractAll strategies files =
    (files.mapM fun file => extract strategies file.1 file.2).map (·.foldl KeyTable.merge ∅) := by
  unfold extractAll
  cases files.mapM fun file => extract strategies file.1 file.2 <;> rfl

/-- Files that can be read give the first occurrences of all their keys, none of them worded. -/
theorem toList_extractAll {sources : List Source}
    (read : files.mapM (fun file => Source.read file.1 file.2) = .ok sources) :
    ∃ table, extractAll strategies files = .ok table ∧ table.toList =
      (sources.flatMap (·.foundKeys strategies)).eraseDups.map fun key => (key, none) := by
  have tables : files.mapM (fun file => extract strategies file.1 file.2) =
      .ok (sources.map (·.keyTable strategies)) := by
    rw [mapM_eq_ok_iff] at read ⊢
    calc files.map (fun file => extract strategies file.1 file.2)
        = (files.map fun file => Source.read file.1 file.2).map
            (Except.map (·.keyTable strategies)) := by rw [List.map_map]; rfl
      _ = (sources.map (·.keyTable strategies)).map .ok := by
          rw [read, List.map_map, List.map_map]
          rfl
  refine ⟨(sources.map (·.keyTable strategies)).foldl KeyTable.merge ∅, ?_, ?_⟩
  · rw [extractAll_eq, tables]
    rfl
  · have keys : ((sources.map (·.keyTable strategies)).foldl KeyTable.merge ∅).keys =
        (sources.flatMap (·.foundKeys strategies)).eraseDups := by
      rw [KeyTable.keys_foldl_merge, KeyTable.keys_empty, List.nil_append, List.flatMap_map]
      simp only [Source.keys_keyTable]
      exact eraseDups_flatMap _ _
    have unworded : ∀ key,
        ((sources.map (·.keyTable strategies)).foldl KeyTable.merge ∅).wording key = none := by
      refine KeyTable.wording_foldl_merge_of_unset fun table member key => ?_
      obtain ⟨source, -, rfl⟩ := List.mem_map.1 member
      exact Source.wording_keyTable strategies source key
    rw [KeyTable.toList_eq_map_keys, keys]
    exact List.map_congr_left fun key _ => by rw [unworded]

/-- Nothing that is found has a wording. -/
theorem wording_extractAll {table : KeyTable} (found : extractAll strategies files = .ok table)
    (key : String) : table.wording key = none := by
  rw [extractAll_eq] at found
  cases read : files.mapM fun file => extract strategies file.1 file.2 with
  | error error =>
      rw [read] at found
      cases found
  | ok tables =>
      rw [read] at found
      cases found
      refine KeyTable.wording_foldl_merge_of_unset (fun table member key => ?_) key
      obtain ⟨file, -, extracted⟩ := exists_of_mem_mapM read member
      unfold extract at extracted
      cases parsed : Source.read file.1 file.2 with
      | error error =>
          rw [parsed] at extracted
          cases extracted
      | ok source =>
          rw [parsed] at extracted
          cases extracted
          exact Source.wording_keyTable strategies source key

/-- What is found in two lists of files one after the other is what is found in each, merged. -/
theorem extractAll_append :
    (extractAll strategies (files ++ others)).map KeyTable.toList =
      (do let first ← extractAll strategies files
          let second ← extractAll strategies others
          return first.merge second).map KeyTable.toList := by
  simp only [extractAll_eq, List.mapM_append]
  cases files.mapM fun file => extract strategies file.1 file.2 with
  | error failure => rfl
  | ok first =>
      cases others.mapM fun file => extract strategies file.1 file.2 with
      | error failure => rfl
      | ok second => exact congrArg Except.ok (KeyTable.toList_foldl_merge_append first second)

/-- Files at the end move no key that was found before them. -/
theorem keys_prefix_extractAll {table whole : KeyTable}
    (first : extractAll strategies files = .ok table)
    (all : extractAll strategies (files ++ others) = .ok whole) : table.keys <+: whole.keys := by
  have parts := extractAll_append strategies files others
  rw [first, all] at parts
  cases second : extractAll strategies others with
  | error failure =>
      rw [second] at parts
      cases parts
  | ok rest =>
      rw [second] at parts
      have entries : whole.toList = (table.merge rest).toList := Except.ok.inj parts
      have keys : whole.keys = (table.merge rest).keys := congrArg (List.map Prod.fst) entries
      rw [keys, KeyTable.keys_merge]
      exact List.prefix_append _ _

theorem path_of_extract {path text : String} {error : SyntaxError}
    (failed : extract strategies path text = .error error) : error.path = path := by
  unfold extract at failed
  cases read : Source.read path text with
  | ok source =>
      rw [read] at failed
      cases failed
  | error other =>
      rw [read] at failed
      cases failed
      unfold Source.read at read
      split at read
      · cases read
      · cases read
      · split at read
        · cases read
          rfl
        · cases read

/-- The first file that is no program decides how extraction fails. -/
theorem extractAll_eq_error_iff {error : SyntaxError} :
    extractAll strategies files = .error error ↔ ∃ before file after, files = before ++ file :: after ∧
      (∀ earlier ∈ before, ∃ table, extract strategies earlier.1 earlier.2 = .ok table) ∧
      extract strategies file.1 file.2 = .error error := by
  rw [← mapM_eq_error_iff, extractAll_eq]
  cases files.mapM fun file => extract strategies file.1 file.2 with
  | error other => exact ⟨fun same => by cases same; rfl, fun same => by cases same; rfl⟩
  | ok tables => exact ⟨fun same => (by cases same), fun same => (by cases same)⟩

/-! ## Files side by side -/

/-- Merges results in their order, up to the first one that is none. -/
def mergeResults (results : List (Except SyntaxError KeyTable)) : Except SyntaxError KeyTable :=
  results.foldlM (fun table result => return table.merge (← result)) ∅

/-- A place for the result of each file, empty until it is ready. -/
abbrev Slots := List (Option (Except SyntaxError KeyTable))

/-- The file at this place is ready. -/
def finish (slots : Slots) (place : Nat) : Slots :=
  slots.set place (files[place]?.map fun file => extract strategies file.1 file.2)

/-- Looks through files side by side; they are ready in this order, and their results are merged when
all of them are there. -/
def extractInOrder (order : List Nat) : Option (Except SyntaxError KeyTable) :=
  ((order.foldl (finish strategies files) (files.map fun _ => none)).mapM id).map mergeResults

theorem foldlM_merge (start : KeyTable) :
    (files.map fun file => extract strategies file.1 file.2).foldlM
        (fun table result => return table.merge (← result)) start =
      (files.mapM fun file => extract strategies file.1 file.2).map (·.foldl KeyTable.merge start) := by
  induction files generalizing start with
  | nil => rfl
  | cons file files ih =>
      rw [List.map_cons, List.foldlM_cons, List.mapM_cons]
      cases extract strategies file.1 file.2 with
      | error failure => rfl
      | ok table =>
          have rest := ih (start.merge table)
          cases all : files.mapM fun file => extract strategies file.1 file.2 <;>
            simpa [all, bind, Except.bind, pure, Except.pure, Except.map] using rest

theorem length_foldl_finish (order : List Nat) (slots : Slots) :
    (order.foldl (finish strategies files) slots).length = slots.length := by
  induction order generalizing slots with
  | nil => rfl
  | cons place order ih => rw [List.foldl_cons, ih, finish, List.length_set]

/-- A place holds the result of its file as soon as that is ready, whatever comes before or after. -/
theorem getElem?_foldl_finish (order : List Nat) (slots : Slots) (place : Nat)
    (inside : place < slots.length) :
    (order.foldl (finish strategies files) slots)[place]? =
      if place ∈ order then some (files[place]?.map fun file => extract strategies file.1 file.2)
      else slots[place]? := by
  induction order generalizing slots with
  | nil => simp
  | cons next order ih =>
      have wide : place < (finish strategies files slots next).length := by
        rw [finish, List.length_set]
        exact inside
      rw [List.foldl_cons, ih _ wide]
      by_cases later : place ∈ order
      · simp [later]
      · by_cases now : next = place
        · simp [later, now, finish, inside]
        · have other : place ≠ next := fun same => now same.symm
          simp [later, other, now, finish]

/-- The order in which files are ready makes no difference. -/
theorem extractInOrder_eq {order : List Nat} (all : ∀ place < files.length, place ∈ order) :
    extractInOrder strategies files order = some (extractAll strategies files) := by
  have filled : order.foldl (finish strategies files) (files.map fun _ => none) =
      (files.map fun file => extract strategies file.1 file.2).map some := by
    apply List.ext_getElem?
    intro place
    by_cases inside : place < files.length
    · rw [getElem?_foldl_finish _ _ _ _ _ (by simpa using inside), if_pos (all place inside)]
      simp [inside]
    · have short := length_foldl_finish strategies files order (files.map fun _ => none)
      rw [List.getElem?_eq_none (by rw [short]; simpa using inside), List.getElem?_eq_none (by simpa using inside)]
  have ready : ∀ results : List (Except SyntaxError KeyTable), (results.map some).mapM id = some results := by
    intro results
    induction results with
    | nil => rfl
    | cons result results ih => rw [List.map_cons, List.mapM_cons, ih]; rfl
  rw [extractInOrder, filled, ready, extractAll_eq, Option.map_some, mergeResults, foldlM_merge]

end Files

/-! ## The files of a job -/

namespace Job
open Files (PathName Disk)

/-- If all files can be read, a job finds in them what is found in their texts. -/
theorem gather_of_readable (job : Job) {disk : Disk} {resolution : Files.Resolution}
    {text : PathName → String} (found : disk.resolve job.inputs job.patterns = .ok resolution)
    (readable : ∀ path ∈ resolution.files, disk.read? path = some (text path)) :
    (job.gather disk).map (·.table) =
      (extractAll job.strategies (resolution.files.map fun path => (path.text, text path))).mapError
        Failure.syntaxError := by
  have each : ∀ path ∈ resolution.files, (do return (path, ← job.extractFile disk path)) =
      ((extract job.strategies path.text (text path)).map (path, ·)).mapError
        Failure.syntaxError := by
    intro path member
    rw [extractFile, readable path member]
    cases result : extract job.strategies path.text (text path) with
    | error error =>
        simp only [result]
        rfl
    | ok table =>
        simp only [result]
        rfl
  rw [gather, found, extractAll_eq, List.mapM_map, ← map_snd_mapM]
  simp only [Function.comp_apply]
  rw [mapM_mapError Failure.syntaxError each]
  cases resolution.files.mapM fun path =>
    (extract job.strategies path.text (text path)).map (path, ·) <;> rfl

/-- **Extraction follows the order of the files.**  If every file can be read, what is found are the first
occurrences of all keys, file by file and in each file strategy by strategy, none of them worded. What is
found in two lists of files is what is found in each, merged; further files come behind and move
nothing. Extraction fails if and only if some file is no program, and then as the first such file does.
It makes no difference in which order the files are ready. And a job whose files can all be read finds
what is found in their texts. -/
theorem extraction_exact (job : Job) (files others : List (String × String)) :
    (∀ sources, files.mapM (fun file => Source.read file.1 file.2) = .ok sources →
      ∃ table, extractAll job.strategies files = .ok table ∧ table.toList =
        (sources.flatMap (·.foundKeys job.strategies)).eraseDups.map fun key => (key, none)) ∧
    (extractAll job.strategies (files ++ others)).map KeyTable.toList =
      (do let first ← extractAll job.strategies files
          let second ← extractAll job.strategies others
          return first.merge second).map KeyTable.toList ∧
    (∀ table whole, extractAll job.strategies files = .ok table →
      extractAll job.strategies (files ++ others) = .ok whole → table.keys <+: whole.keys) ∧
    (∀ error, extractAll job.strategies files = .error error ↔
      ∃ before file after, files = before ++ file :: after ∧
        (∀ earlier ∈ before, ∃ table, extract job.strategies earlier.1 earlier.2 = .ok table) ∧
        extract job.strategies file.1 file.2 = .error error ∧ error = ⟨file.1⟩) ∧
    (∀ order : List Nat, order.Perm (List.range files.length) →
      extractInOrder job.strategies files order = some (extractAll job.strategies files)) ∧
    (∀ (disk : Disk) resolution (text : PathName → String),
      disk.resolve job.inputs job.patterns = .ok resolution →
      (∀ path ∈ resolution.files, disk.read? path = some (text path)) →
      (job.gather disk).map (·.table) =
        (extractAll job.strategies (resolution.files.map fun path => (path.text, text path))).mapError
          Failure.syntaxError) := by
  refine ⟨fun sources => toList_extractAll job.strategies files,
    extractAll_append job.strategies files others,
    fun table whole => keys_prefix_extractAll job.strategies files others, fun error => ?_,
    fun order same => ?_, fun disk resolution text => gather_of_readable job⟩
  · rw [extractAll_eq_error_iff]
    have named : ∀ file : String × String, extract job.strategies file.1 file.2 = .error error →
        error = ⟨file.1⟩ := fun file failed => by
      rw [← path_of_extract job.strategies failed]
    constructor
    · rintro ⟨before, file, after, split, fine, failed⟩
      exact ⟨before, file, after, split, fine, failed, named file failed⟩
    · rintro ⟨before, file, after, split, fine, failed, -⟩
      exact ⟨before, file, after, split, fine, failed⟩
  · refine extractInOrder_eq job.strategies files fun place inside => ?_
    exact same.mem_iff.2 (List.mem_range.2 inside)

/-- Two pages; the second one repeats the key of the first. -/
def pages : List (String × String) :=
  [("src/a.html", "<p translate>B</p>"), ("src/b.html", "<p translate>A</p><p translate>B</p>")]

theorem read_pages : ∀ page ∈ pages,
    Source.read page.1 page.2 = .ok (.template (Template.Document.ofString page.2)) := by
  intro page member
  have named : (Files.PathName.mk page.1).extension? = some "html" := by
    revert page
    decide
  exact Source.read_html named page.2

/-- A directory with these pages. -/
def folder : Disk :=
  ⟨((Files.Tree.empty.put ["src"] .directory).put ["src", "a.html"]
      (.file (.text "<p translate>B</p>"))).put ["src", "b.html"]
      (.file (.text "<p translate>A</p><p translate>B</p>")), []⟩

/-- A job that looks through them. -/
def reading : Job where
  inputs := [⟨"src"⟩]
  outputs := []
  patterns := ["a.html", "b.html"]
  replace := false
  strategies := [.directive]
  postProcessors := []
  format := .json
  indentation := "\t"

/-- The repeated key stays where it came first, also if the second page is ready before the first. -/
theorem extraction_exact_pages :
    (∃ table, extractAll reading.strategies pages = .ok table ∧
      table.toList = [("B", none), ("A", none)]) ∧
    extractInOrder reading.strategies pages [1, 0] = some (extractAll reading.strategies pages) ∧
    (reading.gather folder).map (·.table) =
      (extractAll reading.strategies pages).mapError Failure.syntaxError := by
  have resolved : folder.resolve reading.inputs reading.patterns =
      .ok ⟨[⟨"src/a.html"⟩, ⟨"src/b.html"⟩], 0, []⟩ := by decide +kernel
  obtain ⟨exact_, -, -, -, order, phase⟩ := extraction_exact reading pages []
  refine ⟨?_, order [1, 0] (by decide), ?_⟩
  · obtain ⟨table, found, entries⟩ := exact_ _ (mapM_of_forall read_pages)
    refine ⟨table, found, entries.trans ?_⟩
    decide +kernel
  · exact phase folder _ (fun path => ((pages.lookup path.text).getD "")) resolved (by decide)

end Job
end MessageKeys
