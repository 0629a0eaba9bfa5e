import MessageKeys.Proofs.Job.Output
import MessageKeys.Proofs.KeyTable.Algebra
/-!
# Proofs.Job.Findings — what is found has no wording

Looking through files finds keys alone: the table of a strategy words none of them, and merging such
tables leaves it so. A run therefore takes every wording from its output or from a default.
-/
namespace MessageKeys

theorem KeyTable.wording_foldl_merge_of_unset {tables : List KeyTable}
    (unset : ∀ table ∈ tables, ∀ key, table.wording key = none) (key : String) :
    (tables.foldl merge ∅).wording key = none := by
  have nowhere : tables.findSome? (·.wording key) = none :=
    List.findSome?_eq_none_iff.2 fun table member => unset table member key
  rw [wording_foldl_merge, wording_empty, nowhere, Option.or_none]

/-- A name that ends in `html` is the name of a template. -/
theorem SourceKind.ofPath_html {path : Files.PathName} (named : path.extension? = some "html") :
    ofPath path.text = .template := by
  have lower : "html".toLower = "html" := by
    apply String.toList_inj.1
    exact String.toList_map.trans (by decide)
  obtain ⟨text⟩ := path
  unfold ofPath
  simp only [named, lower]
  rfl

theorem Source.read_html {path : Files.PathName} (named : path.extension? = some "html")
    (text : String) : read path.text text = .ok (.template (Template.Document.ofString text)) := by
  unfold read
  rw [SourceKind.ofPath_html named]

theorem Source.wording_keyTable (strategies : List Strategy) (source : Source) (key : String) :
    (source.keyTable strategies).wording key = none := by
  refine KeyTable.wording_foldl_merge_of_unset (fun table member other => ?_) key
  obtain ⟨strategy, -, found⟩ := List.mem_filterMap.1 member
  obtain ⟨keys, -, rfl⟩ := Option.map_eq_some_iff.1 found
  exact KeyTable.wording_ofKeys keys other

namespace Job

theorem wording_extractFile {job : Job} {disk : Files.Disk} {path : Files.PathName}
    {table : KeyTable} (read : job.extractFile disk path = .ok table) (key : String) :
    table.wording key = none := by
  unfold extractFile at read
  split at read
  · cases read
  · split at read
    · rename_i text _ _ table' found
      cases read
      unfold extract at found
      cases parsed : Source.read path.text text with
      | error fault =>
          rw [parsed] at found
          cases found
      | ok source =>
          rw [parsed] at found
          cases found
          exact Source.wording_keyTable _ _ _
    · cases read

/-- Every file that was looked through gives a table, in order. -/
theorem gather_eq_ok_iff {job : Job} {disk : Files.Disk} {findings : Findings} :
    job.gather disk = .ok findings ↔ ∃ resolution, disk.resolve job.inputs job.patterns = .ok resolution ∧
      findings.unmatched = resolution.unmatched ∧ findings.skipped = resolution.skipped ∧
      resolution.files.mapM (fun path => (job.extractFile disk path).map (path, ·)) =
        .ok findings.files := by
  have paired : (fun path => do return (path, ← job.extractFile disk path)) =
      fun path => (job.extractFile disk path).map (path, ·) := by
    funext path
    cases job.extractFile disk path <;> rfl
  unfold gather
  rw [paired]
  cases disk.resolve job.inputs job.patterns with
  | error invalid => simp
  | ok resolution =>
      cases all : resolution.files.mapM fun path => (job.extractFile disk path).map (path, ·) with
      | error failure => simp [all, bind, Except.bind]
      | ok files =>
          obtain ⟨files', unmatched, skipped⟩ := findings
          simp only [all, bind, Except.bind, pure, Except.pure, Except.ok.injEq, Findings.mk.injEq,
            exists_eq_left']
          exact ⟨fun ⟨a, b, c⟩ => ⟨b.symm, c.symm, a⟩, fun ⟨b, c, a⟩ => ⟨a, b.symm, c.symm⟩⟩

/-- What a run finds has no wording. -/
theorem wording_findings {job : Job} {disk : Files.Disk} {findings : Findings}
    (gathered : job.gather disk = .ok findings) (key : String) :
    findings.table.wording key = none := by
  obtain ⟨resolution, -, -, -, all⟩ := gather_eq_ok_iff.1 gathered
  refine KeyTable.wording_foldl_merge_of_unset (fun table member other => ?_) key
  obtain ⟨file, listed, rfl⟩ := List.mem_map.1 member
  obtain ⟨path, -, read⟩ := exists_of_mem_mapM all listed
  cases table : job.extractFile disk path with
  | error failure =>
      rw [table] at read
      cases read
  | ok found =>
      rw [table] at read
      cases read
      exact wording_extractFile table other

end Job
end MessageKeys
