import MessageKeys.Proofs.Files.Extension
import MessageKeys.Source
/-!
# Proofs.Dialects — the dialect that a program is read in

A path names a program whether its extension is in capital letters or not, but the dialect goes by the
extension as it is written (`Source.read_of_program`). With a capital letter in its extension a program is
read as one with types and without markup, as if the extension were `ts`. That is what the same extension in
small letters stands for only in some cases (`Source.read_lowerExtension_iff`); in the others a program with
markup is refused (`Source.refuses_markup`).
-/
namespace MessageKeys
open Files (PathName)

variable {path : PathName} {extension : String}

namespace SourceKind

theorem ofPath_eq_program_iff : ofPath path.text = .program ↔
    ∃ extension, path.extension? = some extension ∧ extension.toLower ∈ programExtensions := by
  unfold ofPath
  cases path.extension? with
  | none => simp
  | some extension =>
      -- No extension of templates is one of programs.
      have apart : extension.toLower ∈ programExtensions → extension.toLower ∉ templateExtensions := by
        simp only [programExtensions, templateExtensions]
        generalize extension.toLower = small
        simp only [List.mem_cons, List.not_mem_nil, or_false]
        rintro (rfl | rfl | rfl | rfl | rfl | rfl | rfl | rfl) <;> decide
      simp only [Option.some.injEq, exists_eq_left']
      grind

end SourceKind

namespace Source
open SourceKind (programExtensions)

/-- Extensions of programs with types and without markup. -/
def plainExtensions : List String := ["ts", "mts", "cts"]

/-- Whether a program with this extension has types, and whether it has markup. -/
def dialectOf (extension : String) : Bool × Bool :=
  if untypedExtensions.contains extension then (false, true) else (true, extension == "tsx")

/-- A text read as a program of a dialect. -/
def ofProgram? (dialect : Bool × Bool) (text : String) : Option Source :=
  (Script.Module.read? dialect.1 dialect.2 text).map fun code =>
    .program code (code.componentTemplates.map Template.Document.ofString)

theorem readProgram?_eq (has : path.extension? = some extension) (text : String) :
    readProgram? path.text text =
      Script.Module.read? (dialectOf extension).1 (dialectOf extension).2 text := by
  have named : (PathName.mk path.text).extension? = some extension := has
  simp only [readProgram?, dialectOf, named, Option.getD_some]
  split <;> rfl

/-- The dialect goes by the extension as it is written. -/
theorem read_of_program (has : path.extension? = some extension)
    (admitted : extension.toLower ∈ programExtensions) (text : String) :
    (read path.text text).toOption = ofProgram? (dialectOf extension) text := by
  have program := SourceKind.ofPath_eq_program_iff.2 ⟨extension, has, admitted⟩
  unfold read ofProgram?
  simp only [program, readProgram?_eq has]
  cases Script.Module.read? (dialectOf extension).1 (dialectOf extension).2 text <;> rfl

/-! ## Capital letters -/

theorem toLower_of_program {small : String} (program : small ∈ programExtensions) :
    small.toLower = small := by
  apply String.toList_inj.1
  refine String.toList_map.trans ?_
  revert small
  decide

/-- A capital letter in its extension makes a program one with types and without markup. -/
theorem dialectOf_of_capital (capital : extension.toLower ≠ extension) :
    dialectOf extension = (true, false) := by
  have apart : extension ∉ programExtensions := fun program => capital (toLower_of_program program)
  have untyped : extension ∉ untypedExtensions := fun member =>
    apart ((by decide : ∀ small ∈ untypedExtensions, small ∈ programExtensions) extension member)
  have marked : extension ≠ "tsx" := by
    rintro rfl
    exact apart (by decide)
  unfold dialectOf
  rw [if_neg (by simpa using untyped), beq_eq_false_iff_ne.2 marked]

theorem dialectOf_of_plain (plain : extension ∈ plainExtensions) :
    dialectOf extension = (true, false) := by
  revert extension
  decide

theorem markup_of_not_plain (program : extension ∈ programExtensions)
    (other : extension ∉ plainExtensions) : (dialectOf extension).2 = true := by
  revert extension
  decide

/-- A text that only programs with markup may hold. -/
def fragment : String := "<></>"

theorem isSome_ofProgram?_fragment (dialect : Bool × Bool) :
    (ofProgram? dialect fragment).isSome = dialect.2 := by
  unfold ofProgram?
  rw [Option.isSome_map]
  rcases dialect with ⟨_ | _, _ | _⟩ <;> decide +kernel

theorem extension?_lowerExtension (has : path.extension? = some extension)
    (admitted : extension.toLower ∈ programExtensions) :
    path.lowerExtension.extension? = some extension.toLower := by
  have clear : ∀ small ∈ programExtensions, '.' ∉ small.toList ∧ '/' ∉ small.toList ∧ small ≠ "" := by
    decide
  obtain ⟨dotless, slashless, filled⟩ := clear _ admitted
  exact PathName.extension?_mapExtension has dotless slashless fun empty => absurd empty filled

/-- **The dialect of a program agrees with its extension in small letters only as far as these are the ones
that are written.**  A path and the same path with its extension in small letters are read alike, whatever
the text, if and only if the extension is in small letters already or stands for types without markup. With a
capital letter in it every program is read as if the extension were `ts`. -/
theorem read_lowerExtension_iff (program : SourceKind.ofPath path.text = .program) :
    ((∀ text, (read path.text text).toOption = (read path.lowerExtension.text text).toOption) ↔
      ∃ extension, path.extension? = some extension ∧
        (extension.toLower = extension ∨ extension.toLower ∈ plainExtensions)) ∧
    ∀ extension, path.extension? = some extension → extension.toLower ≠ extension → ∀ text,
      (read path.text text).toOption =
        (read (path.mapExtension fun _ => "ts").text text).toOption := by
  obtain ⟨extension, has, admitted⟩ := SourceKind.ofPath_eq_program_iff.1 program
  have lowered := extension?_lowerExtension has admitted
  have small := toLower_of_program admitted
  have readLower := read_of_program lowered (by rwa [small])
  refine ⟨⟨fun alike => ⟨extension, has, ?_⟩, ?_⟩, fun other has' capital text => ?_⟩
  · -- A fragment is refused without markup, and read where the small letters stand for markup.
    by_contra! ⟨capital, other⟩
    have both := congrArg Option.isSome (alike fragment)
    rw [read_of_program has admitted, readLower, isSome_ofProgram?_fragment, isSome_ofProgram?_fragment,
      dialectOf_of_capital capital, markup_of_not_plain admitted other] at both
    cases both
  · rintro ⟨other, has', kept⟩ text
    cases has.symm.trans has'
    rw [read_of_program has admitted, readLower]
    by_cases same : extension.toLower = extension
    · rw [same]
    · rw [dialectOf_of_capital same, dialectOf_of_plain (kept.resolve_left same)]
  · cases has.symm.trans has'
    have typed : (path.mapExtension fun _ => "ts").extension? = some "ts" :=
      PathName.extension?_mapExtension has (by decide) (by decide) (by simp)
    have lower : "ts".toLower = "ts" := toLower_of_program (by decide)
    rw [read_of_program has admitted, read_of_program typed (by rw [lower]; decide),
      dialectOf_of_capital capital, dialectOf_of_plain (by decide)]

theorem ofPath_of_lower {small : String} (has : path.extension? = some extension)
    (lower : extension.toList.map Char.toLower = small.toList) (program : small ∈ programExtensions) :
    SourceKind.ofPath path.text = .program := by
  have same : extension.toLower = small := String.toList_inj.1 (String.toList_map.trans lower)
  exact SourceKind.ofPath_eq_program_iff.2 ⟨extension, has, same ▸ program⟩

/-- One capital letter is enough. -/
theorem read_lowerExtension_iff_capital :
    SourceKind.ofPath "lib/view.Mjs" = .program ∧
    ¬ (∀ text, (read "lib/view.Mjs" text).toOption =
      (read (PathName.lowerExtension ⟨"lib/view.Mjs"⟩).text text).toOption) ∧
    ∀ text, (read "lib/view.Mjs" text).toOption = (read "lib/view.ts" text).toOption := by
  have has : (PathName.mk "lib/view.Mjs").extension? = some "Mjs" := by decide +kernel
  have lower : "Mjs".toLower = "mjs" := String.toList_inj.1 (String.toList_map.trans (by decide))
  have program : SourceKind.ofPath (PathName.mk "lib/view.Mjs").text = .program :=
    ofPath_of_lower has (by decide) (by decide : "mjs" ∈ programExtensions)
  obtain ⟨alike, typed⟩ := read_lowerExtension_iff program
  have capital : "Mjs".toLower ≠ "Mjs" := by rw [lower]; decide
  have renamed : PathName.mapExtension (fun _ => "ts") ⟨"lib/view.Mjs"⟩ = ⟨"lib/view.ts"⟩ := by
    decide +kernel
  refine ⟨program, fun same => ?_, fun text => by rw [typed "Mjs" has capital text, renamed]⟩
  obtain ⟨extension, has', kept⟩ := alike.1 same
  cases has.symm.trans has'
  exact kept.elim capital (by rw [lower]; decide)

/-- A program with markup in a file whose name is in capital letters is refused, and read under the same name
with its extension in small letters. -/
theorem refuses_markup :
    SourceKind.ofPath "VIEW.JSX" = .program ∧ (read "VIEW.JSX" fragment).toOption.isSome = false ∧
      (read (PathName.lowerExtension ⟨"VIEW.JSX"⟩).text fragment).toOption.isSome = true := by
  have has : (PathName.mk "VIEW.JSX").extension? = some "JSX" := by decide +kernel
  have lower : "JSX".toLower = "jsx" := String.toList_inj.1 (String.toList_map.trans (by decide))
  have admitted : "JSX".toLower ∈ programExtensions := by rw [lower]; decide
  have small := toLower_of_program admitted
  have lowered := extension?_lowerExtension has admitted
  refine ⟨ofPath_of_lower has (by decide) (by decide : "jsx" ∈ programExtensions), ?_, ?_⟩
  · have capital : "JSX".toLower ≠ "JSX" := by rw [lower]; decide
    have read_ := read_of_program has admitted fragment
    rw [show (PathName.mk "VIEW.JSX").text = "VIEW.JSX" from rfl] at read_
    rw [read_, isSome_ofProgram?_fragment, dialectOf_of_capital capital]
  · rw [read_of_program lowered (by rwa [small]), isSome_ofProgram?_fragment, lower]
    rfl

end Source
end MessageKeys
