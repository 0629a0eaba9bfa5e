import MessageKeys.Files.PathName
import MessageKeys.Script.Grammar
import MessageKeys.Script.Search
import MessageKeys.Template.Layout
/-!
# Source — a file read once for all strategies

The extension of its path says what a file is: a template, a program, or nothing that could hold keys.
A program is read in the dialect of its extension and brings along the inline templates of its
components. Every text is a template; a text that is no program is refused.
-/
namespace MessageKeys

/-- What a file is. -/
inductive SourceKind where
  | template
  | program
  | other
deriving DecidableEq, Repr

namespace SourceKind

def templateExtensions : List String := ["html", "htm"]

def programExtensions : List String := ["ts", "tsx", "mts", "cts", "js", "jsx", "mjs", "cjs"]

/-- What the extension of a path says, in capital letters or not. -/
def ofPath (path : String) : SourceKind :=
  match (Files.PathName.mk path).extension? with
  | none => .other
  | some extension =>
    if templateExtensions.contains extension.toLower then .template
    else if programExtensions.contains extension.toLower then .program
    else .other

end SourceKind

/-- A text that is no program, by its path. -/
structure SyntaxError where
  path : String
deriving DecidableEq, Repr

def SyntaxError.message (error : SyntaxError) : String := "Failed to parse " ++ error.path

/-- A file that has been read. -/
inductive Source where
  | template (document : Template.Document)
  | program (code : Script.Module) (templates : List Template.Document)
  | other

namespace Source

/-- Extensions of programs without types. -/
def untypedExtensions : List String := ["js", "jsx", "mjs", "cjs"]

/-- Reads a program by the extension of its path, which counts as it is written. Without types there
is markup; with types there is markup in `tsx` only. -/
def readProgram? (path text : String) : Option Script.Module :=
  let extension := ((Files.PathName.mk path).extension?).getD ""
  if untypedExtensions.contains extension then Script.Module.read? false true text
  else Script.Module.read? true (extension == "tsx") text

/-- Reads a file. -/
def read (path text : String) : Except SyntaxError Source :=
  match SourceKind.ofPath path with
  | .template => .ok (.template (Template.Document.ofString text))
  | .other => .ok .other
  | .program =>
    match readProgram? path text with
    | none => .error ⟨path⟩
    | some code => .ok (.program code (code.componentTemplates.map Template.Document.ofString))

/-- The templates in a file; none if it has no template. -/
def templates? : Source → Option (List Template.Document)
  | .template document => some [document]
  | .program _ [] => none
  | .program _ templates => some templates
  | .other => none

/-- The program in a file. -/
def program? : Source → Option Script.Module
  | .program code _ => some code
  | _ => none

end Source
end MessageKeys
