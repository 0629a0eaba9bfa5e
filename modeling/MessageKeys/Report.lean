import MessageKeys.Job
import MessageKeys.Text.Width
/-!
# Report — what a run tells

Warnings name the patterns that found nothing. The report counts keys and files and lists the outputs;
a detailed one lists the files too, with their counts in one column.
-/
namespace MessageKeys
namespace Report
open Job (Summary Count)

/-- A number of things. -/
def counted (count : Nat) (one many : String) : String :=
  toString count ++ " " ++ (if count == 1 then one else many)

def keys (count : Nat) : String := counted count "key" "keys"

/-- What is warned of. -/
def warnings (summary : Summary) : String :=
  String.join (summary.unmatched.map fun pattern =>
    "warning: no files found matching " ++ pattern ++ "\n") ++
  (if summary.skipped == 0 then ""
    else "warning: " ++ toString summary.skipped ++
      " path(s) could not be read while searching for files\n")

/-- A file and its keys, the path filled up to a width. -/
def fileLine (width : Nat) (file : Count) : String :=
  "  " ++ file.path.text ++
    String.ofList (List.replicate (width - Text.width file.path.text) ' ') ++
    "  " ++ keys file.keys ++ "\n"

/-- The files and their keys, if there are any. -/
def fileList (files : List Count) : String :=
  let width := (files.map fun file => Text.width file.path.text).foldl max 0
  if files.isEmpty then "" else String.join (files.map (fileLine width)) ++ "\n"

def outputLine (output : Count) : String :=
  "  --> " ++ output.path.text ++ " (" ++ keys output.keys ++ ")\n"

/-- What a run has done. -/
def text (summary : Summary) (isDetailed : Bool) : String :=
  (if isDetailed then fileList summary.files else "") ++
  "\u2713 Extracted " ++ keys summary.keys ++ " from " ++
  counted summary.files.length "file" "files" ++ "\n" ++
  String.join (summary.outputs.map outputLine)

end Report
end MessageKeys
