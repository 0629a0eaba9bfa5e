import MessageKeys.Files.Glob
/-!
# Files.Resolve — the files that are looked through

Every pattern is tried below every root, and what a search comes upon is taken in as it comes: the regular
files in order, each once however it is spelled; the patterns without any; and how often something could not
be read. A pattern that is none ends it. `resolve` searches a disk.
-/
namespace MessageKeys.Files

/-- What a search comes upon. -/
inductive Hit where
  | found (path : PathName)
  /-- Something that could not be read. -/
  | unreadable
deriving DecidableEq, Repr

/-- A pattern that is none. -/
structure InvalidPattern where
  pattern : String
deriving DecidableEq, Repr

def InvalidPattern.message (invalid : InvalidPattern) : String :=
  "Invalid glob pattern: \"" ++ invalid.pattern ++ "\""

/-- The files to look through. -/
structure Resolution where
  files : List PathName
  /-- How often something could not be read. -/
  skipped : Nat
  /-- Patterns without any files, together with their roots. -/
  unmatched : List String
deriving DecidableEq, Repr

/-- The patterns that are used where none are given. -/
def defaultPatterns : List String := ["/**/*.html", "/**/*.ts"]

/-- A pattern without the slashes in front. -/
def relativePattern (pattern : String) : List Char := pattern.toList.dropWhile (· == '/')

/-- A pattern below a root. -/
def patternBelow (root : PathName) (pattern : String) : String :=
  ((PathName.mk (String.ofList (Pattern.escape root.text.toList))).join
    ⟨String.ofList (relativePattern pattern)⟩).text

/-- What has come of looking for files, together with what the files mean. -/
structure Survey extends Resolution where
  seen : List (List Component)
deriving DecidableEq, Repr

namespace Survey

def start : Survey := { files := [], skipped := 0, unmatched := [], seen := [] }

/-- Takes in what a search comes upon. With it goes whether the search has come upon a file. -/
def meet (isFile : PathName → Bool) : Survey × Bool → Hit → Survey × Bool
  | (survey, matched), .unreadable => ({ survey with skipped := survey.skipped + 1 }, matched)
  | (survey, matched), .found path =>
    if !isFile path then (survey, matched)
    else if survey.seen.contains path.components then (survey, true)
    else ({ survey with
      files := survey.files ++ [path], seen := path.components :: survey.seen }, true)

/-- Tries a pattern below a root. -/
def tryBelow (search : String → Option (List Hit)) (isFile : PathName → Bool) (root : PathName)
    (survey : Survey) (pattern : String) : Except InvalidPattern Survey :=
  let full := patternBelow root pattern
  match search full with
  | none => .error ⟨pattern⟩
  | some hits =>
    let (survey, matched) := hits.foldl (meet isFile) (survey, false)
    .ok (if matched then survey else { survey with unmatched := survey.unmatched ++ [full] })

end Survey

/-- The files of all patterns below all roots. -/
def resolveBy (search : String → Option (List Hit)) (isFile : PathName → Bool) (roots : List PathName)
    (patterns : List String) : Except InvalidPattern Resolution := do
  let survey ← roots.foldlM (fun survey root =>
    patterns.foldlM (Survey.tryBelow search isFile root) survey) Survey.start
  return survey.toResolution

/-- What a pattern finds on a disk, where everything can be read. -/
def Disk.search (disk : Disk) (pattern : String) : Option (List Hit) :=
  (Glob.ofChars? pattern.toList).map fun glob => (glob.expand disk).map .found

/-- The files of all patterns below all roots on a disk. -/
def Disk.resolve (disk : Disk) (roots : List PathName) (patterns : List String) :
    Except InvalidPattern Resolution := resolveBy disk.search disk.isFile roots patterns

end MessageKeys.Files
