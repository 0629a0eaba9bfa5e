/-!
# Text.Split — cutting texts at a character

`split` cuts a text at every occurrence of a character. There is always one piece, and joining the
pieces again gives the text back (`join_split`).
-/
namespace MessageKeys.Text

/-- The pieces of a text between the occurrences of a character. -/
def split (mark : Char) : List Char → List (List Char)
  | [] => [[]]
  | c :: rest =>
    if c == mark then [] :: split mark rest
    else
      match split mark rest with
      | [] => [[c]]
      | piece :: pieces => (c :: piece) :: pieces

/-- Pieces with a character between them. -/
def join (mark : Char) : List (List Char) → List Char
  | [] => []
  | [piece] => piece
  | piece :: pieces => piece ++ mark :: join mark pieces

theorem split_ne_nil (mark : Char) (text : List Char) : split mark text ≠ [] := by
  cases text with
  | nil => simp [split]
  | cons c rest =>
    unfold split
    split
    · simp
    · split <;> simp

theorem join_split (mark : Char) (text : List Char) : join mark (split mark text) = text := by
  induction text with
  | nil => rfl
  | cons c rest ih =>
    cases found : split mark rest with
    | nil => exact absurd found (split_ne_nil mark rest)
    | cons piece pieces =>
      rw [found] at ih
      by_cases same : c = mark
      · simp [split, same, found, join, ih]
      · cases pieces <;> simp_all [split, join]

/-- The pieces of a text as texts. -/
def splitString (mark : Char) (text : String) : List String :=
  (split mark text.toList).map String.ofList

/-- Texts with a character between them. -/
def joinStrings (mark : Char) (pieces : List String) : String :=
  String.ofList (join mark (pieces.map String.toList))

end MessageKeys.Text
