import Mathlib.Data.List.Find
import MessageKeys.Proofs.Files.Resolve
import MessageKeys.Settings
/-!
# Proofs.Files.Validation — patterns that are checked before and cut afterwards

A pattern is checked as a whole, and cut at its slashes when it is looked for. What is one as a whole is one
in each of its parts unless a slash stands in a class (`isRead_iff`), whatever root it is looked for below
(`ofChars?_below_iff`). So settings that pass the check find their files if and only if no pattern lists a
slash in a class (`resolve_of_valid`).
-/
namespace MessageKeys.Files

namespace Pattern

/-- A class lists a slash. -/
def Piece.listsSlash : Piece → Bool
  | .oneOf ranges | .noneOf ranges => ranges.any fun range => range.1 == '/' || range.2 == '/'
  | _ => false

/-- All parts of a text between slashes are patterns, the first one read on from here. -/
def areRead (reading : Reading) (text : List Char) : Bool :=
  match Text.split '/' text with
  | [] => false
  | first :: others => (readFrom? reading first).isSome &&
      others.all fun piece => (ofChars? piece).isSome

/-! ## Slashes in classes -/

/-- The ranges of a class list what stands in it. -/
theorem exists_mem_rangesOf_iff {c : Char} (other : c ≠ '-') {text : List Char} :
    (∃ range ∈ rangesOf text, range.1 = c ∨ range.2 = c) ↔ c ∈ text := by
  fun_induction rangesOf text with
  | case1 first last rest ih =>
      rw [List.exists_mem_cons_iff, ih]
      simp [other, or_assoc, eq_comm (a := c)]
  | case2 first rest _ ih =>
      rw [List.exists_mem_cons_iff, ih]
      simp [eq_comm (a := c)]
  | case3 => simp

theorem listsSlash_class (isNegated : Bool) (text : List Char) :
    Piece.listsSlash (if isNegated then .noneOf (rangesOf text) else .oneOf (rangesOf text)) =
      text.contains '/' := by
  have same : ((rangesOf text).any fun range => range.1 == '/' || range.2 == '/') =
      text.contains '/' := by
    rw [Bool.eq_iff_iff, List.contains_iff_mem, ← exists_mem_rangesOf_iff (by decide)]
    simp
  cases isNegated <;> exact same

/-- A slash that has been read in a class stays in it. -/
theorem listsSlash_of_inside {isNegated : Bool} {before text : List Char} {pattern : Pattern}
    (read : readFrom? (.inside isNegated before) text = some pattern) (slash : '/' ∈ before) :
    pattern.any Piece.listsSlash := by
  induction text generalizing before with
  | nil => cases read
  | cons c text ih =>
      by_cases closing : c = ']'
      · subst closing
        rw [readFrom?] at read
        obtain ⟨rest, -, rfl⟩ := Option.map_eq_some_iff.1 read
        rw [List.any_cons, listsSlash_class, Bool.or_eq_true]
        exact Or.inl (by simpa using slash)
      · rw [readFrom?] at read
        · exact ih read (List.mem_cons_of_mem _ slash)
        · exact closing

/-! ## Parts -/

theorem areRead_slash (reading : Reading) (rest : List Char) :
    areRead reading ('/' :: rest) = ((readFrom? reading []).isSome && areRead (.outside true) rest) := by
  unfold areRead
  rw [Text.split, if_pos (by rfl)]
  cases pieces : Text.split '/' rest with
  | nil => exact absurd pieces (Text.split_ne_nil '/' rest)
  | cons first others => rfl

theorem areRead_cons {reading : Reading} (next : Reading) {c : Char} {rest : List Char} (other : c ≠ '/')
    (same : ∀ first others, Text.split '/' rest = first :: others →
      (readFrom? reading (c :: first)).isSome = (readFrom? next first).isSome) :
    areRead reading (c :: rest) = areRead next rest := by
  unfold areRead
  rw [Text.split, if_neg (by simpa using other)]
  cases pieces : Text.split '/' rest with
  | nil => exact absurd pieces (Text.split_ne_nil '/' rest)
  | cons first others => simp only [same first others pieces]

theorem areRead_start (text : List Char) :
    areRead (.outside true) text = (Text.split '/' text).all fun piece => (ofChars? piece).isSome := by
  unfold areRead
  cases pieces : Text.split '/' text with
  | nil => exact absurd pieces (Text.split_ne_nil '/' text)
  | cons first others => rfl

/-- The first part starts as the whole does, or is empty. -/
theorem start_of_split {text first : List Char} {others : List (List Char)}
    (pieces : Text.split '/' text = first :: others) : first = [] ∨ first.head? = text.head? := by
  cases text with
  | nil =>
      cases pieces
      exact Or.inl rfl
  | cons c rest =>
      rw [Text.split] at pieces
      split at pieces
      · cases pieces
        exact Or.inl rfl
      · split at pieces <;>
        · cases pieces
          exact Or.inr rfl

/-- What the whole does not start with, its first part does not start with. -/
theorem start_ne_of_split {text first : List Char} {others : List (List Char)} {c : Char}
    (pieces : Text.split '/' text = first :: others) (other : ∀ tail, text ≠ c :: tail)
    (tail : List Char) : first ≠ c :: tail := by
  rintro rfl
  rcases start_of_split pieces with empty | same
  · cases empty
  · obtain ⟨tail', shape⟩ := List.head?_eq_some_iff.1 same.symm
    exact other tail' shape

/-- No slash has been read in a class. -/
def Reading.isClear : Reading → Prop
  | .inside _ before => '/' ∉ before
  | _ => True

/-- A character that is listed in a class which has to be closed: a slash among them cuts it. -/
theorem areRead_listed {reading : Reading} {isNegated : Bool} {before rest : List Char} {c : Char}
    {pattern : Pattern}
    (lists : ∀ text, readFrom? reading (c :: text) = readFrom? (.inside isNegated (c :: before)) text)
    (unclosed : readFrom? reading [] = none) (clear : '/' ∉ before)
    (read : readFrom? (.inside isNegated (c :: before)) rest = some pattern)
    (onward : '/' ∉ c :: before →
      areRead (.inside isNegated (c :: before)) rest = !pattern.any Piece.listsSlash) :
    areRead reading (c :: rest) = !pattern.any Piece.listsSlash := by
  by_cases slash : c = '/'
  · subst slash
    rw [areRead_slash, unclosed, listsSlash_of_inside read List.mem_cons_self]
    rfl
  · rw [areRead_cons _ slash fun first _ _ => by rw [lists], onward]
    rw [List.mem_cons, not_or]
    exact ⟨Ne.symm slash, clear⟩

/-- What reads as a pattern does so in all of its parts unless a class lists a slash. -/
theorem areRead_eq {reading : Reading} {text : List Char} {pattern : Pattern}
    (read : readFrom? reading text = some pattern) (clear : reading.isClear) :
    areRead reading text = !pattern.any Piece.listsSlash := by
  fun_induction readFrom? reading text generalizing pattern with
  | case1 =>
      cases read
      rfl
  | case2 | case3 | case5 | case7 | case8 => cases read
  | case4 rest ih =>
      -- Two stars with their slash are a part of their own.
      obtain ⟨others, later, rfl⟩ := Option.map_eq_some_iff.1 read
      have cut : Text.split '/' ('*' :: '*' :: '/' :: rest) = ['*', '*'] :: Text.split '/' rest :=
        Text.split_append_mark '/' ['*', '*'] rest
      rw [areRead_start, cut, List.all_cons, ← areRead_start, ih later trivial]
      rfl
  | case6 =>
      cases read
      rfl
  | case9 atStart rest _ _ _ single ih =>
      obtain ⟨others, later, rfl⟩ := Option.map_eq_some_iff.1 read
      rw [areRead_cons (.outside false) (by decide), ih later trivial]
      · rfl
      · intro first others pieces
        -- No second star follows in the part either.
        have alone := start_ne_of_split pieces single
        rw [readFrom?, Option.isSome_map] <;> simp_all
  | case10 atStart rest ih =>
      obtain ⟨others, later, rfl⟩ := Option.map_eq_some_iff.1 read
      rw [areRead_cons (.outside false) (by decide) fun first _ _ => ?_, ih later trivial]
      · rfl
      · rw [readFrom?, Option.isSome_map]
  | case11 atStart rest ih =>
      rw [areRead_cons .opened (by decide) fun first _ _ => ?_, ih read trivial]
      rw [readFrom?]
  | case12 atStart c rest _ _ _ _ star mark bracket ih =>
      obtain ⟨others, later, rfl⟩ := Option.map_eq_some_iff.1 read
      rw [List.any_cons, show Piece.listsSlash (.char c) = false from rfl, Bool.false_or,
        ← ih later trivial]
      by_cases slash : c = '/'
      · subst slash
        rw [areRead_slash]
        rfl
      · refine areRead_cons _ slash fun first _ _ => ?_
        rw [readFrom?, Option.isSome_map] <;> simp_all
  | case13 rest ih =>
      rw [areRead_cons .negated (by decide) fun first _ _ => ?_, ih read trivial]
      rw [readFrom?]
  | case14 c rest other ih =>
      exact areRead_listed (fun text => by rw [readFrom?]; exact other) rfl
        (by simp) read (ih read)
  | case15 c rest ih =>
      exact areRead_listed (fun text => by rw [readFrom?]) rfl (by simp) read (ih read)
  | case16 isNegated before rest =>
      -- The class is closed in the part that opens it, since none of what it lists is a slash.
      rename_i ih
      obtain ⟨others, later, rfl⟩ := Option.map_eq_some_iff.1 read
      have absent : '/' ∉ before := clear
      have blank : before.reverse.contains '/' = false := by simpa using absent
      rw [List.any_cons, listsSlash_class, blank, Bool.false_or, ← ih later trivial]
      refine areRead_cons _ (by decide) fun first _ _ => ?_
      rw [readFrom?, Option.isSome_map]
  | case17 isNegated before c rest other ih =>
      exact areRead_listed (fun text => by rw [readFrom?]; exact other) rfl clear read (ih read)

end Pattern

/-! ## Patterns as they are looked for -/

namespace Glob

theorem isSome_mapM {α β : Type} (f : α → Option β) (xs : List α) :
    (xs.mapM f).isSome = xs.all fun x => (f x).isSome := by
  induction xs with
  | nil => rfl
  | cons x xs ih =>
      rw [List.mapM_cons, List.all_cons, ← ih]
      cases f x with
      | none => rfl
      | some y => cases xs.mapM f <;> rfl

/-- An empty piece at the end does not count. -/
theorem all_piecesOf {p : List Char → Bool} (empty : p []) (text : List Char) :
    (piecesOf text).all p = (Text.split '/' text).all p := by
  unfold piecesOf
  split
  · rename_i none_
    rw [List.isEmpty_iff.1 none_]
    rfl
  · unfold dropEmptyEnd
    split
    · rename_i last
      obtain ⟨front, shape⟩ := List.getLast?_eq_some_iff.1 (eq_of_beq last)
      rw [shape, List.dropLast_concat, List.all_append, List.all_cons, empty]
      simp
    · rfl

theorem isSome_ofChars? (text : List Char) :
    (ofChars? text).isSome =
      ((Pattern.ofChars? text).isSome && Pattern.areRead (.outside true) text) := by
  have blank : (Pattern.ofChars? []).isSome := rfl
  have whole : ((piecesOf (if text.head? == some '/' then text.tail else text)).mapM
      Pattern.ofChars?).isSome = Pattern.areRead (.outside true) text := by
    rw [isSome_mapM, all_piecesOf blank, Pattern.areRead_start]
    split
    · rename_i absolute
      obtain ⟨rest, rfl⟩ := List.head?_eq_some_iff.1 (eq_of_beq absolute)
      rw [List.tail_cons, Text.split, if_pos (by rfl), List.all_cons, blank, Bool.true_and]
    · rfl
  unfold ofChars?
  cases read : Pattern.ofChars? text with
  | none => rfl
  | some pattern =>
      rw [Option.isSome_some, Bool.true_and, ← whole]
      exact Option.isSome_map

/-- A pattern can be looked for if and only if it is one as a whole and no class lists a slash. -/
theorem isRead_iff {text : List Char} :
    (ofChars? text).isSome ↔
      ∃ pattern, Pattern.ofChars? text = some pattern ∧ pattern.any Pattern.Piece.listsSlash = false := by
  rw [isSome_ofChars?]
  cases read : Pattern.ofChars? text with
  | none => simp
  | some pattern =>
      rw [Pattern.areRead_eq read trivial]
      simp

end Glob

/-- A class of the pattern lists a slash. -/
def listsSlash (pattern : String) : Bool :=
  (Pattern.ofChars? (relativePattern pattern)).any (·.any Pattern.Piece.listsSlash)

/-- What is escaped holds classes of single characters, none of them a slash. -/
theorem listsSlash_plain (text : List Char) : (Pattern.plain text).any Pattern.Piece.listsSlash = false := by
  rw [List.any_eq_false]
  intro piece member
  obtain ⟨c, -, rfl⟩ := List.mem_map.1 member
  by_cases special : Pattern.isSpecial c = true
  · have other : c ≠ '/' := by
      rintro rfl
      cases special
    rw [if_pos special]
    simp [Pattern.Piece.listsSlash, other]
  · rw [if_neg special]
    exact Bool.false_ne_true

/-- Whatever the root, a pattern can be looked for below it if and only if it is one and no class of it lists
a slash. -/
theorem ofChars?_below_iff (root : PathName) {pattern : String} (valid : Config.isValidPattern pattern) :
    (Glob.ofChars? (patternBelow root pattern).toList).isSome ↔ listsSlash pattern = false := by
  obtain ⟨read, whole⟩ := Option.isSome_iff_exists.1 valid
  rw [Glob.isRead_iff, listsSlash, whole, Option.any_some]
  cases empty : root.text.isEmpty with
  | true => rw [patternBelow_empty empty, whole]; simp
  | false =>
      obtain ⟨text, -, shape⟩ := patternBelow_eq empty pattern
      have onward : ∀ atStart, Pattern.readFrom? (.outside atStart) ('/' :: relativePattern pattern) =
          some (.char '/' :: read) := by
        intro atStart
        rw [Pattern.readFrom?] <;> simp_all [Pattern.ofChars?]
      have mark : Pattern.Piece.listsSlash (.char '/') = false := rfl
      rw [shape, Pattern.ofChars?, Pattern.readFrom?_escape_append onward]
      simp only [Option.map_some, Option.some.injEq, exists_eq_left', List.any_append, List.any_cons,
        listsSlash_plain, mark, Bool.false_or]

/-! ## Settings that pass the check -/

variable {roots : List PathName} {patterns : List String}

/-- If it only depends on the pattern what is rejected, the first root is as good as any. -/
theorem find?_pairs {p : PathName × String → Bool} {q : String → Bool}
    (same : ∀ root, ∀ pattern ∈ patterns, p (root, pattern) = q pattern) :
    ((pairs roots patterns).find? p).map (·.2) = if roots.isEmpty then none else patterns.find? q := by
  induction roots with
  | nil => rfl
  | cons root roots ih =>
      have alike : patterns.find? (p ∘ (root, ·)) = patterns.find? q := by
        refine List.find?_congr fun pattern listed => same root pattern listed
      rw [pairs, List.flatMap_cons, ← pairs, List.find?_append, List.find?_map, alike,
        List.isEmpty_cons, if_neg Bool.false_ne_true]
      cases found : patterns.find? q with
      | some pattern => rfl
      | none =>
          rw [Option.map_none, Option.none_or, ih, found, ite_self]

theorem isRejected_below (disk : Disk) (root : PathName) {pattern : String}
    (valid : Config.isValidPattern pattern) :
    isRejected disk.search (root, pattern) = listsSlash pattern := by
  have accepted := ofChars?_below_iff root valid
  have searched : isRejected disk.search (root, pattern) =
      !(Glob.ofChars? (patternBelow root pattern).toList).isSome := by
    rw [isRejected, Disk.search, Option.isNone_map, Option.not_isSome]
  rw [searched]
  cases slash : listsSlash pattern <;> simpa [slash] using accepted

/-- Looking for patterns that are each one as a whole fails for the first one with a slash in a class, if
there is anywhere to look at all. -/
theorem resolve_eq_error_iff (disk : Disk) (valid : ∀ pattern ∈ patterns, Config.isValidPattern pattern)
    {invalid : InvalidPattern} :
    disk.resolve roots patterns = .error invalid ↔
      roots ≠ [] ∧ patterns.find? listsSlash = some invalid.pattern := by
  rw [Disk.resolve, resolveBy_eq_error_iff,
    find?_pairs fun root pattern listed => isRejected_below disk root (valid pattern listed)]
  cases roots <;> simp

/-- They are looked for to the end if no class lists a slash. -/
theorem exists_resolve_iff (disk : Disk) (valid : ∀ pattern ∈ patterns, Config.isValidPattern pattern) :
    (∃ resolution, disk.resolve roots patterns = .ok resolution) ↔
      roots = [] ∨ ∀ pattern ∈ patterns, listsSlash pattern = false := by
  have found : (∃ resolution, disk.resolve roots patterns = .ok resolution) ↔
      ∀ invalid, disk.resolve roots patterns ≠ .error invalid := by
    cases disk.resolve roots patterns <;> simp
  simp only [found, ne_eq, resolve_eq_error_iff disk valid, not_and]
  constructor
  · intro never
    by_cases nowhere : roots = []
    · exact Or.inl nowhere
    · refine Or.inr fun pattern listed => ?_
      have none_ : patterns.find? listsSlash = none :=
        Option.eq_none_iff_forall_ne_some.2 fun text => never ⟨text⟩ nowhere
      exact Bool.eq_false_iff.2 (List.find?_eq_none.1 none_ pattern listed)
  · rintro (nowhere | clear) invalid somewhere
    · exact absurd nowhere somewhere
    · rw [List.find?_eq_none.2 fun pattern listed => by simp [clear pattern listed]]
      exact fun same => by cases same

/-- Settings without a fault have valid patterns only. -/
theorem valid_of_fault? {settings : Settings} {disk : Disk} (valid : settings.fault? disk = none) :
    ∀ pattern ∈ settings.patterns, Config.isValidPattern pattern := by
  unfold Settings.fault? at valid
  split at valid
  · cases valid
  · split at valid
    · cases valid
    · split at valid
      · cases valid
      · simpa using valid

/-- **Valid settings and the files they stand for.**  Settings that pass the check find their files, whatever
has become of the disk in the meantime, if and only if no pattern lists a slash in a class or there is
nowhere to look. Otherwise the first such pattern is refused. -/
theorem resolve_of_valid {settings : Settings} {disk : Disk} (valid : settings.fault? disk = none)
    (later : Disk) :
    ((∃ resolution, later.resolve settings.inputs settings.patterns = .ok resolution) ↔
      settings.inputs = [] ∨ ∀ pattern ∈ settings.patterns, listsSlash pattern = false) ∧
    ∀ invalid, later.resolve settings.inputs settings.patterns = .error invalid ↔
      settings.inputs ≠ [] ∧ settings.patterns.find? listsSlash = some invalid.pattern := by
  have patterns := valid_of_fault? valid
  exact ⟨exists_resolve_iff later patterns, fun _ => resolve_eq_error_iff later patterns⟩

/-- Settings that look below the working directory for these patterns. -/
def settingsFor (patterns : List String) : Settings :=
  Settings.resolve { output := ["out.json"], patterns := patterns } {} ⟨""⟩

/-- A class without a slash is looked for in a directory that has gone in the meantime. -/
theorem resolve_of_valid_class :
    (settingsFor ["[ab]/*.ts"]).fault? ⟨Tree.empty, []⟩ = none ∧
      ∃ resolution, (⟨Tree.empty, ["gone"]⟩ : Disk).resolve (settingsFor ["[ab]/*.ts"]).inputs
        (settingsFor ["[ab]/*.ts"]).patterns = .ok resolution := by
  have valid : (settingsFor ["[ab]/*.ts"]).fault? ⟨Tree.empty, []⟩ = none := by decide +kernel
  exact ⟨valid, (resolve_of_valid valid ⟨Tree.empty, ["gone"]⟩).1.2 (Or.inr (by decide +kernel))⟩

/-- A class with a slash passes the check, and is refused when it is looked for. -/
theorem refuses_valid_class :
    (settingsFor ["[a/b]"]).fault? ⟨Tree.empty, []⟩ = none ∧
      (⟨Tree.empty, []⟩ : Disk).isDirectory ⟨"."⟩ ∧
      (⟨Tree.empty, []⟩ : Disk).resolve (settingsFor ["[a/b]"]).inputs
        (settingsFor ["[a/b]"]).patterns = .error ⟨"[a/b]"⟩ := by
  decide +kernel

end MessageKeys.Files
