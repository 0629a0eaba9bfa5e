import MessageKeys.Proofs.Files.SearchAgain
import MessageKeys.Proofs.Files.Survey
/-!
# Proofs.Files.Resolve — looking for files before and after files are written

A pattern below a root begins with the parts of the root, each standing for itself (`parts_below`). So a
search goes to the root first, and where the root was a directory before it climbs out of nothing that has
come on its way there (`level_of_flat`). Where every directory that it climbs out of was one before
(`Level`), the files of all patterns are the same again, less those that are written (`resolve_again`).
-/
namespace MessageKeys.Files

namespace Glob

/-- The pieces that the parts of a pattern are read from. -/
def piecesOf (relative : List Char) : List (List Char) :=
  if relative.isEmpty then [[]] else dropEmptyEnd (Text.split '/' relative)

theorem dropEmptyEnd_append (lead : List (List Char)) {rest : List (List Char)} (some_ : rest ≠ []) :
    ∃ kept, dropEmptyEnd (lead ++ rest) = lead ++ kept ∧ ∀ piece ∈ kept, piece ∈ rest := by
  unfold dropEmptyEnd
  split
  · exact ⟨rest.dropLast, List.dropLast_append_of_ne_nil some_, fun _ => (List.dropLast_subset rest ·)⟩
  · exact ⟨rest, rfl, fun _ => id⟩

theorem mem_split_of_mem_piecesOf {text piece : List Char} (member : piece ∈ piecesOf text) :
    piece ∈ Text.split '/' text := by
  unfold piecesOf at member
  split at member
  · rename_i empty
    rw [List.isEmpty_iff.1 empty]
    exact member
  · obtain ⟨kept, shape, among⟩ := dropEmptyEnd_append [] (Text.split_ne_nil '/' text)
    rw [List.nil_append, List.nil_append] at shape
    exact among piece (shape ▸ member)

theorem piecesOf_escape (text rest : List Char) :
    ∃ kept, piecesOf (Pattern.escape text ++ '/' :: rest) =
        (Text.split '/' text).map Pattern.escape ++ kept ∧
      ∀ piece ∈ kept, piece ∈ Text.split '/' rest := by
  rw [piecesOf, if_neg (by simp), Text.split_append_mark, Pattern.split_escape]
  exact dropEmptyEnd_append _ (Text.split_ne_nil '/' rest)

theorem ofChars?_eq_some {text : List Char} {glob : Glob} (read : ofChars? text = some glob) :
    glob.isAbsolute = (text.head? == some '/') ∧ ∃ parts, glob.parts = collapse parts ∧
      (piecesOf (if glob.isAbsolute then text.tail else text)).mapM Pattern.ofChars? = some parts := by
  unfold ofChars? at read
  split at read
  · cases read
  · obtain ⟨parts, found, rfl⟩ := Option.map_eq_some_iff.1 read
    exact ⟨rfl, parts, rfl, found⟩

theorem collapse_cons {first : Pattern} (single : first.isRecursive = false) (parts : List Pattern) :
    collapse (first :: parts) = first :: collapse parts := by
  cases parts with
  | nil => rfl
  | cons second rest => rw [collapse, single, Bool.false_and, if_neg Bool.false_ne_true]

theorem collapse_plain (texts : List (List Char)) (parts : List Pattern) :
    collapse (texts.map Pattern.plain ++ parts) = texts.map Pattern.plain ++ collapse parts := by
  induction texts with
  | nil => rfl
  | cons text texts ih =>
      rw [List.map_cons, List.cons_append, collapse_cons (Pattern.isRecursive_plain text), ih,
        List.cons_append]

theorem mem_of_mem_collapse {part : Pattern} {parts : List Pattern} (member : part ∈ collapse parts) :
    part ∈ parts := by
  fun_induction collapse parts with
  | case1 first second rest _ ih => exact List.mem_cons_of_mem _ (ih member)
  | case2 first second rest _ ih =>
      rcases List.mem_cons.1 member with rfl | later
      · exact List.mem_cons_self
      · exact List.mem_cons_of_mem _ (ih later)
  | case3 parts => exact member

theorem mapM_escape (texts : List (List Char)) :
    (texts.map Pattern.escape).mapM Pattern.ofChars? = some (texts.map Pattern.plain) := by
  induction texts with
  | nil => rfl
  | cons text texts ih =>
      rw [List.map_cons, List.mapM_cons, Pattern.ofChars?_escape, ih]
      rfl

theorem exists_of_mem_mapM {pieces : List (List Char)} {parts : List Pattern}
    (read : pieces.mapM Pattern.ofChars? = some parts) {part : Pattern} (member : part ∈ parts) :
    ∃ piece ∈ pieces, Pattern.ofChars? piece = some part := by
  induction pieces generalizing parts with
  | nil =>
      cases read
      cases member
  | cons piece pieces ih =>
      rw [List.mapM_cons] at read
      cases first : Pattern.ofChars? piece with
      | none =>
          rw [first] at read
          cases read
      | some found =>
          cases rest : pieces.mapM Pattern.ofChars? with
          | none =>
              rw [first, rest] at read
              cases read
          | some others =>
              rw [first, rest] at read
              cases read
              rcases List.mem_cons.1 member with rfl | later
              · exact ⟨piece, List.mem_cons_self, first⟩
              · obtain ⟨piece', among, same⟩ := ih rest later
                exact ⟨piece', List.mem_cons_of_mem _ among, same⟩

theorem exists_of_mem_parts {text : List Char} {parts : List Pattern}
    (read : (piecesOf text).mapM Pattern.ofChars? = some parts) {part : Pattern}
    (member : part ∈ collapse parts) :
    ∃ piece ∈ Text.split '/' text, Pattern.ofChars? piece = some part := by
  obtain ⟨piece, among, same⟩ := exists_of_mem_mapM read (mem_of_mem_collapse member)
  exact ⟨piece, mem_split_of_mem_piecesOf among, same⟩

/-- The parts of an escaped text and what follows it. -/
theorem parts_of_escape {text rest : List Char} {parts : List Pattern}
    (read : (piecesOf (Pattern.escape text ++ '/' :: rest)).mapM Pattern.ofChars? = some parts) :
    ∃ others, collapse parts = (Text.split '/' text).map Pattern.plain ++ others ∧
      ∀ part ∈ others, ∃ piece ∈ Text.split '/' rest, Pattern.ofChars? piece = some part := by
  obtain ⟨kept, shape, among⟩ := piecesOf_escape text rest
  rw [shape, List.mapM_append, mapM_escape] at read
  cases found : kept.mapM Pattern.ofChars? with
  | none =>
      rw [found] at read
      cases read
  | some others =>
      rw [found] at read
      cases read
      refine ⟨collapse others, collapse_plain _ others, fun part member => ?_⟩
      obtain ⟨piece, listed, same⟩ := exists_of_mem_mapM found (mem_of_mem_collapse member)
      exact ⟨piece, among piece listed, same⟩

/-- The parts of an escaped text, a slash and what follows it. A slash at the start makes no part. -/
theorem parts_of_below {text rest : List Char} {glob : Glob}
    (read : ofChars? (Pattern.escape text ++ '/' :: rest) = some glob) :
    ∃ lead texts others, glob.parts = texts.map Pattern.plain ++ others ∧
      Text.split '/' text = lead ++ texts ∧ (∀ piece ∈ lead, piece = []) ∧
      (∀ part ∈ others, ∃ piece ∈ Text.split '/' rest, Pattern.ofChars? piece = some part) ∧
      glob.isAbsolute = ((text ++ ['/']).head? == some '/') := by
  obtain ⟨absolute, parts, shape, pieces⟩ := ofChars?_eq_some read
  cases text with
  | nil =>
      rw [absolute, Pattern.escape_eq, List.flatMap_nil, List.nil_append, if_pos (by rfl)] at pieces
      refine ⟨[[]], [], glob.parts, rfl, rfl, by simp, fun part member => ?_, absolute⟩
      rw [shape] at member
      exact exists_of_mem_parts pieces member
  | cons c tail =>
      by_cases slash : c = '/'
      · subst slash
        rw [absolute, Pattern.escape_eq, List.flatMap_cons, ← Pattern.escape_eq, if_pos (by rfl)]
          at pieces
        obtain ⟨others, apart, among⟩ := parts_of_escape pieces
        refine ⟨[[]], Text.split '/' tail, others, by rw [shape, apart], ?_, by simp, among, absolute⟩
        rw [Text.split, if_pos (by rfl)]
        rfl
      · have start : (Pattern.escape (c :: tail) ++ '/' :: rest).head? ≠ some '/' := by
          rw [Pattern.escape_eq, List.flatMap_cons, Pattern.escapeChar]
          split <;> simp [slash]
        have relative : glob.isAbsolute = false := by rw [absolute, beq_eq_false_iff_ne.2 start]
        rw [relative, if_neg Bool.false_ne_true] at pieces
        obtain ⟨others, apart, among⟩ := parts_of_escape pieces
        refine ⟨[], Text.split '/' (c :: tail), others, by rw [shape, apart], rfl, by simp, among, ?_⟩
        rw [relative, eq_comm, List.cons_append, List.head?_cons, beq_eq_false_iff_ne]
        simpa using slash

end Glob

/-! ## A pattern below a root -/

theorem head_relativePattern (pattern : String) : (relativePattern pattern).head? ≠ some '/' := by
  intro first
  have stops := List.head?_dropWhile_not (· == '/') pattern.toList
  rw [relativePattern] at first
  rw [first] at stops
  cases stops

theorem patternBelow_empty {root : PathName} (empty : root.text.isEmpty) (pattern : String) :
    (patternBelow root pattern).toList = relativePattern pattern := by
  have none_ : root.text.toList = [] := by simpa using empty
  rw [patternBelow, none_, PathName.join, if_pos (by simp [Pattern.escape]), String.toList_ofList]

/-- Below a root that has a text, the pattern is the escaped root, a slash and the pattern itself. -/
theorem patternBelow_eq {root : PathName} (named : root.text.isEmpty = false) (pattern : String) :
    ∃ text, (root.text.toList = text ∨ root.text.toList = text ++ ['/']) ∧
      (patternBelow root pattern).toList =
        Pattern.escape text ++ '/' :: relativePattern pattern := by
  have relative : (PathName.mk (String.ofList (relativePattern pattern))).isAbsolute = false := by
    rw [PathName.isAbsolute, String.toList_ofList]
    simpa using head_relativePattern pattern
  have some_ := PathName.toList_ne_nil named
  obtain ⟨front, last, shape⟩ : ∃ front last, root.text.toList = front ++ [last] := by
    rcases List.eq_nil_or_concat root.text.toList with none_ | ⟨front, last, shape⟩
    · exact absurd none_ some_
    · exact ⟨front, last, by rw [shape, List.concat_eq_append]⟩
  have escaped : Pattern.escape root.text.toList =
      Pattern.escape front ++ Pattern.escapeChar last := by
    rw [shape, Pattern.escape_eq, List.flatMap_append, List.flatMap_singleton, ← Pattern.escape_eq]
  have full : (PathName.mk (String.ofList (Pattern.escape root.text.toList))).text.isEmpty = false := by
    rw [Bool.eq_false_iff]
    intro empty
    have none_ := congrArg String.toList (String.isEmpty_iff.1 empty)
    rw [String.toList_ofList, escaped] at none_
    have ends := (List.append_eq_nil_iff.1 none_).2
    unfold Pattern.escapeChar at ends
    split at ends <;> cases ends
  rw [patternBelow, PathName.text_join full relative, String.toList_ofList, String.toList_ofList,
    escaped]
  by_cases slash : last = '/'
  · subst slash
    refine ⟨front, Or.inr shape, ?_⟩
    have plain : Pattern.escapeChar '/' = ['/'] := rfl
    rw [plain, if_pos (by simp), List.append_assoc, List.singleton_append]
  · refine ⟨root.text.toList, Or.inl rfl, ?_⟩
    rw [if_neg, escaped]
    unfold Pattern.escapeChar
    split <;> simp [slash]

theorem segments_of_toList {path : PathName} {text : List Char} (shape : path.text.toList = text) :
    path.segments = (Text.split '/' text).map String.ofList := by
  rw [PathName.segments, Text.splitString, shape]

theorem plain_names (texts : List (List Char)) :
    (texts.map String.ofList).map (fun name => Pattern.plain name.toList) =
      texts.map Pattern.plain := by
  rw [List.map_map]
  exact List.map_congr_left fun text _ => by rw [Function.comp_apply, String.toList_ofList]

/-- The parts of a pattern below a root are the names on the way to the root, each of them standing for
itself, and the parts of the pattern alone. -/
theorem parts_below {root : PathName} {pattern : String} {glob : Glob}
    (read : Glob.ofChars? (patternBelow root pattern).toList = some glob) :
    ∃ names rest, glob.parts = names.map (fun name => Pattern.plain name.toList) ++ rest ∧
      (∀ part ∈ rest, ∃ piece ∈ Text.split '/' (relativePattern pattern),
        Pattern.ofChars? piece = some part) ∧
      (∀ name ∈ names, name ∈ root.segments) ∧
      (root.text.isEmpty = false → glob.isAbsolute = root.isAbsolute ∧
        ∃ lead after, (∀ segment ∈ lead ++ after, isVoid segment) ∧
          root.segments = lead ++ names ++ after) := by
  cases empty : root.text.isEmpty with
  | true =>
      obtain ⟨absolute, parts, shape, pieces⟩ := Glob.ofChars?_eq_some read
      rw [patternBelow_empty empty] at absolute pieces
      rw [beq_eq_false_iff_ne.2 (head_relativePattern pattern)] at absolute
      rw [absolute, if_neg Bool.false_ne_true] at pieces
      refine ⟨[], glob.parts, rfl, fun part member => ?_, by simp, by simp⟩
      rw [shape] at member
      exact Glob.exists_of_mem_parts pieces member
  | false =>
      obtain ⟨text, spelled, whole⟩ := patternBelow_eq empty pattern
      rw [whole] at read
      obtain ⟨lead, texts, others, shape, split, blank, among, absolute⟩ := Glob.parts_of_below read
      -- A root without the slash at its end has the same parts but an empty one.
      have ending : ∃ after, (∀ segment ∈ after, isVoid segment) ∧
          root.segments = (lead.map String.ofList ++ texts.map String.ofList) ++ after := by
        rw [← List.map_append, ← split]
        rcases spelled with same | same
        · exact ⟨[], by simp, by rw [segments_of_toList same, List.append_nil]⟩
        · refine ⟨[""], by simp [isVoid], ?_⟩
          rw [segments_of_toList same, Text.split_append_mark, List.map_append]
          rfl
      obtain ⟨after, void, segments⟩ := ending
      refine ⟨texts.map String.ofList, others, by rw [shape, plain_names], among, fun name member => ?_,
        fun _ => ⟨?_, lead.map String.ofList, after, ?_, segments⟩⟩
      · rw [segments]
        exact List.mem_append_left _ (List.mem_append_right _ member)
      · rw [absolute, PathName.isAbsolute]
        rcases spelled with same | same
        · cases start : text with
          | nil => exact absurd (same.trans start) (PathName.toList_ne_nil empty)
          | cons c tail => rw [same, start, List.cons_append, List.head?_cons, List.head?_cons]
        · rw [same]
      · intro segment member
        rcases List.mem_append.1 member with early | late
        · obtain ⟨piece, inside, rfl⟩ := List.mem_map.1 early
          rw [blank piece inside]
          rfl
        · exact void segment late

/-! ## Where a search climbs -/

namespace Glob

variable {old new disk : Disk}

/-- Where a search starts. -/
def start (glob : Glob) : PathName := ⟨if glob.isAbsolute then "/" else "."⟩

theorem locate_start {glob : Glob} {here : Location} :
    disk.locate glob.start = .ok here ↔
      here = (if glob.isAbsolute then [] else disk.current) ∧ disk.tree.isDirectory here := by
  unfold start
  cases glob.isAbsolute with
  | true =>
      have top : disk.locate ⟨"/"⟩ = .ok [] :=
        Disk.locate_eq_ok_iff.2 ⟨rfl, Disk.follow_void (Tree.isDirectory_nil _) (by decide)⟩
      simp only [if_true, top, Except.ok.injEq]
      exact ⟨fun same => ⟨same.symm, same ▸ Tree.isDirectory_nil _⟩, fun both => both.1.symm⟩
  | false =>
      simp only [Bool.false_eq_true, if_false]
      rw [Disk.locate_isCurrent (by decide)]
      exact and_congr_right fun same => by rw [same]

/-- Parts that are not tried on `..` climb out of nothing. -/
theorem not_climbs {parts : List Pattern} (flat : ∀ part ∈ parts, ¬ climbs part) {here place : Location} :
    ¬ Climbs disk parts here place := by
  intro up
  induction up with
  | up tried => exact flat _ List.mem_cons_self (climbs_iff.2 tried)
  | step _ _ _ ih => exact ih fun part member => flat part (List.mem_cons_of_mem _ member)
  | deeper _ _ _ _ ih =>
      exact ih fun part member => flat part (List.mem_cons_of_mem _ (List.mem_cons_of_mem _ member))

/-- Names that led somewhere before, one after the other, are climbed out of directories that were there. -/
theorem calm_of_follow {names : List String} {parts : List Pattern} {here there : Location}
    (way : old.follow here names = .ok there) (flat : ∀ part ∈ parts, ¬ climbs part) :
    Calm old new (names.map (fun name => Pattern.plain name.toList) ++ parts) here := by
  induction names generalizing here with
  | nil => exact fun place up => absurd up (not_climbs flat)
  | cons name names ih =>
      obtain ⟨on, way⟩ := Disk.follow_cons_iff.1 way
      have onward := ih way
      intro place up
      rw [List.map_cons, List.cons_append] at up
      generalize names.map (fun name => Pattern.plain name.toList) ++ parts = others at onward up
      cases up with
      | up => exact (Bool.and_eq_true _ _ ▸ on).1
      | step tried _ rest =>
          rw [String.toList_inj.1 (eq_of_tries_plain tried)] at rest
          exact onward place rest
      | deeper recursive =>
          rw [Pattern.isRecursive_plain] at recursive
          cases recursive

end Glob

/-- A search for patterns below roots climbs out of a directory by `..`. -/
def Climbs (disk : Disk) (roots : List PathName) (patterns : List String) (place : Location) : Prop :=
  ∃ root ∈ roots, ∃ pattern ∈ patterns, ∃ glob here,
    Glob.ofChars? (patternBelow root pattern).toList = some glob ∧
      disk.locate glob.start = .ok here ∧ Glob.Climbs disk glob.parts here place

/-- Every directory that a search climbs out of was one before. -/
def Level (old new : Disk) (roots : List PathName) (patterns : List String) : Prop :=
  ∀ place, Climbs new roots patterns place → old.tree.isDirectory place

/-- A part of the pattern is tried on `..`. -/
def climbs (pattern : String) : Bool :=
  (Text.split '/' (relativePattern pattern)).any fun piece =>
    (Pattern.ofChars? piece).any Glob.climbs

/-- A name that stands for itself is tried on `..` only if it is `..`. -/
theorem eq_parent_of_climbs {name : String} (up : Glob.climbs (Pattern.plain name.toList)) :
    ".." = name :=
  String.toList_inj.1 (Glob.eq_of_tries_plain (Glob.climbs_iff.1 up))

/-- The names on the way to a directory can be followed without the void segments around them. -/
theorem exists_follow_of_isDirectory {disk : Disk} {root : PathName} {lead names after : List String}
    (directory : disk.isDirectory root) (segments : root.segments = lead ++ names ++ after)
    (void : ∀ segment ∈ lead, isVoid segment) :
    ∃ there, disk.follow (disk.base root) names = .ok there := by
  obtain ⟨there, found, -⟩ := Disk.locate_of_at? (eq_of_beq directory)
  obtain ⟨-, way⟩ := Disk.locate_eq_ok_iff.1 found
  have base := Disk.isDirectory_of_follow (Disk.segments_ne_nil root) way
  rw [segments, List.append_assoc, Disk.follow_append_iff] at way
  obtain ⟨middle, ahead, way⟩ := way
  rw [Disk.follow_void base void] at ahead
  cases ahead
  obtain ⟨place, way, -⟩ := Disk.follow_append_iff.1 way
  exact ⟨place, way⟩

/-- Where no part of a pattern is tried on `..` a search is level below roots without `..`, and below those
that were directories before. -/
theorem level_of_flat {old new : Disk} (within : Disk.Within old new) {roots : List PathName}
    {patterns : List String} (flat : ∀ pattern ∈ patterns, climbs pattern = false)
    (rooted : ∀ root ∈ roots, ".." ∉ root.segments ∨ old.isDirectory root) :
    Level old new roots patterns := by
  rintro place ⟨root, member, pattern, listed, glob, here, read, start, up⟩
  obtain ⟨names, rest, shape, pieces, among, rooting⟩ := parts_below read
  rw [shape] at up
  have level : ∀ part ∈ rest, ¬ Glob.climbs part := by
    intro part inside up
    obtain ⟨piece, own, found⟩ := pieces part inside
    have stays := flat pattern listed
    rw [climbs, List.any_eq_false] at stays
    have down := stays piece own
    rw [found] at down
    exact down up
  rcases rooted root member with straight | directory
  · refine absurd up (Glob.not_climbs fun part inside => ?_)
    rcases List.mem_append.1 inside with own | other
    · obtain ⟨name, one, rfl⟩ := List.mem_map.1 own
      intro up
      exact straight (eq_parent_of_climbs up ▸ among name one)
    · exact level part other
  · obtain ⟨_, found, -⟩ := Disk.locate_of_at? (eq_of_beq directory)
    obtain ⟨absolute, lead, after, void, segments⟩ := rooting (Disk.locate_eq_ok_iff.1 found).1
    obtain ⟨there, way⟩ := exists_follow_of_isDirectory directory segments fun segment inside =>
      void segment (List.mem_append_left _ inside)
    -- Both searches start where the root does, for the working directory is the same.
    have same : here = old.base root := by
      rw [(Glob.locate_start.1 start).1, absolute, within.current, Disk.base]
    rw [same] at up
    exact Glob.calm_of_follow way level place up

/-! ## The same sources -/

namespace Glob

variable {old new : Disk} {written : Location → Bool}

theorem slash_notMem_of_below {root : PathName} {pattern : String} {glob : Glob}
    (read : ofChars? (patternBelow root pattern).toList = some glob) :
    ∀ part ∈ glob.parts, Piece.char '/' ∉ part := by
  obtain ⟨names, rest, shape, pieces, among, -⟩ := parts_below read
  intro part member slash
  rw [shape] at member
  rcases List.mem_append.1 member with own | other
  · obtain ⟨name, listed, rfl⟩ := List.mem_map.1 own
    obtain ⟨c, inside, same⟩ := List.mem_map.1 slash
    split at same
    · cases same
    · cases same
      exact Disk.slash_notMem_of_mem_segments (among name listed) inside
  · obtain ⟨piece, listed, found⟩ := pieces part other
    exact Text.notMem_of_mem_split listed (Pattern.mem_of_readFrom? found slash)

/-- A level search below a root finds the same sources. -/
theorem sources_below (renewed : Renewed old new written) {roots : List PathName}
    {patterns : List String} (level : Level old new roots patterns) {root : PathName}
    (rooted : root ∈ roots) {pattern : String} (listed : pattern ∈ patterns) {glob : Glob}
    (read : ofChars? (patternBelow root pattern).toList = some glob) :
    (glob.expand new).filter (new.isSource written) =
      (glob.expand old).filter (old.isSource written) := by
  have tidy := slash_notMem_of_below read
  have calm : ∀ {here}, new.locate glob.start = .ok here → Calm old new glob.parts here :=
    fun start place up => level place ⟨root, rooted, pattern, listed, glob, _, read, start, up⟩
  rw [expand, expand, ← start]
  by_cases before : ∃ here, old.locate glob.start = .ok here
  · obtain ⟨here, found⟩ := before
    exact sources_of_calm renewed tidy (calm (renewed.within.locate found)) found
  · have named : glob.start.text.isEmpty = false := by
      unfold start
      split <;> rfl
    rw [sources_of_lost tidy named fun here found => before ⟨here, found⟩]
    by_cases after : ∃ here, new.locate glob.start = .ok here
    · obtain ⟨here, found⟩ := after
      refine sources_of_stray renewed tidy (calm found) found ?_
      obtain ⟨place, directory⟩ := locate_start.1 found
      by_contra there
      rw [renewed.within.current] at place
      exact before ⟨here, locate_start.2
        ⟨place, isDirectory_of_renewed renewed (Option.isSome_iff_ne_none.2 there) directory⟩⟩
    · exact sources_of_lost tidy named fun here found => after ⟨here, found⟩

end Glob

/-! ## The same files -/

variable {old new disk : Disk} {written : Location → Bool} {roots : List PathName}
  {patterns : List String}

/-- The files that a pattern below a root stands for. -/
def filesBelow (disk : Disk) (root : PathName) (pattern : String) : List PathName :=
  match Glob.ofChars? (patternBelow root pattern).toList with
  | none => []
  | some glob => (glob.expand disk).filter disk.isFile

/-- The files of all patterns below all roots, with those that come again. -/
def filesOf (disk : Disk) (roots : List PathName) (patterns : List String) : List PathName :=
  (pairs roots patterns).flatMap fun pair => filesBelow disk pair.1 pair.2

theorem filesBelow_eq {root : PathName} {pattern : String} {glob : Glob}
    (read : Glob.ofChars? (patternBelow root pattern).toList = some glob) :
    filesBelow disk root pattern = (glob.expand disk).filter disk.isFile := by
  unfold filesBelow
  simp only [read]

theorem search_eq_none_iff {text : String} :
    disk.search text = none ↔ Glob.ofChars? text.toList = none := Option.map_eq_none_iff

/-- On a disk everything can be read, so a search comes upon paths only. -/
theorem filesMet_search (disk : Disk) (root : PathName) (pattern : String) :
    filesMet disk.search disk.isFile (root, pattern) = filesBelow disk root pattern := by
  unfold filesMet hitsBelow filesBelow Disk.search
  cases Glob.ofChars? (patternBelow root pattern).toList with
  | none => rfl
  | some glob =>
      rw [Option.map_some, Option.getD_some, filesAmong, List.filterMap_map]
      exact congrFun List.filterMap_eq_filter _

theorem unread_search (disk : Disk) (tried : List (PathName × String)) : unread disk.search tried = 0 := by
  rw [unread, List.count_eq_zero]
  intro member
  obtain ⟨pair, -, inside⟩ := List.mem_flatMap.1 member
  unfold hitsBelow Disk.search at inside
  cases read : Glob.ofChars? (patternBelow pair.1 pair.2).toList <;> simp [read] at inside

/-- Every pattern below every root is one. -/
def Readable (roots : List PathName) (patterns : List String) : Prop :=
  ∀ root ∈ roots, ∀ pattern ∈ patterns, ∃ glob,
    Glob.ofChars? (patternBelow root pattern).toList = some glob

theorem readable_of_resolve {resolution : Resolution}
    (found : disk.resolve roots patterns = .ok resolution) : Readable roots patterns := by
  intro root rooted pattern listed
  rw [← Option.isSome_iff_exists, Option.isSome_iff_ne_none, ne_eq, ← search_eq_none_iff]
  intro rejected
  obtain ⟨pair, first⟩ := exists_rejected_iff.2 ⟨root, rooted, pattern, listed, rejected⟩
  rw [Disk.resolve, resolveBy_eq, first] at found
  cases found

/-- Where every pattern is one, files are found. -/
theorem resolve_of_readable (disk : Disk) (readable : Readable roots patterns) :
    disk.resolve roots patterns = .ok {
      files := distinctPaths [] (filesOf disk roots patterns)
      skipped := 0
      unmatched := ((pairs roots patterns).filter fun pair =>
        (filesBelow disk pair.1 pair.2).isEmpty).map fun pair => patternBelow pair.1 pair.2 } := by
  have accepted : (pairs roots patterns).find? (isRejected disk.search) = none := by
    rw [Option.eq_none_iff_forall_not_mem]
    intro pair first
    obtain ⟨root, rooted, pattern, listed, rejected⟩ := exists_rejected_iff.1 ⟨pair, first⟩
    obtain ⟨glob, read⟩ := readable root rooted pattern listed
    rw [search_eq_none_iff, read] at rejected
    cases rejected
  have met : filesMet disk.search disk.isFile = fun pair => filesBelow disk pair.1 pair.2 :=
    funext fun pair => filesMet_search disk pair.1 pair.2
  rw [Disk.resolve, resolveBy_eq, accepted]
  simp only [met, unread_search, filesOf]

theorem isFile_of_mem_filesBelow {root path : PathName} {pattern : String}
    (member : path ∈ filesBelow disk root pattern) : disk.isFile path := by
  unfold filesBelow at member
  split at member
  · cases member
  · exact (List.mem_filter.1 member).2

theorem isFile_of_resolve {resolution : Resolution}
    (found : disk.resolve roots patterns = .ok resolution) {path : PathName}
    (member : path ∈ resolution.files) : disk.isFile path := by
  rw [resolve_of_readable disk (readable_of_resolve found), Except.ok.injEq] at found
  rw [← found] at member
  obtain ⟨pair, -, inside⟩ := List.mem_flatMap.1 (mem_of_mem_distinctPaths member)
  exact isFile_of_mem_filesBelow inside

theorem locate_of_isFile {path : PathName} (file : disk.isFile path) :
    ∃ place content, disk.locate path = .ok place ∧ disk.tree.at? place = some (.file content) := by
  unfold Disk.isFile at file
  split at file
  · rename_i content found
    obtain ⟨place, there, same⟩ := Disk.locate_of_at? found
    exact ⟨place, content, there, same⟩
  · cases file

theorem isFile_of_isSource {path : PathName} (source : disk.isSource written path) :
    disk.isFile path := by
  unfold Disk.isSource at source
  split at source
  · exact (Bool.and_eq_true _ _ ▸ source).1
  · cases source

theorem isSource_of_components {first second : PathName} (one : disk.isFile first)
    (other : disk.isFile second) (same : first.components = second.components) :
    disk.isSource written first = disk.isSource written second := by
  obtain ⟨place, -, found, -⟩ := locate_of_isFile one
  obtain ⟨place', -, found', -⟩ := locate_of_isFile other
  rw [Disk.isSource, Disk.isSource, found, found', one, other,
    Disk.locate_of_components found found' same]

/-- The sources among the files come in the order in which they are met. -/
theorem sources_distinctPaths :
    (distinctPaths [] (filesOf disk roots patterns)).filter (disk.isSource written) =
      distinctPaths [] ((filesOf disk roots patterns).filter (disk.isSource written)) := by
  have files : ∀ path ∈ filesOf disk roots patterns, disk.isFile path := by
    intro path member
    obtain ⟨pair, -, inside⟩ := List.mem_flatMap.1 member
    exact isFile_of_mem_filesBelow inside
  exact filter_distinctPaths (fun a one b other same =>
    isSource_of_components (files a one) (files b other) same) fun _ _ _ => Iff.rfl

/-- **The same sources are found again.**  After files are written, and directories have come that no search
climbs out of, every pattern still stands for the same files, in the same order, less those that were
written. -/
theorem resolve_again (renewed : Renewed old new written) (level : Level old new roots patterns)
    {first : Resolution} (found : old.resolve roots patterns = .ok first) :
    ∃ second, new.resolve roots patterns = .ok second ∧
      second.files.filter (new.isSource written) = first.files.filter (old.isSource written) := by
  have readable := readable_of_resolve found
  rw [resolve_of_readable old readable, Except.ok.injEq] at found
  subst found
  refine ⟨_, resolve_of_readable new readable, ?_⟩
  simp only [sources_distinctPaths]
  congr 1
  rw [filesOf, filesOf, List.filter_flatMap, List.filter_flatMap]
  refine List.flatMap_congr fun pair member => ?_
  obtain ⟨rooted, listed⟩ := mem_pairs.1 (show (pair.1, pair.2) ∈ _ from member)
  obtain ⟨glob, read⟩ := readable pair.1 rooted pair.2 listed
  have stays : ∀ disk : Disk, ((glob.expand disk).filter disk.isFile).filter
      (disk.isSource written) = (glob.expand disk).filter (disk.isSource written) := by
    intro disk
    rw [List.filter_filter]
    refine List.filter_congr fun path _ => ?_
    cases source : disk.isSource written path with
    | false => rfl
    | true => rw [isFile_of_isSource source, Bool.and_self]
  rw [filesBelow_eq read, filesBelow_eq read, stays, stays]
  exact Glob.sources_below renewed level rooted listed read

end MessageKeys.Files
