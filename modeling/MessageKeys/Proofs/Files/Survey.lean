import Mathlib.Data.List.Basic
import MessageKeys.Files.Resolve
/-!
# Proofs.Files.Survey — what comes of looking for files

Whatever a search gives for each pattern below each root, what is taken in as it comes is at every point what
has come up so far (`surveyed`): one thing that is come upon keeps it that way (`meet_surveyed`), so does one
pattern below one root (`tryBelow_surveyed`), and so do all of them (`foldlM_surveyed`). In the end there are
the regular files in the order in which they are met, each where it comes first, and the patterns that have
met none, unless some pattern is none (`resolveBy_eq`, `resolveBy_exact`).
-/
namespace MessageKeys.Files

variable {search : String → Option (List Hit)} {isFile : PathName → Bool} {roots : List PathName}
  {patterns : List String}

/-! ## Paths that come again -/

/-- Paths without those that come again, spelled the same or not. -/
def distinctPaths (seen : List (List Component)) : List PathName → List PathName
  | [] => []
  | path :: paths =>
    if seen.contains path.components then distinctPaths seen paths
    else path :: distinctPaths (path.components :: seen) paths

/-- Two paths mean the same. -/
def sameComponents (first second : PathName) : Bool := first.components == second.components

theorem distinctPaths_eq (seen : List (List Component)) (paths : List PathName) :
    distinctPaths seen paths =
      (paths.filter fun path => !seen.contains path.components).eraseDupsBy sameComponents := by
  induction paths generalizing seen with
  | nil => rfl
  | cons path paths ih =>
      rw [distinctPaths, List.filter_cons]
      by_cases before : seen.contains path.components = true
      · rw [if_pos before, before, Bool.not_true, if_neg Bool.false_ne_true, ih]
      · rw [if_neg before, if_pos (by simpa using before), List.eraseDupsBy_cons, List.filter_filter, ih]
        congr 2
        refine List.filter_congr fun other _ => ?_
        rw [List.contains_cons, sameComponents]
        cases other.components == path.components <;> simp

/-- One more path counts if nothing that means the same has come before. -/
theorem distinctPaths_concat (seen : List (List Component)) (paths : List PathName) (path : PathName) :
    distinctPaths seen (paths ++ [path]) = distinctPaths seen paths ++
      if path.components ∈ seen ∨ path.components ∈ (distinctPaths seen paths).map PathName.components
        then [] else [path] := by
  induction paths generalizing seen with
  | nil =>
      rw [List.nil_append, distinctPaths, distinctPaths]
      by_cases before : path.components ∈ seen <;> simp [before, distinctPaths]
  | cons first paths ih =>
      rw [List.cons_append, distinctPaths, distinctPaths]
      split
      · exact ih seen
      · rw [ih, List.cons_append, List.map_cons]
        simp only [List.mem_cons]
        grind

theorem prefix_distinctPaths (seen : List (List Component)) (paths others : List PathName) :
    distinctPaths seen paths <+: distinctPaths seen (paths ++ others) := by
  induction paths generalizing seen with
  | nil => exact List.nil_prefix
  | cons first paths ih =>
      rw [List.cons_append, distinctPaths, distinctPaths]
      split
      · exact ih seen
      · exact List.prefix_cons_inj _ |>.2 (ih _)

/-- Leaving paths out can be done before or after those that come again, if it goes by what the paths
mean. -/
theorem filter_distinctPaths {p : PathName → Bool} {paths : List PathName}
    (same : ∀ a ∈ paths, ∀ b ∈ paths, a.components = b.components → p a = p b)
    {seen seen' : List (List Component)}
    (known : ∀ path ∈ paths, p path → (path.components ∈ seen ↔ path.components ∈ seen')) :
    (distinctPaths seen paths).filter p = distinctPaths seen' (paths.filter p) := by
  induction paths generalizing seen seen' with
  | nil => rfl
  | cons path paths ih =>
      have others := fun a one b two => same a (List.mem_cons_of_mem path one) b
        (List.mem_cons_of_mem path two)
      rw [List.forall_mem_cons] at known
      rw [distinctPaths, List.filter_cons]
      cases kept : p path with
      | false =>
          -- Whatever means the same is left out as well.
          have apart : ∀ other ∈ paths, p other → other.components ≠ path.components := by
            intro other member kept' equal
            rw [same other (List.mem_cons_of_mem _ member) path List.mem_cons_self equal, kept] at kept'
            cases kept'
          rw [if_neg Bool.false_ne_true]
          split
          · exact ih others known.2
          · rw [List.filter_cons, kept, if_neg Bool.false_ne_true]
            refine ih others fun other member kept' => ?_
            rw [List.mem_cons, or_iff_right (apart other member kept')]
            exact known.2 other member kept'
      | true =>
          rw [if_pos rfl, distinctPaths]
          have both := known.1 kept
          by_cases before : path.components ∈ seen
          · rw [if_pos (by simpa using before), if_pos (by simpa using both.1 before)]
            exact ih others known.2
          · rw [if_neg (by simpa using before), if_neg (by simpa using fun there => before (both.2 there)),
              List.filter_cons, kept, if_pos rfl]
            congr 1
            refine ih others fun other member kept' => ?_
            rw [List.mem_cons, List.mem_cons, known.2 other member kept']

theorem mem_of_mem_distinctPaths {seen : List (List Component)} {path : PathName}
    {paths : List PathName} (member : path ∈ distinctPaths seen paths) : path ∈ paths := by
  induction paths generalizing seen with
  | nil => cases member
  | cons first paths ih =>
      rw [distinctPaths] at member
      split at member
      · exact List.mem_cons_of_mem _ (ih member)
      · rcases List.mem_cons.1 member with rfl | later
        · exact List.mem_cons_self
        · exact List.mem_cons_of_mem _ (ih later)

/-! ## One pattern below one root -/

/-- The regular files among what a search comes upon. -/
def filesAmong (isFile : PathName → Bool) (hits : List Hit) : List PathName :=
  hits.filterMap fun
    | .found path => if isFile path then some path else none
    | .unreadable => none

/-- What has come of a search that has met these files, could not read so many things, and has tried these
patterns in vain. -/
def surveyed (met : List PathName) (skipped : Nat) (unmatched : List String) : Survey where
  files := distinctPaths [] met
  skipped := skipped
  unmatched := unmatched
  seen := ((distinctPaths [] met).map PathName.components).reverse

section Steps

variable (met : List PathName) (skipped : Nat) (unmatched : List String)

theorem meet_surveyed (matched : Bool) (hit : Hit) :
    Survey.meet isFile (surveyed met skipped unmatched, matched) hit =
      (surveyed (met ++ filesAmong isFile [hit]) (skipped + [hit].count .unreadable) unmatched,
        matched || !(filesAmong isFile [hit]).isEmpty) := by
  cases hit with
  | unreadable => simp [Survey.meet, filesAmong, surveyed]
  | found path =>
      cases file : isFile path with
      | false => simp [Survey.meet, filesAmong, file]
      | true =>
          have among : filesAmong isFile [.found path] = [path] := by simp [filesAmong, file]
          rw [among, surveyed, surveyed, distinctPaths_concat]
          by_cases before : path.components ∈ (distinctPaths [] met).map PathName.components <;>
            simp [Survey.meet, file, before]

theorem filesAmong_cons (hit : Hit) (hits : List Hit) :
    filesAmong isFile (hit :: hits) = filesAmong isFile [hit] ++ filesAmong isFile hits :=
  (congrArg (filesAmong isFile) List.singleton_append.symm).trans List.filterMap_append

/-- Whatever a search comes upon is taken in one after the other. -/
theorem foldl_meet_surveyed (matched : Bool) (hits : List Hit) :
    hits.foldl (Survey.meet isFile) (surveyed met skipped unmatched, matched) =
      (surveyed (met ++ filesAmong isFile hits) (skipped + hits.count .unreadable) unmatched,
        matched || !(filesAmong isFile hits).isEmpty) := by
  induction hits generalizing met skipped matched with
  | nil => simp [filesAmong]
  | cons hit hits ih =>
      have counted : (hit :: hits).count .unreadable =
          [hit].count .unreadable + hits.count .unreadable := by
        rw [← List.singleton_append, List.count_append]
      rw [List.foldl_cons, meet_surveyed, ih, filesAmong_cons hit hits, counted, List.append_assoc,
        Nat.add_assoc, Bool.or_assoc]
      cases filesAmong isFile [hit] <;> simp

theorem tryBelow_surveyed {root : PathName} {pattern : String} {hits : List Hit}
    (found : search (patternBelow root pattern) = some hits) :
    Survey.tryBelow search isFile root (surveyed met skipped unmatched) pattern =
      .ok (surveyed (met ++ filesAmong isFile hits) (skipped + hits.count .unreadable)
        (unmatched ++ if (filesAmong isFile hits).isEmpty then [patternBelow root pattern] else [])) := by
  simp only [Survey.tryBelow, found, foldl_meet_surveyed, Bool.false_or]
  cases (filesAmong isFile hits).isEmpty with
  | true => rfl
  | false => rw [Bool.not_false, if_pos rfl, if_neg Bool.false_ne_true, List.append_nil]

theorem tryBelow_rejected {root : PathName} {pattern : String}
    (rejected : search (patternBelow root pattern) = none) (survey : Survey) :
    Survey.tryBelow search isFile root survey pattern = .error ⟨pattern⟩ := by
  simp only [Survey.tryBelow, rejected]

end Steps

/-! ## All patterns below all roots -/

/-- Every pattern with every root it is tried below. -/
def pairs (roots : List PathName) (patterns : List String) : List (PathName × String) :=
  roots.flatMap fun root => patterns.map fun pattern => (root, pattern)

theorem mem_pairs {root : PathName} {pattern : String} :
    (root, pattern) ∈ pairs roots patterns ↔ root ∈ roots ∧ pattern ∈ patterns := by
  simp [pairs]

theorem pairs_append (roots more : List PathName) (patterns : List String) :
    pairs (roots ++ more) patterns = pairs roots patterns ++ pairs more patterns :=
  List.flatMap_append

/-- The search takes the pattern for none. -/
def isRejected (search : String → Option (List Hit)) (pair : PathName × String) : Bool :=
  (search (patternBelow pair.1 pair.2)).isNone

/-- What a search comes upon for a pattern below a root. -/
def hitsBelow (search : String → Option (List Hit)) (pair : PathName × String) : List Hit :=
  (search (patternBelow pair.1 pair.2)).getD []

/-- The regular files that a search comes upon for a pattern below a root. -/
def filesMet (search : String → Option (List Hit)) (isFile : PathName → Bool)
    (pair : PathName × String) : List PathName := filesAmong isFile (hitsBelow search pair)

/-- How often something cannot be read while these patterns are tried. -/
def unread (search : String → Option (List Hit)) (tried : List (PathName × String)) : Nat :=
  (tried.flatMap (hitsBelow search)).count .unreadable

theorem foldlM_surveyed (search : String → Option (List Hit)) (isFile : PathName → Bool)
    (met : List PathName) (skipped : Nat) (unmatched : List String)
    (tried : List (PathName × String)) :
    tried.foldlM (fun survey pair => Survey.tryBelow search isFile pair.1 survey pair.2)
        (surveyed met skipped unmatched) =
      match tried.find? (isRejected search) with
      | some pair => .error ⟨pair.2⟩
      | none => .ok (surveyed (met ++ tried.flatMap (filesMet search isFile))
          (skipped + unread search tried)
          (unmatched ++ (tried.filter fun pair => (filesMet search isFile pair).isEmpty).map
            fun pair => patternBelow pair.1 pair.2)) := by
  induction tried generalizing met skipped unmatched with
  | nil => simp [pure, Except.pure, unread]
  | cons pair tried ih =>
      rw [List.foldlM_cons, List.find?_cons]
      cases found : search (patternBelow pair.1 pair.2) with
      | none =>
          have rejected : isRejected search pair = true := by rw [isRejected, found]; rfl
          rw [tryBelow_rejected found, rejected]
          rfl
      | some hits =>
          have accepted : isRejected search pair = false := by rw [isRejected, found]; rfl
          have below : hitsBelow search pair = hits := by rw [hitsBelow, found, Option.getD_some]
          have met_ : filesMet search isFile pair = filesAmong isFile hits := by rw [filesMet, below]
          have counted : unread search (pair :: tried) = hits.count .unreadable + unread search tried := by
            rw [unread, unread, List.flatMap_cons, List.count_append, below]
          rw [tryBelow_surveyed _ _ _ found, accepted]
          refine (ih _ _ _).trans ?_
          simp only [List.flatMap_cons, List.filter_cons, met_, counted, List.append_assoc, Nat.add_assoc]
          cases (filesAmong isFile hits).isEmpty <;> rfl

/-- Trying all patterns below one root after the other is trying every pattern with every root. -/
theorem foldlM_roots {σ ε : Type} (step : PathName → σ → String → Except ε σ) (start : σ)
    (roots : List PathName) (patterns : List String) :
    roots.foldlM (fun state root => patterns.foldlM (step root) state) start =
      (pairs roots patterns).foldlM (fun state pair => step pair.1 state pair.2) start := by
  induction roots generalizing start with
  | nil => rfl
  | cons root roots ih =>
      have first : pairs (root :: roots) patterns =
          patterns.map (root, ·) ++ pairs roots patterns := List.flatMap_cons
      rw [List.foldlM_cons, first, List.foldlM_append, List.foldlM_map]
      exact bind_congr fun state => ih state

/-- What has come of it when all patterns have been tried below all roots. -/
theorem resolveBy_eq (search : String → Option (List Hit)) (isFile : PathName → Bool)
    (roots : List PathName) (patterns : List String) :
    resolveBy search isFile roots patterns =
      match (pairs roots patterns).find? (isRejected search) with
      | some pair => .error ⟨pair.2⟩
      | none => .ok {
          files := distinctPaths [] ((pairs roots patterns).flatMap (filesMet search isFile))
          skipped := unread search (pairs roots patterns)
          unmatched := ((pairs roots patterns).filter fun pair =>
            (filesMet search isFile pair).isEmpty).map fun pair => patternBelow pair.1 pair.2 } := by
  have run := foldlM_surveyed search isFile [] 0 [] (pairs roots patterns)
  have begin : Survey.start = surveyed [] 0 [] := rfl
  unfold resolveBy
  rw [foldlM_roots, begin, run]
  cases (pairs roots patterns).find? (isRejected search) with
  | some pair => rfl
  | none => simp [bind, Except.bind, pure, Except.pure, surveyed]

/-- It fails for the first pattern that is none. -/
theorem resolveBy_eq_error_iff {invalid : InvalidPattern} :
    resolveBy search isFile roots patterns = .error invalid ↔
      ((pairs roots patterns).find? (isRejected search)).map (·.2) = some invalid.pattern := by
  rw [resolveBy_eq]
  cases (pairs roots patterns).find? (isRejected search) with
  | none => simp
  | some pair =>
      cases invalid
      simp

theorem exists_rejected_iff :
    (∃ pair, (pairs roots patterns).find? (isRejected search) = some pair) ↔
      ∃ root ∈ roots, ∃ pattern ∈ patterns, search (patternBelow root pattern) = none := by
  rw [← Option.isSome_iff_exists, List.find?_isSome]
  constructor
  · rintro ⟨⟨root, pattern⟩, member, rejected⟩
    obtain ⟨rooted, listed⟩ := mem_pairs.1 member
    exact ⟨root, rooted, pattern, listed, Option.isNone_iff_eq_none.1 rejected⟩
  · rintro ⟨root, rooted, pattern, listed, rejected⟩
    exact ⟨(root, pattern), mem_pairs.2 ⟨rooted, listed⟩, Option.isNone_iff_eq_none.2 rejected⟩

/-- The resolution in the end, if no pattern is none. -/
theorem eq_of_resolveBy {resolution : Resolution}
    (found : resolveBy search isFile roots patterns = .ok resolution) :
    resolution = {
      files := distinctPaths [] ((pairs roots patterns).flatMap (filesMet search isFile))
      skipped := unread search (pairs roots patterns)
      unmatched := ((pairs roots patterns).filter fun pair =>
        (filesMet search isFile pair).isEmpty).map fun pair => patternBelow pair.1 pair.2 } := by
  rw [resolveBy_eq] at found
  split at found
  · cases found
  · exact (Except.ok.inj found).symm

theorem distinctPaths_nil (paths : List PathName) :
    distinctPaths [] paths = paths.eraseDupsBy sameComponents := by
  rw [distinctPaths_eq, List.filter_eq_self.2 fun _ _ => by simp]

/-- More roots come behind those that were there. -/
theorem prefix_of_resolveBy_append {more : List PathName} {short long : Resolution}
    (found : resolveBy search isFile roots patterns = .ok short)
    (found' : resolveBy search isFile (roots ++ more) patterns = .ok long) :
    short.files <+: long.files ∧ short.unmatched <+: long.unmatched := by
  rw [eq_of_resolveBy found, eq_of_resolveBy found', pairs_append]
  simp only [List.flatMap_append, List.filter_append, List.map_append]
  exact ⟨prefix_distinctPaths .., List.prefix_append ..⟩

/-- **What is looked for below all roots, exactly.**  It fails if and only if some pattern below some root is
none. If it does not, there are the regular files of all of them, root by root and pattern by pattern, each
where it comes first, and the patterns without a regular file in this order; what could not be read is
counted; and more roots only add to the files and to these patterns. -/
theorem resolveBy_exact (search : String → Option (List Hit)) (isFile : PathName → Bool)
    (roots : List PathName) (patterns : List String) :
    ((∃ invalid, resolveBy search isFile roots patterns = .error invalid) ↔
      ∃ root ∈ roots, ∃ pattern ∈ patterns, search (patternBelow root pattern) = none) ∧
    ∀ resolution, resolveBy search isFile roots patterns = .ok resolution →
      resolution.files =
          ((pairs roots patterns).flatMap (filesMet search isFile)).eraseDupsBy sameComponents ∧
        resolution.unmatched = ((pairs roots patterns).filter fun pair =>
          (filesMet search isFile pair).isEmpty).map (fun pair => patternBelow pair.1 pair.2) ∧
        resolution.skipped = unread search (pairs roots patterns) ∧
        ∀ more long, resolveBy search isFile (roots ++ more) patterns = .ok long →
          resolution.files <+: long.files ∧ resolution.unmatched <+: long.unmatched := by
  constructor
  · rw [← exists_rejected_iff, resolveBy_eq]
    cases (pairs roots patterns).find? (isRejected search) <;> simp
  · intro resolution found
    have shape := eq_of_resolveBy found
    refine ⟨?_, by rw [shape], by rw [shape], fun _ _ found' => prefix_of_resolveBy_append found found'⟩
    rw [shape, distinctPaths_nil]

/-- What two searches come upon, with a file that goes by two spellings. -/
def overlapping (text : String) : Option (List Hit) :=
  if text == "a/x" then some [.found ⟨"a/x"⟩, .unreadable]
  else if text == "a/./x" then some [.found ⟨"a/./x"⟩]
  else some []

/-- The second root is the first one spelled another way: its file is not listed again, and yet its pattern
is not one without files. The third root adds to what there is without it. -/
theorem resolveBy_exact_overlapping :
    resolveBy overlapping (fun _ => true) [⟨"a"⟩, ⟨"a/."⟩] ["x"] = .ok ⟨[⟨"a/x"⟩], 1, []⟩ ∧
      resolveBy overlapping (fun _ => true) [⟨"a"⟩, ⟨"a/."⟩, ⟨"b"⟩] ["x"] =
        .ok ⟨[⟨"a/x"⟩], 1, ["b/x"]⟩ ∧
      [⟨"a/x"⟩] = ((pairs [⟨"a"⟩, ⟨"a/."⟩] ["x"]).flatMap
        (filesMet overlapping fun _ => true)).eraseDupsBy sameComponents ∧
      ([] : List String) <+: ["b/x"] := by
  have two : resolveBy overlapping (fun _ => true) [⟨"a"⟩, ⟨"a/."⟩] ["x"] =
      .ok ⟨[⟨"a/x"⟩], 1, []⟩ := by decide +kernel
  have three : resolveBy overlapping (fun _ => true) ([⟨"a"⟩, ⟨"a/."⟩] ++ [⟨"b"⟩]) ["x"] =
      .ok ⟨[⟨"a/x"⟩], 1, ["b/x"]⟩ := by decide +kernel
  obtain ⟨files, -, -, grows⟩ :=
    (resolveBy_exact overlapping (fun _ => true) [⟨"a"⟩, ⟨"a/."⟩] ["x"]).2 _ two
  exact ⟨two, three, files, (grows _ _ three).2⟩

end MessageKeys.Files
