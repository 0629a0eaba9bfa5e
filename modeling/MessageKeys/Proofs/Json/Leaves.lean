import MessageKeys.Proofs.Json.Nesting
/-!
# Proofs.Json.Leaves — the order in which an object gives its entries back

Going through an object from the front meets the entries that made it name by name, so those below one
name come together even where they were put in at different times. Three things are left of their order.
What is met makes the same object again (`nests_leafPaths`). An object depends only on its entries as a
set and on the order in which names first come up below each path (`Nests.unique`). And entries that lie
side by side below every path come back in the order they had (`leafPaths_of_grouped`).
-/
namespace MessageKeys.Json
open Occurrences

section Under

variable {name : String} {entries : Paths}

/-- Entries that have all been put below one name. -/
theorem under_map_cons (name other : String) (entries : Paths) :
    under name (entries.map fun entry => (other :: entry.1, entry.2)) =
      if other = name then entries else [] := by
  induction entries with
  | nil => simp [under]
  | cons entry entries ih =>
      rw [List.map_cons, ← List.singleton_append, under_append, ih]
      by_cases same : other = name
      · rw [if_pos same, if_pos same, same, under_same, List.singleton_append]
      · rw [if_neg same, if_neg same, under_other same, List.append_nil]

theorem firstNames_append_of_fresh {front : Paths} (some_ : front ≠ [])
    (all : ∀ entry ∈ front, entry.1.head? = some name) (fresh : name ∉ firstNames entries) :
    firstNames (front ++ entries) = name :: firstNames entries := by
  have only : (front.filterMap (·.1.head?)).eraseDups = [name] := by
    apply eraseDups_of_forall_eq
    · obtain ⟨entry, member⟩ := List.exists_mem_of_ne_nil _ some_
      exact List.ne_nil_of_mem (List.mem_filterMap.2 ⟨entry, member, all entry member⟩)
    · intro other member
      obtain ⟨entry, listed, first⟩ := List.mem_filterMap.1 member
      rw [all entry listed] at first
      exact (Option.some.inj first).symm
  have absent : name ∉ entries.filterMap (·.1.head?) := by simpa [firstNames] using fresh
  rw [firstNames, List.filterMap_append, ← eraseDups_left, only, List.singleton_append,
    eraseDups_cons_of_notMem absent]
  rfl

end Under

/-! ## What is met makes the same object -/

section Fields

variable {fields : List (String × Json)}

theorem mem_fieldPaths {path : List String} {value : Json} :
    (path, value) ∈ fieldPaths fields ↔
      ∃ field ∈ fields, ∃ rest, path = field.1 :: rest ∧ (rest, value) ∈ leafPaths field.2 := by
  rw [fieldPaths_eq_flatMap, List.mem_flatMap]
  refine exists_congr fun field => and_congr_right fun _ => ?_
  constructor
  · intro member
    obtain ⟨leaf, below, same⟩ := List.mem_map.1 member
    cases same
    exact ⟨leaf.1, rfl, below⟩
  · rintro ⟨rest, rfl, below⟩
    exact List.mem_map.2 ⟨_, below, rfl⟩

theorem firstNames_fieldPaths_subset {name : String} (member : name ∈ firstNames (fieldPaths fields)) :
    name ∈ fields.map (·.1) := by
  obtain ⟨path, value, listed⟩ := mem_firstNames.1 member
  obtain ⟨field, among, rest, same, -⟩ := mem_fieldPaths.1 listed
  cases same
  exact List.mem_map_of_mem among

theorem under_fieldPaths (distinct : (fields.map (·.1)).Nodup) {field : String × Json}
    (member : field ∈ fields) : under field.1 (fieldPaths fields) = leafPaths field.2 := by
  induction fields with
  | nil => cases member
  | cons first fields ih =>
      obtain ⟨name, value⟩ := first
      rw [List.map_cons, List.nodup_cons] at distinct
      rw [fieldPaths, under_append, under_map_cons]
      rcases List.mem_cons.1 member with rfl | later
      · have gone : under name (fieldPaths fields) = [] :=
          under_eq_nil fun listed => distinct.1 (firstNames_fieldPaths_subset listed)
        rw [if_pos rfl, gone, List.append_nil]
      · have apart : name ≠ field.1 := fun same =>
          distinct.1 (same ▸ List.mem_map_of_mem (f := (·.1)) later)
        rw [if_neg apart, List.nil_append, ih distinct.2 later]

theorem firstNames_fieldPaths (distinct : (fields.map (·.1)).Nodup)
    (filled : ∀ field ∈ fields, leafPaths field.2 ≠ []) :
    firstNames (fieldPaths fields) = fields.map (·.1) := by
  induction fields with
  | nil => rfl
  | cons field fields ih =>
      obtain ⟨name, value⟩ := field
      rw [List.map_cons, List.nodup_cons] at distinct
      rw [List.forall_mem_cons] at filled
      have fresh : name ∉ firstNames (fieldPaths fields) := fun listed =>
        distinct.1 (firstNames_fieldPaths_subset listed)
      rw [fieldPaths, firstNames_append_of_fresh _ _ fresh, ih distinct.2 filled.2, List.map_cons]
      · simpa using filled.1
      · intro entry member
        obtain ⟨leaf, -, rfl⟩ := List.mem_map.1 member
        rfl

end Fields

theorem nests_leafPaths {entries : Paths} {value : Json} (nests : Nests entries value) :
    Nests (leafPaths value) value := by
  induction nests with
  | leaf leaf =>
      rw [leafPaths_of_isLeaf leaf]
      exact .leaf leaf
  | @object entries fields named names inner ih =>
      have distinct : (fields.map (·.1)).Nodup := names ▸ nodup_eraseDups _
      -- No field is empty, or its name would not come up again.
      have filled : ∀ field ∈ fields, leafPaths field.2 ≠ [] := by
        intro field member nothing
        have listed : field.1 ∈ firstNames entries := names ▸ List.mem_map_of_mem member
        obtain ⟨path, held, below⟩ := mem_firstNames.1 listed
        have leaf := (leafPaths_perm (inner field member)).mem_iff.2 (mem_under.2 below)
        rw [nothing] at leaf
        cases leaf
      rw [leafPaths]
      refine .object ?_ (firstNames_fieldPaths distinct filled).symm ?_
      · rintro ⟨path, held⟩ member
        obtain ⟨field, -, rest, rfl, -⟩ := mem_fieldPaths.1 member
        exact List.cons_ne_nil field.1 rest
      · intro field member
        rw [under_fieldPaths distinct member]
        exact ih field member

/-! ## What an object depends on -/

/-- The same entries, with names that come up in the same order below every path. -/
structure Alike (first second : Paths) : Prop where
  perm : first.Perm second
  names : ∀ path, firstNames (underPath path first) = firstNames (underPath path second)

theorem Alike.under {first second : Paths} (alike : Alike first second) (name : String) :
    Alike (under name first) (under name second) :=
  ⟨alike.perm.filterMap _, fun path => alike.names (name :: path)⟩

/-- An object is made by its entries in one way only. -/
theorem Nests.unique {first second : Paths} {a b : Json} (one : Nests first a)
    (other : Nests second b) (alike : Alike first second) : a = b := by
  induction one generalizing second b with
  | @leaf value leaf =>
      have alone : second = [([], value)] := List.singleton_perm.1 alike.perm |>.symm
      subst alone
      cases other with
      | leaf _ => rfl
      | object named _ _ => exact absurd rfl (named _ List.mem_cons_self)
  | @object first fields named names inner ih =>
      cases other with
      | leaf _ => exact absurd rfl (named _ (alike.perm.mem_iff.2 List.mem_cons_self))
      | @object second fields' _ names' inner' =>
          have sameNames : fields.map (·.1) = fields'.map (·.1) := by
            rw [names, names']
            exact alike.names []
          have distinct : (fields.map (·.1)).Nodup := names ▸ nodup_eraseDups _
          -- The names fix the order of the fields; what is below each of them is made of alike entries.
          have sameValues : ∀ field ∈ fields, ∀ field' ∈ fields', field.1 = field'.1 →
              field.2 = field'.2 := by
            intro field member field' member' same
            have below := inner' field' member'
            rw [← same] at below
            exact ih field member below (alike.under field.1)
          congr 1
          apply List.ext_getElem
          · simpa using congrArg List.length sameNames
          · intro i here there
            have same : fields[i].1 = fields'[i].1 := by
              simpa [here, there] using congrArg (·[i]?) sameNames
            exact Prod.ext same (sameValues _ (List.getElem_mem here) _ (List.getElem_mem there) same)

/-- What makes the same object is alike in the order of its names. -/
theorem firstNames_underPath_eq {first second : Paths} {value : Json} (one : Nests first value)
    (other : Nests second value) (path : List String) :
    firstNames (underPath path first) = firstNames (underPath path second) := by
  induction path generalizing first second value with
  | nil =>
      cases one with
      | leaf leaf =>
          cases other with
          | leaf _ => rfl
          | object _ _ _ => exact leaf.elim
      | object _ names _ => exact names.symm.trans other.names
  | cons name path ih =>
      cases one with
      | leaf leaf =>
          cases other with
          | leaf _ => rfl
          | object _ _ _ => exact leaf.elim
      | @object first fields named names inner =>
          have nests : Nests first (.object fields) := .object named names inner
          rw [underPath, underPath]
          cases found : fields.lookup name with
          | none => rw [nests.under_of_lookup found, other.under_of_lookup found]
          | some held => exact ih (nests.of_lookup found) (other.of_lookup found)

theorem alike_leafPaths {entries : Paths} {value : Json} (nests : Nests entries value) :
    Alike (leafPaths value) entries :=
  ⟨leafPaths_perm nests, firstNames_underPath_eq (nests_leafPaths nests) nests⟩

/-! ## Entries side by side -/

/-- Below every path the entries lie side by side: what comes between two of them is below that path
too. -/
def Grouped (entries : Paths) : Prop :=
  ∀ path first middle last, [first, middle, last].Sublist (entries.map (·.1)) →
    path <+: first → path <+: last → path <+: middle

theorem under_sublist (name : String) (entries : Paths) :
    ((under name entries).map fun entry => (name :: entry.1, entry.2)).Sublist entries := by
  induction entries with
  | nil => exact List.nil_sublist _
  | cons entry entries ih =>
      rw [← List.singleton_append, under_append, List.map_append]
      refine List.Sublist.append ?_ ih
      obtain ⟨whole, value⟩ := entry
      cases whole with
      | nil => simp [under]
      | cons first rest =>
          by_cases same : first = name
          · simp [same, under_same]
          · simp [under_other same]

theorem Grouped.under {entries : Paths} (grouped : Grouped entries) (name : String) :
    Grouped (under name entries) := by
  intro path first middle last within below above
  have deeper : [name :: first, name :: middle, name :: last].Sublist (entries.map (·.1)) := by
    have inside := (under_sublist name entries).map (·.1)
    have same : ((Json.under name entries).map fun entry => (name :: entry.1, entry.2)).map (·.1) =
        ((Json.under name entries).map (·.1)).map (name :: ·) := by simp
    rw [same] at inside
    exact (within.map (name :: ·)).trans inside
  have through := grouped (name :: path) _ _ _ deeper (by simpa using below) (by simpa using above)
  simpa [List.cons_prefix_cons] using through

theorem Grouped.tail {entry : List String × Json} {entries : Paths}
    (grouped : Grouped (entry :: entries)) : Grouped entries := by
  intro path first middle last within
  exact grouped path first middle last (within.trans (List.sublist_cons_self _ _))

/-- Where a name comes up again, it comes up at once. -/
theorem Grouped.next {name : String} {path : List String} {value : Json}
    {entries : Paths} (grouped : Grouped ((name :: path, value) :: entries))
    (again : name ∈ firstNames entries) :
    ∃ rest held others, entries = (name :: rest, held) :: others := by
  obtain ⟨rest, held, listed⟩ := mem_firstNames.1 again
  cases entries with
  | nil => cases listed
  | cons next others =>
      obtain ⟨whole, held'⟩ := next
      rcases List.mem_cons.1 listed with here | later
      · cases here
        exact ⟨rest, held, others, rfl⟩
      · have last : [name :: rest].Sublist (others.map (·.1)) :=
          List.singleton_sublist.2 (List.mem_map_of_mem (f := (·.1)) later)
        have between := (last.cons_cons whole).cons_cons (name :: path)
        obtain ⟨rest', rfl⟩ := grouped [name] _ _ _ between (by simp) (by simp)
        exact ⟨rest', held', others, rfl⟩

/-- The entries below these names, one name after the other. -/
def underNames (names : List String) (entries : Paths) : Paths :=
  names.flatMap fun name => (under name entries).map fun entry => (name :: entry.1, entry.2)

/-- The name of the first entry comes first, and what is left comes in its order if it did so without
that entry. -/
theorem firstNames_cons_of_grouped {name : String} {path : List String} {value : Json}
    {entries : Paths} (grouped : Grouped ((name :: path, value) :: entries))
    (ordered : underNames (firstNames entries) entries = entries) :
    ∃ others, firstNames ((name :: path, value) :: entries) = name :: others ∧ name ∉ others ∧
      (under name entries).map (fun entry => (name :: entry.1, entry.2)) ++ underNames others entries =
        entries := by
  by_cases again : name ∈ firstNames entries
  -- Entries of one name lie side by side, so if the name comes again it comes next.
  · obtain ⟨rest, held, later, rfl⟩ := grouped.next again
    have start : firstNames ((name :: rest, held) :: later) = name ::
        ((later.filterMap (·.1.head?)).filter fun other => !other == name).eraseDups := by
      simp [firstNames, List.eraseDups_cons]
    have fresh := nodup_eraseDups (((name :: rest, held) :: later).filterMap (·.1.head?))
    rw [← firstNames, start, List.nodup_cons] at fresh
    refine ⟨_, ?_, fresh.1, ?_⟩
    · simp [firstNames, List.eraseDups_cons]
    · rw [start] at ordered
      exact ordered
  · refine ⟨firstNames entries, ?_, again, ?_⟩
    · rw [← List.singleton_append]
      exact firstNames_append_of_fresh (by simp) (by simp) again
    · rw [under_eq_nil again, ordered]
      rfl

/-- Taken name by name, entries that lie side by side come in their own order. -/
theorem underNames_firstNames {entries : Paths} (named : ∀ entry ∈ entries, entry.1 ≠ [])
    (grouped : Grouped entries) : underNames (firstNames entries) entries = entries := by
  induction entries with
  | nil => rfl
  | cons entry entries ih =>
      rw [List.forall_mem_cons] at named
      obtain ⟨whole, value⟩ := entry
      obtain ⟨name, path, rfl⟩ := List.exists_cons_of_ne_nil named.1
      obtain ⟨others, start, fresh, ordered⟩ :=
        firstNames_cons_of_grouped grouped (ih named.2 grouped.tail)
      have elsewhere : underNames others ((name :: path, value) :: entries) = underNames others entries := by
        refine List.flatMap_congr fun other member => ?_
        have apart : name ≠ other := fun same => fresh (same ▸ member)
        rw [under_cons_other apart]
      calc underNames (firstNames ((name :: path, value) :: entries)) ((name :: path, value) :: entries)
          = (under name ((name :: path, value) :: entries)).map
                (fun entry => (name :: entry.1, entry.2)) ++
              underNames others ((name :: path, value) :: entries) := by rw [start]; rfl
        _ = (name :: path, value) :: ((under name entries).map
                (fun entry => (name :: entry.1, entry.2)) ++ underNames others entries) := by
            rw [under_cons_same, elsewhere]; rfl
        _ = (name :: path, value) :: entries := by rw [ordered]

theorem leafPaths_of_grouped {entries : Paths} {value : Json} (nests : Nests entries value)
    (grouped : Grouped entries) : leafPaths value = entries := by
  induction nests with
  | leaf leaf => exact leafPaths_of_isLeaf leaf
  | @object entries fields named names inner ih =>
      have parts := underNames_firstNames named grouped
      rw [underNames, ← names, List.flatMap_map] at parts
      rw [leafPaths, fieldPaths_eq_flatMap]
      refine Eq.trans ?_ parts
      refine List.flatMap_congr fun field member => ?_
      rw [ih field member (grouped.under field.1)]

end MessageKeys.Json
