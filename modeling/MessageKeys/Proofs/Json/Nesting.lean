import Mathlib.Data.List.Perm.Basic
import MessageKeys.Format.Nested
import MessageKeys.Lookup
import MessageKeys.Proofs.Json.Pretty
import MessageKeys.Proofs.Occurrences
/-!
# Proofs.Json.Nesting — objects made of paths

Values are put into an object one by one, each at the end of a path of names. `Nests entries value`
says that a value is what a list of such entries makes: a value by itself if the only path is empty,
else an object with a field for every name that comes first in a path, in the order in which these
names come up, and in each field what the rest of the paths makes. Inserting keeps this
(`nests_insertAt`) as long as no path goes through the end of another one (`Apart`). All that is to be
known about the object follows from it: its leaves are the entries (`leafPaths_perm`), its fields come
in order (`names_of_at?`), and the next path that is apart from the others is free (`vacant_of_apart`).
-/
namespace MessageKeys.Json
open Occurrences

/-! ## Looking into values -/

/-- The value is no object. -/
def IsLeaf : Json → Prop
  | .object _ => False
  | _ => True

/-- What a path of names leads to. -/
def at? : List String → Json → Option Json
  | [], value => some value
  | name :: path, .object fields => (fields.lookup name).bind (at? path)
  | _ :: _, _ => none

mutual

/-- The values in a value that are no objects, each with the path that leads to it. -/
def leafPaths : Json → List (List String × Json)
  | .object fields => fieldPaths fields
  | value => [([], value)]

/-- The leaves in fields. -/
def fieldPaths : List (String × Json) → List (List String × Json)
  | [] => []
  | (name, value) :: fields =>
    (leafPaths value).map (fun leaf => (name :: leaf.1, leaf.2)) ++ fieldPaths fields

end

theorem leafPaths_of_isLeaf {value : Json} (leaf : IsLeaf value) : leafPaths value = [([], value)] := by
  cases value with
  | object fields => exact leaf.elim
  | _ => simp only [leafPaths]

theorem fieldPaths_eq_flatMap (fields : List (String × Json)) :
    fieldPaths fields = fields.flatMap fun field =>
      (leafPaths field.2).map fun leaf => (field.1 :: leaf.1, leaf.2) := by
  induction fields with
  | nil => simp only [fieldPaths, List.flatMap_nil]
  | cons field fields ih => simp only [fieldPaths, List.flatMap_cons, ih]

/-! ## Entries below a name -/

/-- Values, each with the path that it belongs to. -/
abbrev Paths := List (List String × Json)

section Under

variable (name : String) (entries : Paths)

/-- The entries below a name, with the rest of their paths. -/
def under : Paths :=
  entries.filterMap fun
    | (first :: path, value) => if first = name then some (path, value) else none
    | ([], _) => none

/-- The names that paths begin with, each where it comes up first. -/
def firstNames : List String := (entries.filterMap (·.1.head?)).eraseDups

variable {name entries}

theorem mem_under {path : List String} {value : Json} :
    (path, value) ∈ under name entries ↔ (name :: path, value) ∈ entries := by
  simp only [under, List.mem_filterMap]
  constructor
  · rintro ⟨⟨whole, held⟩, member, kept⟩
    cases whole with
    | nil => cases kept
    | cons first rest =>
        by_cases same : first = name
        · simp only [same, if_true, Option.some.injEq, Prod.mk.injEq] at kept
          obtain ⟨rfl, rfl⟩ := kept
          exact same ▸ member
        · simp [same] at kept
  · intro member
    exact ⟨_, member, by simp⟩

theorem mem_firstNames : name ∈ firstNames entries ↔ ∃ path value, (name :: path, value) ∈ entries := by
  simp only [firstNames, List.mem_eraseDups, List.mem_filterMap]
  constructor
  · rintro ⟨⟨whole, value⟩, member, first⟩
    cases whole with
    | nil => cases first
    | cons other path =>
        cases first
        exact ⟨path, value, member⟩
  · rintro ⟨path, value, member⟩
    exact ⟨_, member, rfl⟩

theorem under_eq_nil (absent : name ∉ firstNames entries) : under name entries = [] := by
  rw [List.eq_nil_iff_forall_not_mem]
  rintro ⟨path, value⟩ member
  exact absent (mem_firstNames.2 ⟨path, value, mem_under.1 member⟩)

theorem under_append (entries others : Paths) :
    under name (entries ++ others) = under name entries ++ under name others :=
  List.filterMap_append

theorem under_same (path : List String) (value : Json) :
    under name [(name :: path, value)] = [(path, value)] := by
  simp [under]

theorem under_other {other : String} (apart : other ≠ name) (path : List String) (value : Json) :
    under name [(other :: path, value)] = [] := by
  simp [under, apart]

theorem under_cons_same (path : List String) (value : Json) (entries : Paths) :
    under name ((name :: path, value) :: entries) = (path, value) :: under name entries := by
  rw [← List.singleton_append, under_append, under_same, List.singleton_append]

theorem under_cons_other {other : String} (apart : other ≠ name) (path : List String) (value : Json)
    (entries : Paths) : under name ((other :: path, value) :: entries) = under name entries := by
  rw [← List.singleton_append, under_append, under_other apart, List.nil_append]

theorem firstNames_concat (path : List String) (value : Json) :
    firstNames (entries ++ [(name :: path, value)]) =
      if name ∈ firstNames entries then firstNames entries else firstNames entries ++ [name] := by
  have one : [(name :: path, value)].filterMap (·.1.head?) = [name] := rfl
  have same : name ∈ firstNames entries ↔ name ∈ entries.filterMap (·.1.head?) := by
    rw [firstNames, List.mem_eraseDups]
  simp only [same]
  rw [firstNames, List.filterMap_append, one, eraseDups_concat]
  rfl

/-- Under each of the names there is a part of the entries, and together these are all. A further entry
adds to the part of its own name and to no other one, as the names are distinct. -/
theorem flatMap_under_perm {names : List String} (distinct : names.Nodup)
    (covered : ∀ entry ∈ entries, ∃ name ∈ names, ∃ path, entry.1 = name :: path) :
    (names.flatMap fun name => (under name entries).map fun entry => (name :: entry.1, entry.2)).Perm
      entries := by
  induction entries with
  | nil =>
      have nothing : ∀ name, under name [] = [] := fun _ => rfl
      simp [nothing]
  | cons entry entries ih =>
      rw [List.forall_mem_cons] at covered
      obtain ⟨⟨name, listed, path, first⟩, others⟩ := covered
      obtain ⟨whole, value⟩ := entry
      obtain rfl : whole = name :: path := first
      obtain ⟨front, back, rfl⟩ := List.append_of_mem listed
      have elsewhere : ∀ other ∈ front ++ back,
          under other ((name :: path, value) :: entries) = under other entries := by
        intro other member
        have apart : name ≠ other := by
          rintro rfl
          exact (List.nodup_cons.1 (List.nodup_middle.1 distinct)).1 member
        exact under_cons_other apart path value entries
      have kept : ∀ part ⊆ front ++ back,
          (part.flatMap fun other => (under other ((name :: path, value) :: entries)).map
            fun entry => (other :: entry.1, entry.2)) =
          part.flatMap fun other => (under other entries).map
            fun entry => (other :: entry.1, entry.2) := by
        intro part within
        refine List.flatMap_congr fun other member => ?_
        rw [elsewhere other (within member)]
      have rest := ih others
      rw [List.flatMap_append, List.flatMap_cons] at rest ⊢
      rw [kept front (List.subset_append_left front back), kept back (List.subset_append_right front back),
        under_cons_same, List.map_cons, List.cons_append]
      exact List.perm_middle.trans (rest.cons _)

end Under

/-! ## What entries make -/

/-- The value is what these entries make. -/
inductive Nests : Paths → Json → Prop where
  | leaf {value : Json} (leaf : IsLeaf value) : Nests [([], value)] value
  | object {entries : Paths} {fields : List (String × Json)}
      (named : ∀ entry ∈ entries, entry.1 ≠ [])
      (names : fields.map (·.1) = firstNames entries)
      (inner : ∀ field ∈ fields, Nests (under field.1 entries) field.2) :
      Nests entries (.object fields)

theorem nests_nil : Nests [] (.object []) := .object (by simp) rfl (by simp)

/-- Only an entry with an empty path makes a value that is no object. -/
theorem Nests.alone_or_object {entries : Paths} {value : Json} (nests : Nests entries value) :
    entries = [([], value)] ∨ ∃ fields, value = .object fields := by
  cases nests with
  | leaf _ => exact Or.inl rfl
  | object _ _ _ => exact Or.inr ⟨_, rfl⟩

section Object

variable {entries : Paths} {fields : List (String × Json)} {name : String}

theorem Nests.names (nests : Nests entries (.object fields)) :
    fields.map (·.1) = firstNames entries := by
  cases nests with
  | leaf leaf => exact leaf.elim
  | object _ names _ => exact names

/-- A field holds what the entries below its name make. -/
theorem Nests.of_lookup (nests : Nests entries (.object fields)) {value : Json}
    (found : fields.lookup name = some value) : Nests (under name entries) value := by
  cases nests with
  | leaf leaf => exact leaf.elim
  | object _ _ inner => exact inner _ (mem_of_lookup found)

theorem Nests.under_of_lookup (nests : Nests entries (.object fields))
    (missing : fields.lookup name = none) : under name entries = [] := by
  have absent : name ∉ firstNames entries := by
    rw [← nests.names]
    intro listed
    obtain ⟨field, member, rfl⟩ := List.mem_map.1 listed
    simpa using List.lookup_eq_none_iff.1 missing field member
  exact under_eq_nil absent

end Object

/-- The leaves of a value are the entries that make it. -/
theorem leafPaths_perm {entries : Paths} {value : Json} (nests : Nests entries value) :
    (leafPaths value).Perm entries := by
  induction nests with
  | leaf leaf => rw [leafPaths_of_isLeaf leaf]
  | @object entries fields named names inner ih =>
      have covered : ∀ entry ∈ entries, ∃ name ∈ firstNames entries, ∃ path, entry.1 = name :: path := by
        rintro ⟨whole, value⟩ member
        cases whole with
        | nil => exact absurd rfl (named _ member)
        | cons name path => exact ⟨name, mem_firstNames.2 ⟨path, value, member⟩, path, rfl⟩
      have distinct : (firstNames entries).Nodup := nodup_eraseDups _
      have parts := flatMap_under_perm distinct covered
      rw [← names, List.flatMap_map] at parts
      rw [leafPaths, fieldPaths_eq_flatMap]
      refine List.Perm.trans ?_ parts
      exact List.Perm.flatMap_left fields fun field member => (ih field member).map _

/-- What entries of texts make is textual, as deep as the longest path goes. -/
theorem textual_of_nests {entries : Paths} {value : Json} (nests : Nests entries value) {depth : Nat}
    (texts : ∀ entry ∈ entries, Textual 0 entry.2) (short : ∀ entry ∈ entries, entry.1.length ≤ depth)
    (some_ : entries ≠ [] ∨ 0 < depth) : Textual depth value := by
  induction nests generalizing depth with
  | @leaf value _ =>
      have text : Textual 0 value := texts ([], value) (by simp)
      cases text with
      | null => exact .null depth
      | string _ text => exact .string depth text
  | @object entries fields named names inner ih =>
      -- A name takes a level, so there is one for the object.
      have deep : 0 < depth := by
        refine some_.elim (fun nonempty => ?_) id
        obtain ⟨entry, member⟩ := List.exists_mem_of_ne_nil _ nonempty
        exact Nat.lt_of_lt_of_le (List.length_pos_of_ne_nil (named entry member)) (short entry member)
      obtain ⟨depth, rfl⟩ := Nat.exists_eq_succ_of_ne_zero (Nat.ne_of_gt deep)
      refine .object (names ▸ nodup_eraseDups _) fun field member => ih field member ?_ ?_ (Or.inl ?_)
      · rintro ⟨path, held⟩ below
        exact texts (field.1 :: path, held) (mem_under.1 below)
      · rintro ⟨path, held⟩ below
        have whole := short (field.1 :: path, held) (mem_under.1 below)
        exact Nat.le_of_succ_le_succ whole
      · have listed : field.1 ∈ firstNames entries := names ▸ List.mem_map_of_mem member
        obtain ⟨path, held, below⟩ := mem_firstNames.1 listed
        exact List.ne_nil_of_mem (mem_under.2 below)

/-! ## Inserting -/

theorem map_fst_putField (fields : List (String × Json)) (name : String) (value : Json) :
    (putField fields name value).map (·.1) =
      if name ∈ fields.map (·.1) then fields.map (·.1) else fields.map (·.1) ++ [name] := by
  have listed : fields.any (·.1 == name) = true ↔ name ∈ fields.map (·.1) := by simp
  unfold putField
  by_cases member : name ∈ fields.map (·.1)
  · rw [if_pos (listed.2 member), if_pos member, List.map_map]
    refine List.map_congr_left fun field _ => ?_
    by_cases same : field.1 = name
    · simp [same]
    · simp [same]
  · rw [if_neg (fun there => member (listed.1 there)), if_neg member, List.map_append]
    rfl

theorem mem_putField {fields : List (String × Json)} {name : String} {value : Json}
    {field : String × Json} (member : field ∈ putField fields name value) :
    field = (name, value) ∨ field ∈ fields ∧ field.1 ≠ name := by
  unfold putField at member
  split at member
  · obtain ⟨old, listed, rfl⟩ := List.mem_map.1 member
    by_cases same : old.1 = name
    · exact Or.inl (by simp [same])
    · exact Or.inr (by simpa [same] using listed)
  · rename_i absent
    rcases List.mem_append.1 member with old | new
    · refine Or.inr ⟨old, fun same => absent ?_⟩
      exact List.any_eq_true.2 ⟨field, old, by simp [same]⟩
    · exact Or.inl (List.mem_singleton.1 new)

/-- One more entry goes into the field that its path begins with. -/
theorem nests_putField {entries : Paths} {fields : List (String × Json)} {name : String}
    {path : List String} {value new : Json} (nests : Nests entries (.object fields))
    (inside : Nests (under name entries ++ [(path, value)]) new) :
    Nests (entries ++ [(name :: path, value)]) (.object (putField fields name new)) := by
  cases nests with
  | leaf leaf => exact leaf.elim
  | object named names inner =>
      refine .object ?_ ?_ ?_
      · intro entry member
        rcases List.mem_append.1 member with old | last
        · exact named entry old
        · simp [List.mem_singleton.1 last]
      · rw [map_fst_putField, firstNames_concat, names]
      · intro field member
        rcases mem_putField member with rfl | ⟨old, other⟩
        · rw [under_append, under_same]
          exact inside
        · rw [under_append, under_other other.symm, List.append_nil]
          exact inner field old

/-- Neither the path nor one of an entry leads through the end of the other. -/
def Apart (entries : Paths) (path : List String) : Prop :=
  ∀ entry ∈ entries, ¬ entry.1 <+: path ∧ ¬ path <+: entry.1

theorem Apart.under {entries : Paths} {name : String} {path : List String}
    (apart : Apart entries (name :: path)) : Apart (under name entries) path := by
  rintro ⟨other, value⟩ member
  have whole := apart _ (mem_under.1 member)
  simpa [List.cons_prefix_cons] using whole

/-- Nothing lies below the end of a path that is apart. -/
theorem Apart.under_eq_nil {entries : Paths} {name : String} (apart : Apart entries [name]) :
    Json.under name entries = [] := by
  rw [List.eq_nil_iff_forall_not_mem]
  rintro ⟨rest, value⟩ member
  exact (apart _ (mem_under.1 member)).2 (by simp)

/-- **Inserting adds an entry.**  The induction is on the path: what it leads into is either missing, and
then made of this entry alone, or an object, since a value that is none would end a path on the way. -/
theorem nests_insertAt {value : Json} (leaf : IsLeaf value) (path : List String) :
    ∀ {entries : Paths} {fields : List (String × Json)}, path ≠ [] → Nests entries (.object fields) →
      Apart entries path → Nests (entries ++ [(path, value)]) (.object (insertAt value path fields)) := by
  induction path with
  | nil => exact fun some_ => absurd rfl some_
  | cons name path ih =>
      intro entries fields _ nests apart
      cases path with
      | nil =>
          refine nests_putField nests ?_
          rw [apart.under_eq_nil]
          exact .leaf leaf
      | cons next path =>
          have longer : next :: path ≠ [] := List.cons_ne_nil next path
          rw [insertAt]
          · cases found : fields.lookup name with
            | none =>
                refine nests_putField nests ?_
                rw [nests.under_of_lookup found]
                exact ih longer nests_nil (by simp [Apart])
            | some old =>
                have inside : Nests (under name entries) old := nests.of_lookup found
                -- What stands there already is no value, which would lie on the way to the new one.
                rcases inside.alone_or_object with alone | ⟨fields', rfl⟩
                · have ends : ([name], old) ∈ entries := mem_under.1 (by simp [alone])
                  exact absurd (by simp) (apart _ ends).1
                · exact nests_putField nests (ih longer inside apart.under)
          · exact longer

/-! ## Following paths -/

/-- The entries at the end of a path or below it, with the rest of their paths. -/
def underPath : List String → Paths → Paths
  | [], entries => entries
  | name :: path, entries => underPath path (under name entries)

theorem mem_underPath {path rest : List String} {entries : Paths} {value : Json} :
    (rest, value) ∈ underPath path entries ↔ (path ++ rest, value) ∈ entries := by
  induction path generalizing entries with
  | nil => rfl
  | cons name path ih => rw [underPath, ih, mem_under, List.cons_append]

/-- A path leads to what the entries below it make. -/
theorem nests_of_at? {path : List String} {entries : Paths} {value found : Json}
    (nests : Nests entries value) (leads : at? path value = some found) :
    Nests (underPath path entries) found ∧ (path ≠ [] → underPath path entries ≠ []) := by
  induction path generalizing entries value with
  | nil =>
      cases leads
      exact ⟨nests, fun some_ => absurd rfl some_⟩
  | cons name path ih =>
      obtain ⟨fields, rfl⟩ : ∃ fields, value = .object fields := by
        cases value with
        | object fields => exact ⟨fields, rfl⟩
        | _ => cases leads
      obtain ⟨next, looked, leads⟩ := Option.bind_eq_some_iff.1 leads
      obtain ⟨deeper, more⟩ := ih (nests.of_lookup looked) leads
      refine ⟨deeper, fun _ => ?_⟩
      cases path with
      | cons other path => exact more (List.cons_ne_nil other path)
      | nil =>
          -- At the last name there is a field, and no field without an entry.
          have listed : name ∈ firstNames entries :=
            nests.names ▸ List.mem_map_of_mem (mem_of_lookup looked)
          obtain ⟨rest, held, member⟩ := mem_firstNames.1 listed
          exact List.ne_nil_of_mem (mem_under.2 member)

/-- Every entry lies at the end of its path.  No field hides it, since no two have one name. -/
theorem at?_of_mem {entries : Paths} {value : Json} (nests : Nests entries value)
    {path : List String} {held : Json} (member : (path, held) ∈ entries) :
    at? path value = some held := by
  induction nests generalizing path with
  | leaf leaf =>
      obtain ⟨rfl, rfl⟩ := Prod.mk.inj (List.mem_singleton.1 member)
      rfl
  | @object entries fields named names inner ih =>
      cases path with
      | nil => exact absurd rfl (named _ member)
      | cons name path =>
          have listed : name ∈ fields.map (·.1) := names ▸ mem_firstNames.2 ⟨path, held, member⟩
          obtain ⟨⟨first, next⟩, field, rfl⟩ := List.mem_map.1 listed
          have distinct : (fields.map (·.1)).Nodup := names ▸ nodup_eraseDups _
          have looked : fields.lookup first = some next := lookup_of_mem distinct field
          rw [at?, looked, Option.bind_some]
          exact ih (first, next) field (mem_under.2 member)

/-- A path comes through objects only, as far as there is anything, and there is nothing at its end. -/
def Vacant (path : List String) (value : Json) : Prop :=
  (∀ front, front <+: path → ∀ found, at? front value = some found →
    ∃ inner, found = .object inner) ∧ at? path value = none

/-- A path apart from all entries is free to be taken. -/
theorem vacant_of_apart {entries : Paths} {fields : List (String × Json)} {path : List String}
    (nests : Nests entries (.object fields)) (some_ : path ≠ []) (apart : Apart entries path) :
    Vacant path (.object fields) := by
  constructor
  · intro front within found leads
    rcases (nests_of_at? nests leads).1.alone_or_object with alone | inner
    · have ends : (front ++ [], found) ∈ entries := mem_underPath.1 (by simp [alone])
      rw [List.append_nil] at ends
      exact absurd within (apart _ ends).1
    · exact inner
  · rw [Option.eq_none_iff_forall_ne_some]
    intro found leads
    obtain ⟨⟨rest, value⟩, member⟩ :=
      List.exists_mem_of_ne_nil _ ((nests_of_at? nests leads).2 some_)
    exact (apart _ (mem_underPath.1 member)).2 (List.prefix_append _ _)

/-- The name that comes after a path in a longer one. -/
def nextName? (path whole : List String) : Option String :=
  if path <+: whole then whole[path.length]? else none

theorem firstNames_underPath (path : List String) (entries : Paths) :
    firstNames (underPath path entries) =
      (entries.filterMap fun entry => nextName? path entry.1).eraseDups := by
  induction path generalizing entries with
  | nil =>
      have first : ∀ whole : List String, nextName? [] whole = whole.head? := by
        intro whole
        simp [nextName?, List.head?_eq_getElem?]
      simp only [first]
      rfl
  | cons name path ih =>
      rw [underPath, ih, under, List.filterMap_filterMap]
      congr 2
      funext entry
      obtain ⟨whole, value⟩ := entry
      cases whole with
      | nil => simp [nextName?]
      | cons first rest =>
          by_cases same : first = name
          · subst same
            simp [nextName?, List.cons_prefix_cons]
          · simp [nextName?, List.cons_prefix_cons, same, Ne.symm same]

/-- The fields of an object are in the order in which their names come up. -/
theorem names_of_at? {path : List String} {entries : Paths} {value : Json}
    {fields : List (String × Json)} (nests : Nests entries value)
    (leads : at? path value = some (.object fields)) :
    fields.map (·.1) = (entries.filterMap fun entry => nextName? path entry.1).eraseDups := by
  rw [← firstNames_underPath]
  exact (nests_of_at? nests leads).1.names

end MessageKeys.Json
