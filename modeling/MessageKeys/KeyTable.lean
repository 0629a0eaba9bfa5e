import Std.Data.HashMap
/-!
# KeyTable — message keys in order

A `KeyTable` maps each key to its wording in some language, or to none yet. Its keys are distinct and
keep the order in which they first came. The entries lie in an array, and an index tells where each key is.

Every operation is made of two: `addKey` keeps what a present key has, `set` overwrites it; both
append a key that is absent. `merge` puts the keys of the second table after those of the first, and
lets a wording stand only where there is none.

A table carries the proof that its index is right (`index_iff`), so every operation that changes
entries or index has to keep the two in step.
-/
namespace MessageKeys

/-- The wording of a message; `none` while there is none. -/
abbrev Wording := Option String

/-- Keys in order, each with its wording. -/
structure KeyTable where
  entries : Array (String × Wording)
  /-- Where each key is among the entries. -/
  index : Std.HashMap String Nat
  /-- The index finds exactly the keys of the entries, each at its place. -/
  index_iff : ∀ (key : String) (i : Nat),
    index[key]? = some i ↔ ∃ value, entries[i]? = some (key, value)

namespace KeyTable

/-- Tables are alike if they hold the same entries in the same order. -/
instance : BEq KeyTable := ⟨fun a b => a.entries == b.entries⟩

def empty : KeyTable := ⟨#[], ∅, by simp⟩

instance : EmptyCollection KeyTable := ⟨empty⟩

section Look

variable (table : KeyTable)

def size : Nat := table.entries.size

def isEmpty : Bool := table.entries.isEmpty

/-- The entries in order. -/
def toList : List (String × Wording) := table.entries.toList

def keys : List String := table.toList.map (·.1)

/-- The wording of a key; `none` if the table does not hold the key. -/
def get? (key : String) : Option Wording :=
  match table.index[key]? with
  | some i => (table.entries[i]?).map (·.2)
  | none => none

def contains (key : String) : Bool := table.index.contains key

end Look

section Change

variable (table : KeyTable)

theorem lt_size_of_index {key : String} {i : Nat} (found : table.index[key]? = some i) :
    i < table.entries.size := by
  obtain ⟨value, at_⟩ := (table.index_iff key i).1 found
  exact (Array.getElem?_eq_some_iff.1 at_).1

/-- Puts an absent key at the end. -/
def push (key : String) (value : Wording) (absent : table.index[key]? = none) : KeyTable where
  entries := table.entries.push (key, value)
  index := table.index.insert key table.entries.size
  index_iff other i := by
    rw [Std.HashMap.getElem?_insert, Array.getElem?_push]
    by_cases same : key = other
    · subst same
      have unlisted := table.index_iff key i
      rw [absent] at unlisted
      by_cases last : i = table.entries.size
      · simp [last]
      · simpa [last, Ne.symm last] using unlisted
    · by_cases last : i = table.entries.size
      · have beyond : table.index[other]? ≠ some table.entries.size := fun found =>
          Nat.lt_irrefl _ (table.lt_size_of_index found)
        simp [same, last, beyond]
      · simpa [same, last] using table.index_iff other i

/-- Adds a key. One that is present keeps its place and its wording. -/
def addKey (key : String) : KeyTable :=
  match absent : table.index[key]? with
  | some _ => table
  | none => table.push key none absent

/-- Adds keys in order. -/
def addKeys (keys : List String) : KeyTable := keys.foldl addKey table

/-- Replaces the wording of the key at this place. -/
def overwrite (key : String) (value : Wording) (i : Nat) (found : table.index[key]? = some i) :
    KeyTable where
  entries := table.entries.setIfInBounds i (key, value)
  index := table.index
  index_iff other j := by
    have within := table.lt_size_of_index found
    obtain ⟨old, at_⟩ := (table.index_iff key i).1 found
    rw [table.index_iff, Array.getElem?_setIfInBounds]
    by_cases here : i = j
    · subst here
      rw [at_, if_pos rfl, if_pos within]
      simp
    · simp [here]

/-- Gives a key a wording, or takes it away. An absent key goes to the end. -/
def set (key : String) (value : Wording) : KeyTable :=
  match found : table.index[key]? with
  | some i => table.overwrite key value i found
  | none => table.push key value found

/-- Adds an entry. A wording stands only where there is none. -/
def mergeEntry (entry : String × Wording) : KeyTable :=
  match table.get? entry.1 with
  | some none => if entry.2.isSome then table.set entry.1 entry.2 else table
  | some (some _) => table
  | none => table.set entry.1 entry.2

end Change

/-- The table of these entries. A later entry for the same key overwrites the wording and keeps the
place. -/
def ofList (entries : List (String × Wording)) : KeyTable :=
  entries.foldl (fun table entry => table.set entry.1 entry.2) empty

/-- The table of these keys, all without a wording. -/
def ofKeys (keys : List String) : KeyTable := empty.addKeys keys

/-- Both tables in one: the keys of `a`, then those that only `b` holds. Where both word a key, `a`
wins. -/
def merge (a b : KeyTable) : KeyTable := b.toList.foldl mergeEntry a

/-- The entries for which `keep` holds. -/
def filter (keep : String → Wording → Bool) (table : KeyTable) : KeyTable :=
  ofList (table.toList.filter fun entry => keep entry.1 entry.2)

/-- The entries whose keys are not among these. -/
def removeKeys (table : KeyTable) (keys : List String) : KeyTable :=
  table.filter fun key _ => !keys.contains key

/-- The entries of `a` whose keys `b` holds too. -/
def intersect (a b : KeyTable) : KeyTable := a.filter fun key _ => b.contains key

/-- Every wording replaced, the order kept. -/
def mapValues (f : String → Wording → Wording) (table : KeyTable) : KeyTable :=
  ofList (table.toList.map fun entry => (entry.1, f entry.1 entry.2))

/-- The same entries in ascending order of keys, which is the order of their bytes. -/
def sorted (table : KeyTable) : KeyTable :=
  ofList (table.toList.mergeSort fun a b => a.1 ≤ b.1)

end KeyTable
end MessageKeys
