/-!
# Lookup — entries by name

Entries are pairs of a name and what goes by it. Looking a name up finds the first of its entries, and
so every entry where names are distinct.
-/
namespace MessageKeys

variable {α β : Type} [BEq α] [LawfulBEq α] {entries : List (α × β)} {name : α} {value : β}

theorem mem_of_lookup (found : entries.lookup name = some value) : (name, value) ∈ entries := by
  obtain ⟨before, after, rfl, -⟩ := List.lookup_eq_some_iff.1 found
  simp

theorem lookup_of_mem (distinct : (entries.map (·.1)).Nodup) (member : (name, value) ∈ entries) :
    entries.lookup name = some value := by
  obtain ⟨before, after, rfl⟩ := List.append_of_mem member
  refine List.lookup_eq_some_iff.2 ⟨before, after, rfl, fun other earlier => bne_iff_ne.2 fun same => ?_⟩
  rw [List.map_append, List.nodup_append] at distinct
  exact distinct.2.2 other.1 (List.mem_map_of_mem earlier) name (by simp) same.symm

end MessageKeys
