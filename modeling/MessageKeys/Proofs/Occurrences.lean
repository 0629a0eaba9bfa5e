import Mathlib.Data.List.Basic
import Mathlib.Data.List.Infix
import Mathlib.Data.List.Nodup
/-!
# Proofs.Occurrences — first occurrences

Whatever collects names in the order in which they come, and each of them once, gives the first
occurrences in a list: `eraseDups`. It makes no difference whether a part of the list has lost its
repetitions before (`eraseDups_left`, `eraseDups_right`, `eraseDups_flatMap`), nor how what follows after
a list is given, as long as the names in all of it come up in the same order (`eraseDups_filterMap_append`).
-/
namespace MessageKeys.Occurrences

variable {α β : Type} [BEq α] [LawfulBEq α]

/-- One more name counts only if it is new. -/
theorem eraseDups_concat (xs : List α) (x : α) :
    (xs ++ [x]).eraseDups = if x ∈ xs then xs.eraseDups else xs.eraseDups ++ [x] := by
  rw [List.eraseDups_append]
  by_cases member : x ∈ xs
  · simp [List.removeAll, member]
  · simp [List.removeAll, member, List.eraseDups_cons]

theorem nodup_eraseDups (xs : List α) : xs.eraseDups.Nodup := by
  induction xs using List.reverseRecOn with
  | nil => simp
  | append_singleton xs x ih =>
      rw [eraseDups_concat]
      split
      · exact ih
      · rename_i absent
        have fresh : x ∉ xs.eraseDups := by simpa using absent
        simpa [List.nodup_append, ih] using fun other member same => fresh (by simpa [← same] using member)

theorem eraseDups_of_nodup {xs : List α} (distinct : xs.Nodup) : xs.eraseDups = xs := by
  induction xs using List.reverseRecOn with
  | nil => rfl
  | append_singleton xs x ih =>
      obtain ⟨before, -, apart⟩ := List.nodup_append.1 distinct
      have fresh : x ∉ xs := fun member => apart x member x (by simp) rfl
      rw [eraseDups_concat, if_neg fresh, ih before]

theorem eraseDups_cons_of_notMem {x : α} {xs : List α} (fresh : x ∉ xs) :
    (x :: xs).eraseDups = x :: xs.eraseDups := by
  have kept : xs.filter (fun y => !y == x) = xs := by
    apply List.filter_eq_self.2
    intro y member
    have apart : y ≠ x := fun same => fresh (same ▸ member)
    simpa using apart
  rw [List.eraseDups_cons, kept]

theorem eraseDups_of_forall_eq {x : α} {xs : List α} (some_ : xs ≠ []) (all : ∀ y ∈ xs, y = x) :
    xs.eraseDups = [x] := by
  obtain ⟨y, ys, rfl⟩ := List.exists_cons_of_ne_nil some_
  rw [List.forall_mem_cons] at all
  obtain ⟨rfl, all⟩ := all
  have gone : ys.filter (fun z => !z == y) = [] := by
    apply List.filter_eq_nil_iff.2
    intro z member
    simp [all z member]
  rw [List.eraseDups_cons, gone, List.eraseDups_nil]

theorem filter_eraseDups (p : α → Bool) (xs : List α) :
    xs.eraseDups.filter p = (xs.filter p).eraseDups := by
  induction xs using List.reverseRecOn with
  | nil => rfl
  | append_singleton xs x ih =>
      rw [eraseDups_concat, List.filter_append]
      by_cases kept : p x = true
      · have alone : [x].filter p = [x] := by simp [kept]
        rw [alone, eraseDups_concat]
        by_cases member : x ∈ xs
        · simp [member, kept, ih]
        · simp [member, kept, ih]
      · have gone : [x].filter p = [] := by simp [kept]
        rw [gone, List.append_nil]
        by_cases member : x ∈ xs
        · simp [member, ih]
        · simp [member, kept, ih]

theorem eraseDups_left (xs ys : List α) :
    (xs.eraseDups ++ ys).eraseDups = (xs ++ ys).eraseDups := by
  have once : xs.eraseDups.eraseDups = xs.eraseDups := eraseDups_of_nodup (nodup_eraseDups xs)
  have same : ys.removeAll xs.eraseDups = ys.removeAll xs := by
    unfold List.removeAll
    exact List.filter_congr fun y _ => by simp
  rw [List.eraseDups_append, List.eraseDups_append, once, same]

theorem eraseDups_right (xs ys : List α) :
    (xs ++ ys.eraseDups).eraseDups = (xs ++ ys).eraseDups := by
  have late : (ys.eraseDups.removeAll xs).eraseDups = (ys.removeAll xs).eraseDups := by
    unfold List.removeAll
    rw [filter_eraseDups]
    exact eraseDups_of_nodup (nodup_eraseDups _)
  rw [List.eraseDups_append, List.eraseDups_append, late]

/-- Names that are taken away anyway may be taken away before. -/
theorem removeAll_filterMap_filter [DecidableEq β] (f : β → Option α) (xs zs : List β) :
    ((zs.filter (· ∉ xs)).filterMap f).removeAll (xs.filterMap f) =
      (zs.filterMap f).removeAll (xs.filterMap f) := by
  induction zs with
  | nil => rfl
  | cons z zs ih =>
      unfold List.removeAll at ih ⊢
      by_cases listed : z ∈ xs
      · have dropped : (z :: zs).filter (· ∉ xs) = zs.filter (· ∉ xs) := by simp [listed]
        rw [dropped, ih]
        cases named : f z with
        | none => rw [List.filterMap_cons_none named]
        | some name =>
            have there : name ∈ xs.filterMap f := List.mem_filterMap.2 ⟨z, listed, named⟩
            rw [List.filterMap_cons_some named]
            simp [there]
      · have kept : (z :: zs).filter (· ∉ xs) = z :: zs.filter (· ∉ xs) := by simp [listed]
        rw [kept]
        cases named : f z with
        | none => rw [List.filterMap_cons_none named, List.filterMap_cons_none named, ih]
        | some name =>
            rw [List.filterMap_cons_some named, List.filterMap_cons_some named, List.filter_cons,
              List.filter_cons, ih]

/-- What follows after a list may be given in another order, with items of that list among it, as long as
the names in all of it come up in the same order. -/
theorem eraseDups_filterMap_append [DecidableEq β] (f : β → Option α) {xs ys zs : List β}
    (same : (zs.filterMap f).eraseDups = ((xs ++ ys).filterMap f).eraseDups) :
    ((xs ++ zs.filter (· ∉ xs)).filterMap f).eraseDups = ((xs ++ ys).filterMap f).eraseDups := by
  have late : ∀ names : List α, (names.removeAll (xs.filterMap f)).eraseDups =
      names.eraseDups.removeAll (xs.filterMap f) := fun names => (filter_eraseDups _ names).symm
  have own : ((xs ++ ys).filterMap f).removeAll (xs.filterMap f) =
      (ys.filterMap f).removeAll (xs.filterMap f) := by
    have gone : (xs.filterMap f).filter (fun name => !(xs.filterMap f).elem name) = [] :=
      List.filter_eq_nil_iff.2 fun name member => by simpa using member
    rw [List.filterMap_append, List.removeAll, List.filter_append, gone, List.nil_append]
    rfl
  calc ((xs ++ zs.filter (· ∉ xs)).filterMap f).eraseDups
      = (xs.filterMap f).eraseDups ++
          (((zs.filter (· ∉ xs)).filterMap f).removeAll (xs.filterMap f)).eraseDups := by
        rw [List.filterMap_append, List.eraseDups_append]
    _ = (xs.filterMap f).eraseDups ++ (zs.filterMap f).eraseDups.removeAll (xs.filterMap f) := by
        rw [removeAll_filterMap_filter, late]
    _ = (xs.filterMap f).eraseDups ++ ((ys.filterMap f).removeAll (xs.filterMap f)).eraseDups := by
        rw [same, ← late, own]
    _ = ((xs ++ ys).filterMap f).eraseDups := by
        rw [List.filterMap_append, List.eraseDups_append]

theorem eraseDups_flatMap (f : β → List α) (xs : List β) :
    (xs.flatMap fun x => (f x).eraseDups).eraseDups = (xs.flatMap f).eraseDups := by
  induction xs with
  | nil => rfl
  | cons x xs ih =>
      rw [List.flatMap_cons, List.flatMap_cons, eraseDups_left, ← eraseDups_right, ih, eraseDups_right]

end MessageKeys.Occurrences
