import Mathlib.Data.List.Basic
/-!
# Proofs.Results — results for all items of a list

Going through a list stops at the first item without a result, and fails as this item does
(`mapM_eq_error_iff`). If every item has one, the results are those of the items, in order
(`mapM_eq_ok_iff`).
-/
namespace MessageKeys

variable {α β ε : Type} {f : α → Except ε β} {xs : List α} {ys : List β}

theorem map_eq_ok_iff {result : Except ε α} {g : α → β} {y : β} :
    result.map g = .ok y ↔ ∃ x, result = .ok x ∧ g x = y := by
  cases result <;> simp [Except.map]

theorem bind_eq_ok_iff {result : Except ε α} {g : α → Except ε β} {y : β} :
    result >>= g = .ok y ↔ ∃ x, result = .ok x ∧ g x = .ok y := by
  cases result <;> simp [bind, Except.bind]

theorem mapM_eq_ok_iff : xs.mapM f = .ok ys ↔ xs.map f = ys.map .ok := by
  induction xs generalizing ys with
  | nil => cases ys <;> simp [pure, Except.pure]
  | cons x xs ih =>
      rw [List.mapM_cons, List.map_cons]
      cases first : f x with
      | error failure => cases ys <;> simp [bind, Except.bind]
      | ok y =>
          cases rest : xs.mapM f with
          | error failure =>
              have never : ∀ zs : List β, xs.map f ≠ zs.map .ok := fun zs same => by
                rw [ih.2 same] at rest
                cases rest
              cases ys with
              | nil => simp [bind, Except.bind]
              | cons z zs => simp [bind, Except.bind, never zs]
          | ok zs =>
              have others := ih.1 rest
              cases ys with
              | nil => simp [bind, Except.bind, pure, Except.pure]
              | cons z ys =>
                  have injective : Function.Injective (Except.ok : β → Except ε β) :=
                    fun _ _ same => Except.ok.inj same
                  simp only [bind, Except.bind, pure, Except.pure, Except.ok.injEq, List.cons.injEq,
                    List.map_cons, others, (List.map_injective_iff.2 injective).eq_iff]

theorem mapM_of_forall {g : α → β} (each : ∀ x ∈ xs, f x = .ok (g x)) :
    xs.mapM f = .ok (xs.map g) := by
  rw [mapM_eq_ok_iff, List.map_map]
  exact List.map_congr_left each

theorem mapM_congr {g : α → Except ε β} (same : ∀ x ∈ xs, f x = g x) : xs.mapM f = xs.mapM g := by
  induction xs with
  | nil => rfl
  | cons x xs ih =>
      obtain ⟨first, others⟩ := List.forall_mem_cons.1 same
      rw [List.mapM_cons, List.mapM_cons, first, ih others]

theorem exists_mapM_of_forall (each : ∀ x ∈ xs, ∃ y, f x = .ok y) : ∃ ys, xs.mapM f = .ok ys := by
  induction xs with
  | nil => exact ⟨[], rfl⟩
  | cons x xs ih =>
      obtain ⟨⟨y, first⟩, others⟩ := List.forall_mem_cons.1 each
      obtain ⟨ys, rest⟩ := ih others
      exact ⟨y :: ys, by rw [List.mapM_cons, first, rest]; rfl⟩

theorem getElem?_of_mapM (all : xs.mapM f = .ok ys) {i : Nat} {x : α} (found : xs[i]? = some x) :
    ∃ y, ys[i]? = some y ∧ f x = .ok y := by
  have same := congrArg (·[i]?) (mapM_eq_ok_iff.1 all)
  simp only [List.getElem?_map, found, Option.map_some] at same
  cases there : ys[i]? with
  | none =>
      rw [there] at same
      cases same
  | some y =>
      rw [there] at same
      exact ⟨y, rfl, Option.some.inj same⟩

theorem exists_of_mem_mapM (all : xs.mapM f = .ok ys) {y : β} (member : y ∈ ys) :
    ∃ x ∈ xs, f x = .ok y := by
  have listed := List.mem_map_of_mem (f := (Except.ok : β → Except ε β)) member
  rw [← mapM_eq_ok_iff.1 all] at listed
  exact List.mem_map.1 listed

theorem mapM_cons_of_error {x : α} {failure : ε} (first : f x = .error failure) (xs : List α) :
    (x :: xs).mapM f = .error failure := by
  rw [List.mapM_cons, first]
  rfl

theorem mapM_cons_eq_error_iff {x : α} {y : β} (first : f x = .ok y) {failure : ε} :
    (x :: xs).mapM f = .error failure ↔ xs.mapM f = .error failure := by
  rw [List.mapM_cons, first]
  cases xs.mapM f <;> simp [bind, Except.bind, pure, Except.pure]

/-- What goes wrong is what goes wrong with the first item that has no result. -/
theorem mapM_eq_error_iff {failure : ε} :
    xs.mapM f = .error failure ↔ ∃ before x after, xs = before ++ x :: after ∧
      (∀ earlier ∈ before, ∃ y, f earlier = .ok y) ∧ f x = .error failure := by
  constructor
  · intro failed
    induction xs with
    | nil => cases failed
    | cons x xs ih =>
        cases first : f x with
        | error other =>
            cases (mapM_cons_of_error first xs).symm.trans failed
            exact ⟨[], x, xs, rfl, by simp, first⟩
        | ok y =>
            obtain ⟨before, z, after, rfl, fine, failed'⟩ := ih ((mapM_cons_eq_error_iff first).1 failed)
            exact ⟨x :: before, z, after, rfl, List.forall_mem_cons.2 ⟨⟨y, first⟩, fine⟩, failed'⟩
  · rintro ⟨before, x, after, rfl, fine, failed⟩
    induction before with
    | nil => exact mapM_cons_of_error failed after
    | cons earlier before ih =>
        obtain ⟨⟨y, first⟩, fine⟩ := List.forall_mem_cons.1 fine
        exact (mapM_cons_eq_error_iff first).2 (ih fine)

/-- Results that only fail in other words are the same results. -/
theorem mapM_mapError {δ : Type} {g : α → Except δ β} (wrap : δ → ε)
    (each : ∀ x ∈ xs, f x = (g x).mapError wrap) : xs.mapM f = (xs.mapM g).mapError wrap := by
  induction xs with
  | nil => rfl
  | cons x xs ih =>
      rw [List.forall_mem_cons] at each
      rw [List.mapM_cons, List.mapM_cons, each.1, ih each.2]
      cases g x with
      | error failure => rfl
      | ok y => cases xs.mapM g <;> rfl

/-- Keeping the items beside their results changes no result. -/
theorem map_snd_mapM (xs : List α) (f : α → Except ε β) :
    (xs.mapM fun x => (f x).map (x, ·)).map (List.map Prod.snd) = xs.mapM f := by
  induction xs with
  | nil => rfl
  | cons x xs ih =>
      rw [List.mapM_cons, List.mapM_cons, ← ih]
      cases f x with
      | error failure => rfl
      | ok y => cases xs.mapM fun x => (f x).map (x, ·) <;> rfl

/-- Where one way through a list has a result for every item, another one does so too. -/
theorem mapM_transfer {g : α → Except ε β} {r : β → β → Prop} (all : xs.mapM f = .ok ys)
    (each : ∀ x ∈ xs, ∀ y ∈ ys, f x = .ok y → ∃ z, g x = .ok z ∧ r y z) :
    ∃ zs, xs.mapM g = .ok zs ∧ ∀ z ∈ zs, ∃ y ∈ ys, r y z := by
  rw [mapM_eq_ok_iff] at all
  simp only [mapM_eq_ok_iff]
  induction xs generalizing ys with
  | nil => exact ⟨[], rfl, by simp⟩
  | cons x xs ih =>
      cases ys with
      | nil => cases all
      | cons y ys =>
          rw [List.map_cons, List.map_cons, List.cons.injEq] at all
          obtain ⟨z, made, related⟩ := each x List.mem_cons_self y List.mem_cons_self all.1
          obtain ⟨zs, others, relations⟩ := ih all.2 fun x' one y' other =>
            each x' (List.mem_cons_of_mem _ one) y' (List.mem_cons_of_mem _ other)
          refine ⟨z :: zs, by rw [List.map_cons, List.map_cons, made, others], ?_⟩
          rw [List.forall_mem_cons]
          refine ⟨⟨y, List.mem_cons_self, related⟩, fun z' member => ?_⟩
          obtain ⟨y', among, related'⟩ := relations z' member
          exact ⟨y', List.mem_cons_of_mem _ among, related'⟩

end MessageKeys
