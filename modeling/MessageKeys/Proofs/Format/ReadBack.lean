import MessageKeys.KeyTable
/-!
# Proofs.Format.ReadBack — what is left of a wording in a file

A file has no way to tell an empty wording from none, so an empty wording reads back as none. Anything
else reads back as it is.
-/
namespace MessageKeys.Wording

/-- The wording that is read where this one was written. -/
def readBack (value : Wording) : Wording := value.filter (!·.isEmpty)

@[simp] theorem readBack_none : readBack none = none := rfl

theorem readBack_some (text : String) :
    readBack (some text) = if text.isEmpty then none else some text := by
  rw [readBack, Option.filter_some]
  cases text.isEmpty <;> rfl

@[simp] theorem readBack_empty : readBack (some "") = none := rfl

/-- Reading back a second time finds the same. -/
@[simp] theorem readBack_readBack (value : Wording) : readBack (readBack value) = readBack value := by
  cases value with
  | none => rfl
  | some text =>
      rw [readBack_some]
      split
      · rfl
      · rename_i full
        rw [readBack_some, if_neg full]

/-- A default that stands in for an empty or missing wording does so again after reading back. -/
theorem readBack_or {value : Wording} (stable : value.readBack = value) (default_ : Wording) :
    (readBack (value.or default_)).or default_ = value.or default_ := by
  cases value with
  | some text => rw [Option.some_or, stable, Option.some_or]
  | none =>
      rw [Option.none_or]
      cases default_ with
      | none => rfl
      | some text =>
          rw [readBack_some]
          split <;> rfl

end MessageKeys.Wording
