import MessageKeys.KeyTable
/-!
# PostProcessor — what is done to keys before they are written

A `PostProcessor` changes the draft of an output, which begins as what was extracted merged with what
the output held before. Two of them say what becomes of keys without a wording, so only one of
these two may be used (`conflict?`).
-/
namespace MessageKeys

inductive PostProcessor where
  /-- Drops keys that were not extracted. -/
  | purgeObsoleteKeys
  /-- Words every key that has no wording by itself. -/
  | keyAsDefaultValue
  /-- Keeps only the wordings that the output held before. -/
  | nullAsDefaultValue
  /-- Puts the keys in ascending order. -/
  | sortByKey
deriving DecidableEq, Repr

namespace PostProcessor

def name : PostProcessor → String
  | .purgeObsoleteKeys => "purge-obsolete-keys"
  | .keyAsDefaultValue => "key-as-default-value"
  | .nullAsDefaultValue => "null-as-default-value"
  | .sortByKey => "sort-by-key"

def all : List PostProcessor :=
  [.purgeObsoleteKeys, .keyAsDefaultValue, .nullAsDefaultValue, .sortByKey]

def ofName? (name : String) : Option PostProcessor := all.find? (·.name == name)

/-- The draft after this processor. -/
def process (processor : PostProcessor) (draft extracted existing : KeyTable) : KeyTable :=
  match processor with
  | .purgeObsoleteKeys => draft.intersect extracted
  | .keyAsDefaultValue => draft.mapValues fun key value => some (value.getD key)
  | .nullAsDefaultValue => draft.mapValues fun key _ => (existing.get? key).join
  | .sortByKey => draft.sorted

/-- Two processors that may not be used together. -/
structure Conflict where
  first : PostProcessor
  second : PostProcessor
deriving DecidableEq, Repr

def Conflict.message (conflict : Conflict) : String :=
  "'" ++ conflict.first.name ++ "' and '" ++ conflict.second.name ++ "' cannot be used together"

/-- The conflict between the two ways of treating keys without a wording, if both are asked
for. -/
def conflict? (processors : List PostProcessor) : Option Conflict :=
  if processors.contains .keyAsDefaultValue && processors.contains .nullAsDefaultValue then
    some ⟨.keyAsDefaultValue, .nullAsDefaultValue⟩
  else none

/-- The draft after all processors in order. -/
def apply (processors : List PostProcessor) (draft extracted existing : KeyTable) : KeyTable :=
  processors.foldl (fun draft processor => processor.process draft extracted existing) draft

end PostProcessor
end MessageKeys
