import Mathlib.Data.List.Basic
import MessageKeys.Json.Reader
import MessageKeys.Proofs.Json.Strings
/-!
# Proofs.Json.Pretty — printed values read back

A value of texts and objects alone (`Textual`) is read back from its printed lines, as long as the
indentation is blank. The proof is by induction on the value and goes through both stages of reading at
once: a text *spells* a raw value if it is cut into words wherever it stands, and the words are read as
this value whatever is open (`Spells`).
-/
namespace MessageKeys.Json

/-- A value of nothing but texts, nulls and objects, no name twice in an object, with objects nested no
deeper than this. -/
inductive Textual : Nat → Json → Prop where
  | null (depth : Nat) : Textual depth .null
  | string (depth : Nat) (text : String) : Textual depth (.string text)
  | object {depth : Nat} {fields : List (String × Json)} (distinct : (fields.map (·.1)).Nodup)
      (inner : ∀ field ∈ fields, Textual depth field.2) : Textual (depth + 1) (.object fields)

theorem Textual.of_perm {depth : Nat} {fields others : List (String × Json)}
    (textual : Textual depth (.object fields)) (perm : others.Perm fields) :
    Textual depth (.object others) := by
  cases textual with
  | object distinct inner =>
      exact .object ((perm.map _).nodup_iff.2 distinct) fun field member => inner field (perm.subset member)

/-! ## Cutting into words -/

/-- A word ends in front of this text. -/
def Boundary (rest : List Char) : Prop :=
  ∀ c ∈ rest.head?, isSpace c ∨ c = '"' ∨ (mark? c).isSome

theorem tokensFrom?_spaces {blanks : List Char} (blank : ∀ c ∈ blanks, isSpace c) (rest : List Char) :
    tokensFrom? .between (blanks ++ rest) = tokensFrom? .between rest := by
  induction blanks with
  | nil => rfl
  | cons c blanks ih =>
      rw [List.forall_mem_cons] at blank
      rw [List.cons_append, tokensFrom?, if_pos blank.1, ih blank.2]

theorem tokensFrom?_mark {c : Char} {mark : Token} (shown : isSpace c = false) (open_ : c ≠ '"')
    (marks : mark? c = some mark) (rest : List Char) :
    tokensFrom? .between (c :: rest) = (tokensFrom? .between rest).map (mark :: ·) := by
  rw [tokensFrom?, if_neg (by simp [shown]), if_neg (by simpa using open_), marks]
  rfl

/-- The word that has been read so far is over. -/
theorem tokensFrom?_word {before rest : List Char} {token : Token} (boundary : Boundary rest)
    (word : wordToken? before.reverse = some token) :
    tokensFrom? (.word before) rest = (tokensFrom? .between rest).map (token :: ·) := by
  cases rest with
  | nil =>
      simp only [tokensFrom?, word]
      rfl
  | cons c rest =>
      have ends := boundary c rfl
      rw [tokensFrom?, tokensFrom?, word]
      split
      · rfl
      · split
        · rfl
        · cases marks : mark? c with
          | some mark => rfl
          | none => simp_all

theorem tokensFrom?_null {rest : List Char} (boundary : Boundary rest) :
    tokensFrom? .between ("null".toList ++ rest) = (tokensFrom? .between rest).map (.null :: ·) := by
  have letters : tokensFrom? .between ("null".toList ++ rest) =
      tokensFrom? (.word "null".toList.reverse) rest := rfl
  rw [letters, tokensFrom?_word boundary (by rw [List.reverse_reverse]; rfl)]

/-- A text is cut into these words, whatever boundary comes after it. -/
def CutInto (text : List Char) (words : List Token) : Prop :=
  ∀ rest, Boundary rest →
    tokensFrom? .between (text ++ rest) = (tokensFrom? .between rest).map (words ++ ·)

theorem CutInto.mark {c : Char} {mark : Token} {text : List Char} {words : List Token} (cut : CutInto text words)
    (shown : isSpace c = false) (open_ : c ≠ '"') (marks : mark? c = some mark) :
    CutInto (c :: text) (mark :: words) := by
  intro rest boundary
  rw [List.cons_append, tokensFrom?_mark shown open_ marks, cut rest boundary, Option.map_map]
  rfl

theorem CutInto.append {text more : List Char} {words others : List Token} (cut : CutInto text words)
    (cutMore : CutInto more others) (begins : ∀ rest, Boundary rest → Boundary (more ++ rest)) :
    CutInto (text ++ more) (words ++ others) := by
  intro rest boundary
  rw [List.append_assoc, cut _ (begins rest boundary), cutMore rest boundary, Option.map_map]
  exact congrArg (Option.map · _) (funext fun _ => (List.append_assoc ..).symm)

/-- Lines are indented with tabs unless something else is asked for. -/
theorem isSpace_tab : ∀ c ∈ "\t".toList, isSpace c := List.all_eq_true.1 rfl

theorem isSpace_newLine {indentation : List Char} (blank : ∀ c ∈ indentation, isSpace c)
    (level : Nat) : ∀ c ∈ newLine indentation level, isSpace c := by
  simp only [newLine, List.forall_mem_cons]
  refine ⟨rfl, fun c member => ?_⟩
  obtain ⟨part, among, within⟩ := List.mem_flatten.1 member
  rw [List.eq_of_mem_replicate among] at within
  exact blank c within

/-! ## Reading the words -/

/-- A text spells a value: it is cut into words which are read as this value, whatever is open. -/
def Spells (text : List Char) (raw : Raw) : Prop :=
  ∃ words, CutInto text words ∧
    ∀ stack rest, readValue stack (words ++ rest) = afterValue stack raw rest

/-- A text spells fields that come after the first one, up to the end of the object. -/
def SpellsFields (text : List Char) (fields : List (Option String × Raw)) : Prop :=
  ∃ words, CutInto text words ∧ ∀ stack before name value rest,
    afterValue (.object before name :: stack) value (words ++ .closeObject :: rest) =
      afterValue stack (.object (((name, value) :: before).reverse ++ fields)) rest

theorem spells_null : Spells "null".toList .null :=
  ⟨[.null], fun _ boundary => tokensFrom?_null boundary, fun stack rest => by
    rw [List.singleton_append, readValue]⟩

theorem spells_quote (text : String) : Spells (quote text) (.string (some text)) :=
  ⟨[.string (some text)], fun rest _ => tokensFrom?_quote text rest, fun stack rest => by
    rw [List.singleton_append, readValue]⟩

theorem boundary_prettyFields (indentation : List Char) (level : Nat)
    (fields : List (String × Json)) {rest : List Char} (boundary : Boundary rest) :
    Boundary (prettyFields indentation level fields ++ rest) := by
  cases fields with
  | nil => exact boundary
  | cons field fields =>
      intro c first
      cases first
      exact Or.inr (Or.inr rfl)

theorem boundary_newLine (indentation : List Char) (level : Nat) (rest : List Char) :
    Boundary (newLine indentation level ++ rest) := by
  intro c first
  cases first
  exact Or.inl rfl

section Indented

variable {indentation : List Char} (blank : ∀ c ∈ indentation, isSpace c)
include blank

/-- A field on a line of its own. -/
theorem cutInto_field (level : Nat) (name : String) {text : List Char} {words : List Token}
    (cut : CutInto text words) :
    CutInto (newLine indentation level ++ (quote name ++ ':' :: ' ' :: text))
      (.string (some name) :: .colon :: words) := by
  intro rest boundary
  have colon := tokensFrom?_mark (c := ':') rfl (by decide) rfl (' ' :: (text ++ rest))
  have gap : tokensFrom? .between (' ' :: (text ++ rest)) = tokensFrom? .between (text ++ rest) :=
    rfl
  rw [List.append_assoc, tokensFrom?_spaces (isSpace_newLine blank level), List.append_assoc,
    tokensFrom?_quote, List.cons_append, List.cons_append, colon, gap, cut rest boundary,
    Option.map_map, Option.map_map]
  rfl

/-- A closing brace on a line of its own. -/
theorem cutInto_closing (level : Nat) : CutInto (newLine indentation level ++ ['}']) [.closeObject] := by
  intro rest _
  rw [List.append_assoc, tokensFrom?_spaces (isSpace_newLine blank level)]
  exact tokensFrom?_mark rfl (by decide) rfl rest

omit blank in
/-- A field under a new name comes to stand behind the others. -/
theorem fields?_cons {depth : Nat} {before fields : List (String × Json)} {name : String} {value : Json}
    {raw : Raw} {raws : List (Option String × Raw)} (meant : raw.value? depth = some value)
    (others : ∀ before, ((before ++ fields).map (·.1)).Nodup →
      Raw.fields? depth before raws = some (before ++ fields))
    (distinct : ((before ++ (name, value) :: fields).map (·.1)).Nodup) :
    Raw.fields? depth before ((some name, raw) :: raws) = some (before ++ (name, value) :: fields) := by
  have fresh : before.any (·.1 == name) = false := by
    rw [List.map_append, List.map_cons, List.nodup_append] at distinct
    rw [List.any_eq_false]
    intro field member same
    exact distinct.2.2 field.1 (List.mem_map_of_mem member) name List.mem_cons_self (eq_of_beq same)
  have moved : before ++ [(name, value)] ++ fields = before ++ (name, value) :: fields := by
    rw [List.append_assoc, List.singleton_append]
  rw [Raw.fields?, meant]
  simp only
  rw [putField, fresh, if_neg Bool.false_ne_true, others _ (moved ▸ distinct), moved]

/-- The printed fields after the first one, once the value of each of them is read back. -/
theorem spells_prettyFields {depth : Nat} (level : Nat) (fields : List (String × Json))
    (inner : ∀ field ∈ fields, ∃ raw,
      Spells (prettyAt indentation level field.2) raw ∧ raw.value? depth = some field.2) :
    ∃ raws, SpellsFields (prettyFields indentation level fields) raws ∧
      ∀ before, ((before ++ fields).map (·.1)).Nodup →
        Raw.fields? depth before raws = some (before ++ fields) := by
  induction fields with
  | nil =>
      refine ⟨[], ⟨[], fun rest _ => ?_, fun stack before name value rest => ?_⟩, fun before _ => ?_⟩
      · simp [prettyFields]
      · rw [List.nil_append, afterValue, List.append_nil]
      · rw [Raw.fields?, List.append_nil]
  | cons field fields ih =>
      obtain ⟨name, value⟩ := field
      rw [List.forall_mem_cons] at inner
      obtain ⟨raw, ⟨words, cut, read⟩, meant⟩ := inner.1
      obtain ⟨raws, ⟨others, cutOthers, readOthers⟩, meantOthers⟩ := ih inner.2
      have line := ((cutInto_field blank level name cut).append cutOthers fun _ =>
        boundary_prettyFields indentation level fields).mark (c := ',') rfl (by decide) rfl
      refine ⟨(some name, raw) :: raws,
        ⟨.comma :: (.string (some name) :: .colon :: words ++ others), ?_, fun stack before last old rest => ?_⟩,
        fun _ => fields?_cons meant meantOthers⟩
      · rw [prettyFields]
        simpa only [List.cons_append, List.append_assoc] using line
      · simp only [List.cons_append, List.append_assoc]
        rw [afterValue, read, readOthers]
        simp

omit blank in
theorem spells_emptyObject : Spells ['{', '}'] (.object []) := by
  refine ⟨[.openObject, .closeObject], fun rest _ => ?_, fun stack rest => ?_⟩
  · have close := tokensFrom?_mark (c := '}') rfl (by decide) rfl rest
    have open_ := tokensFrom?_mark (c := '{') rfl (by decide) rfl ('}' :: rest)
    rw [close, Option.map_map] at open_
    exact open_
  · simp only [List.cons_append, List.nil_append]
    rw [readValue]

/-- A printed value of texts and objects spells a raw value that stands for it. -/
theorem spells_prettyAt {depth : Nat} {value : Json} (textual : Textual depth value) (level : Nat) :
    ∃ raw, Spells (prettyAt indentation level value) raw ∧ raw.value? depth = some value := by
  induction textual generalizing level with
  | null depth => exact ⟨.null, spells_null, rfl⟩
  | string depth text => exact ⟨.string (some text), spells_quote text, rfl⟩
  | @object depth fields distinct inner ih =>
      cases fields with
      | nil => exact ⟨.object [], spells_emptyObject, rfl⟩
      | cons field fields =>
          obtain ⟨name, value⟩ := field
          rw [List.forall_mem_cons] at ih
          obtain ⟨raw, ⟨words, cut, read⟩, meant⟩ := ih.1 (level + 1)
          obtain ⟨raws, ⟨others, cutOthers, readOthers⟩, meantOthers⟩ :=
            spells_prettyFields blank (level + 1) fields fun field member => ih.2 field member _
          -- The next field and the closing line both start where a word can end.
          have ends (rest : List Char) : Boundary (newLine indentation level ++ ['}'] ++ rest) :=
            List.append_assoc .. ▸ boundary_newLine indentation level ('}' :: rest)
          have begins (rest : List Char) : Boundary (prettyFields indentation (level + 1) fields ++
              (newLine indentation level ++ ['}']) ++ rest) := by
            rw [List.append_assoc]
            exact boundary_prettyFields indentation (level + 1) fields (ends rest)
          have behind := cutOthers.append (cutInto_closing blank level) fun rest _ => ends rest
          have lines := ((cutInto_field blank (level + 1) name cut).append behind fun rest _ =>
            begins rest).mark (c := '{') rfl (by decide) rfl
          refine ⟨.object ((some name, raw) :: raws),
            ⟨.openObject :: (.string (some name) :: .colon :: words ++ (others ++ [.closeObject])), ?_,
              fun stack rest => ?_⟩, ?_⟩
          · rw [prettyAt]
            simpa only [List.cons_append, List.append_assoc] using lines
          · simp only [List.cons_append, List.append_assoc, List.nil_append]
            rw [readValue, read, readOthers]
            simp
          · have first : Raw.fields? depth [] ((some name, raw) :: raws) = some ((name, value) :: fields) :=
              fields?_cons meant meantOthers distinct
            rw [Raw.value?, first]
            rfl

end Indented

/-- What the printed lines of a value say, whatever depth the reader allows. -/
theorem ofString?_toPrettyString_raw {depth : Nat} {value : Json} (textual : Textual depth value)
    {indentation blanks : String} (blank : ∀ c ∈ indentation.toList, isSpace c)
    (ending : ∀ c ∈ blanks.toList, isSpace c) :
    ∃ raw, Raw.ofString? (value.toPrettyString indentation ++ blanks) = some raw ∧
      raw.value? depth = some value := by
  obtain ⟨raw, ⟨words, cut, read⟩, meant⟩ := spells_prettyAt blank textual 0
  have boundary : Boundary blanks.toList := fun c first =>
    Or.inl (ending c (List.mem_of_mem_head? first))
  have nothing : tokensFrom? .between blanks.toList = some [] := by
    rw [← List.append_nil blanks.toList, tokensFrom?_spaces ending]
    rfl
  have cutAll : tokens? (value.toPrettyString indentation ++ blanks).toList = some (words ++ []) := by
    rw [tokens?, String.toList_append, toPrettyString, String.toList_ofList, cut _ boundary, nothing]
    rfl
  refine ⟨raw, ?_, meant⟩
  rw [Raw.ofString?, cutAll, Option.bind_some, read, afterValue]

/-- **Printed values read back.**  A value of texts and objects is read from its lines, indented by blanks
and followed by blanks, as it was. -/
theorem ofString?_toPrettyString {value : Json} (textual : Textual maxDepth value)
    {indentation blanks : String} (blank : ∀ c ∈ indentation.toList, isSpace c)
    (ending : ∀ c ∈ blanks.toList, isSpace c) :
    Json.ofString? (value.toPrettyString indentation ++ blanks) = some value := by
  obtain ⟨raw, shown, meant⟩ := ofString?_toPrettyString_raw textual blank ending
  rw [Json.ofString?, shown, Option.bind_some, meant]

end MessageKeys.Json
