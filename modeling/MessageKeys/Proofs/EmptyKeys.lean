import MessageKeys.Proofs.Job.Sorting
import MessageKeys.Proofs.Script.Strings
/-!
# Proofs.EmptyKeys — where an empty key comes from

The pipe and the directive never give the empty text as a key: the pipe drops it, and what marks an element is
a text that is not blank, a literal that is not empty, or texts of the element, none of which is. A call hands
on whatever its first argument can give, and that can be empty (`empty_mem_strings_iff`). So an empty key
comes from a call of the service or of the marker function and from nothing else
(`Strategy.empty_mem_keys?_iff`).
-/
namespace MessageKeys

/-! ## Expressions -/

theorem join_eq_empty_iff (texts : List String) : String.join texts = "" ↔ ∀ text ∈ texts, text = "" := by
  induction texts with
  | nil => simp
  | cons text texts ih => rw [String.join_cons, String.append_eq_empty_iff, ih, List.forall_mem_cons]

namespace Script.Node

/-- The empty text in quotes or backticks, apart from wrappers. -/
def isEmptyText (node : Node) : Bool :=
  match node.unwrap with
  | .str value => value == some ""
  | .template texts [] => texts.head?.bind id == some ""
  | _ => false

/-- What is no sum and leaves no choice gives the empty text if it is that text. -/
theorem empty_mem_strings_of_plain {node : Node} (noChoice : node.isChoice = false)
    (noSum : node.isSum = false) : "" ∈ node.strings ↔ node.isEmptyText := by
  rw [← strings_unwrap]
  unfold isChoice at noChoice
  unfold isSum at noSum
  unfold isEmptyText
  cases whole : node.unwrap with
  | wrapped wrapper inner types => exact absurd whole (unwrap_ne_wrapped node wrapper inner types)
  | str value => simp [strings]
  | template texts substitutions =>
      cases substitutions with
      | nil => simp [strings]
      | cons first others => simp [strings]
  | binary op left right => cases op <;> simp_all [strings]
  | _ => simp_all [strings]

/-- A sum gives the empty text if each of its operands gives that and nothing else. -/
theorem empty_mem_strings_of_isSum {node : Node} (sum : node.isSum) :
    "" ∈ node.strings ↔ ∀ addend ∈ node.addends, addend.strings = [""] := by
  rw [strings_of_isSum sum]
  split
  · rename_i single
    simp only [List.mem_singleton, eq_comm (a := ""), join_eq_empty_iff, List.forall_mem_flatMap]
    refine forall₂_congr fun addend listed => ?_
    obtain ⟨text, only⟩ := List.length_eq_one_iff.1 (single addend listed)
    simp [only]
  · rename_i uncertain
    refine iff_of_false List.not_mem_nil fun empty => uncertain fun addend listed => ?_
    rw [empty addend listed, List.length_singleton]

theorem isEmptyText_of_isSum {node : Node} (sum : node.isSum) : node.isEmptyText = false := by
  unfold isSum at sum
  unfold isEmptyText
  split at sum
  · simp_all
  · cases sum

/-- The expression can come out empty: it chooses between operands one of which is the empty text, or a sum of
operands that are empty and nothing else. -/
def MayBeEmpty (node : Node) : Prop :=
  ∃ operand ∈ node.alternatives, operand.isEmptyText ∨
    operand.isSum ∧ ∀ addend ∈ operand.addends, addend.strings = [""]

theorem empty_mem_strings_iff (node : Node) : "" ∈ node.strings ↔ node.MayBeEmpty := by
  rw [← strings_alternatives, List.mem_flatMap]
  refine exists_congr fun operand => and_congr_right fun listed => ?_
  have noChoice := isChoice_of_mem_alternatives node listed
  cases sum : operand.isSum with
  | true => simp [empty_mem_strings_of_isSum sum, isEmptyText_of_isSum sum]
  | false => simp [empty_mem_strings_of_plain noChoice sum]

end Script.Node

/-! ## Templates -/

namespace Template

/-- A literal that counts is not empty. -/
theorem quotedLiteral?_ne_nil {expression text : List Char} (found : quotedLiteral? expression = some text) :
    text ≠ [] := by
  unfold quotedLiteral? at found
  split at found
  · cases found
  · split at found
    · simpa using (Option.filter_eq_some_iff.1 found).2
    · cases found

theorem Element.directiveValue?_ne_empty {element : Element} {value : String}
    (found : element.directiveValue? = some value) : value ≠ "" := by
  rintro rfl
  have shown := (Option.filter_eq_some_iff.1 found).2
  exact absurd shown (by decide)

theorem Element.empty_notMem_directiveKeys {element : Element} (texts : "" ∉ element.texts) :
    "" ∉ element.directiveKeys := by
  unfold directiveKeys
  split
  · rename_i value found
    have shown := directiveValue?_ne_empty found
    split <;> simp [Ne.symm shown]
  · split
    · rename_i bound _
      intro empty
      obtain ⟨text, literal, same⟩ := Option.map_eq_some_iff.1 (Option.mem_toList.1 empty)
      obtain ⟨value, -, read⟩ := Option.bind_eq_some_iff.1 literal
      exact quotedLiteral?_ne_nil read (String.ofList_inj.1 same)
    · split
      · exact fun empty => texts (List.mem_of_mem_filter empty)
      · exact List.not_mem_nil

theorem empty_notMem_readElement (tree : Markup.Tree) : "" ∉ (readElement tree).texts := by
  unfold readElement
  simp only [List.mem_filterMap, not_exists, not_and]
  intro part _
  split
  · split
    · simp
    · rename_i shown
      simpa using shown
  · simp

theorem empty_notMem_ofNode {tree : Markup.Tree} :
    ∀ element ∈ (ofNode tree).elements, "" ∉ element.texts := by
  unfold ofNode
  split
  · exact List.forall_mem_singleton.2 (empty_notMem_readElement tree)
  · split
    · split
      · split <;> exact nofun
      · exact nofun
    · exact nofun
  · exact nofun
  · exact nofun
  · exact nofun

mutual

/-- The texts of an element are trimmed, and none is empty. -/
theorem empty_notMem_ofTree : (tree : Markup.Tree) →
    ∀ element ∈ (Layout.ofTree tree).elements, "" ∉ element.texts
  | ⟨symbol, lead, start, stop, children, extra, tags, cost, shownChildren, shownBelow⟩ => by
      rw [Layout.ofTree]
      exact List.forall_mem_append.2 ⟨empty_notMem_ofNode, empty_notMem_ofTrees children⟩

theorem empty_notMem_ofTrees : (trees : List Markup.Tree) →
    ∀ element ∈ (Layout.ofTrees trees).elements, "" ∉ element.texts
  | [] => nofun
  | tree :: trees => by
      rw [Layout.ofTrees]
      exact List.forall_mem_append.2 ⟨empty_notMem_ofTree tree, empty_notMem_ofTrees trees⟩

end

theorem empty_notMem_ofString (template : String) :
    ∀ element ∈ (Document.ofString template).elements, "" ∉ element.texts := by
  simp only [Document.ofString]
  exact empty_notMem_ofTree (Markup.Growth.treeOf template.toList)

end Template

/-- The templates of a file that has been read have been read from texts. -/
theorem Source.exists_text_of_templates? {path text : String} {source : Source}
    (read : Source.read path text = .ok source) {templates : List Template.Document}
    (found : source.templates? = some templates) :
    ∀ document ∈ templates, ∃ template, document = Template.Document.ofString template := by
  unfold Source.read at read
  split at read
  · cases read
    cases found
    exact List.forall_mem_singleton.2 ⟨text, rfl⟩
  · cases read
    cases found
  · split at read
    · cases read
    · rename_i code _
      cases read
      have same : templates = code.componentTemplates.map Template.Document.ofString := by
        cases listed : code.componentTemplates.map Template.Document.ofString with
        | nil =>
            rw [listed] at found
            cases found
        | cons first others =>
            rw [listed] at found
            exact (Option.some.inj found).symm
      rw [same]
      exact List.forall_mem_map.2 fun template _ => ⟨template, rfl⟩

/-! ## Strategies -/

namespace Strategy

/-- The first argument of a call is no spread one, and can come out empty. -/
def FirstMayBeEmpty : List Script.Node → Prop
  | [] => False
  | first :: _ => first.isSpread = false ∧ first.MayBeEmpty

theorem empty_mem_argumentKeys_iff (arguments : List Script.Node) :
    "" ∈ argumentKeys arguments ↔ FirstMayBeEmpty arguments := by
  cases arguments with
  | nil => simp [argumentKeys, FirstMayBeEmpty]
  | cons first others =>
      rw [argumentKeys, FirstMayBeEmpty, ← Script.Node.empty_mem_strings_iff]
      cases first.isSpread <;> simp

/-- The program in the file has a call that hands an empty key to the service or to the marker function. -/
inductive HandsEmpty (source : Source) : Strategy → Prop
  | service {type method code node property call} : source.program? = some code → node ∈ code.classes →
      node.propertyOfType type = some property →
      call ∈ node.methodCalls property (serviceMethods method) → FirstMayBeEmpty call →
      HandsEmpty source (.service type method)
  | marker {name code call} : source.program? = some code →
      call ∈ code.functionCalls (name :: code.aliases name) → FirstMayBeEmpty call →
      HandsEmpty source (.marker name)

theorem empty_notMem_pipeKeys (name expression : String) : "" ∉ pipeKeys name expression := by
  unfold pipeKeys
  simp only [List.mem_flatMap, not_exists, not_and]
  intro operand _
  split <;> simp

theorem mem_keys?_service_iff {type key : String} {method : Option String} {source : Source} :
    (∃ keys, (service type method).keys? source = some keys ∧ key ∈ keys) ↔
      ∃ code, source.program? = some code ∧ ∃ node ∈ code.classes, key ∈ serviceKeys type method node := by
  unfold keys?
  cases source.program? with
  | none => simp
  | some code => cases listed : code.classes <;> simp [listed]

theorem empty_mem_serviceKeys_iff {type : String} {method : Option String} {node : Script.Node} :
    "" ∈ serviceKeys type method node ↔ ∃ property, node.propertyOfType type = some property ∧
      ∃ call ∈ node.methodCalls property (serviceMethods method), FirstMayBeEmpty call := by
  unfold serviceKeys
  cases node.propertyOfType type with
  | none => simp
  | some property => simp [List.mem_flatMap, empty_mem_argumentKeys_iff]

theorem empty_mem_markerKeys_iff {name : String} {code : Script.Module} :
    "" ∈ markerKeys name code ↔
      ∃ call ∈ code.functionCalls (name :: code.aliases name), FirstMayBeEmpty call := by
  simp [markerKeys, List.mem_flatMap, empty_mem_argumentKeys_iff]

/-- **An empty key comes from a call**, of the service or of the marker function. -/
theorem empty_mem_keys?_iff {path text : String} {source : Source}
    (read : Source.read path text = .ok source) (strategy : Strategy) :
    (∃ keys, strategy.keys? source = some keys ∧ "" ∈ keys) ↔ strategy.HandsEmpty source := by
  cases strategy with
  | pipe name =>
      refine iff_of_false ?_ nofun
      rintro ⟨keys, found, empty⟩
      obtain ⟨templates, -, rfl⟩ := Option.map_eq_some_iff.1 found
      obtain ⟨expression, -, here⟩ := List.mem_flatMap.1 empty
      exact empty_notMem_pipeKeys name expression here
  | directive =>
      refine iff_of_false ?_ nofun
      rintro ⟨keys, found, empty⟩
      obtain ⟨templates, held, rfl⟩ := Option.map_eq_some_iff.1 found
      obtain ⟨element, among, here⟩ := List.mem_flatMap.1 empty
      obtain ⟨document, listed, inside⟩ := List.mem_flatMap.1 among
      obtain ⟨template, rfl⟩ := Source.exists_text_of_templates? read held document listed
      exact Template.Element.empty_notMem_directiveKeys
        (Template.empty_notMem_ofString template element inside) here
  | service type method =>
      rw [mem_keys?_service_iff]
      constructor
      · rintro ⟨code, held, node, among, here⟩
        obtain ⟨property, named, call, called, empty⟩ := empty_mem_serviceKeys_iff.1 here
        exact .service held among named called empty
      · rintro (⟨held, among, named, called, empty⟩ | _)
        exact ⟨_, held, _, among, empty_mem_serviceKeys_iff.2 ⟨_, named, _, called, empty⟩⟩
  | marker name =>
      constructor
      · rintro ⟨keys, found, here⟩
        obtain ⟨code, held, rfl⟩ := Option.map_eq_some_iff.1 found
        obtain ⟨call, called, empty⟩ := empty_mem_markerKeys_iff.1 here
        exact .marker held called empty
      · rintro (_ | ⟨held, called, empty⟩)
        exact ⟨_, Option.map_eq_some_iff.2 ⟨_, held, rfl⟩, empty_mem_markerKeys_iff.2 ⟨_, called, empty⟩⟩

end Strategy

theorem Source.empty_mem_keyTable_iff {path text : String} {source : Source}
    (read : Source.read path text = .ok source) (strategies : List Strategy) :
    "" ∈ (source.keyTable strategies).keys ↔ ∃ strategy ∈ strategies, strategy.HandsEmpty source := by
  rw [keys_keyTable, List.mem_eraseDups, mem_foundKeys]
  exact exists_congr fun strategy => and_congr_right fun _ => strategy.empty_mem_keys?_iff read

theorem empty_mem_extract_iff {strategies : List Strategy} {path text : String} {table : KeyTable}
    (found : extract strategies path text = .ok table) :
    "" ∈ table.keys ↔ ∃ source, Source.read path text = .ok source ∧
      ∃ strategy ∈ strategies, strategy.HandsEmpty source := by
  obtain ⟨source, read, rfl⟩ := map_eq_ok_iff.1 found
  rw [source.empty_mem_keyTable_iff read]
  exact ⟨fun hands => ⟨source, read, hands⟩, fun ⟨_, again, hands⟩ =>
    Except.ok.inj (again.symm.trans read) ▸ hands⟩

end MessageKeys
