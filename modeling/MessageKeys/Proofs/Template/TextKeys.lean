import Mathlib.Data.List.GetD
import MessageKeys.Proofs.Markup.Growth
import MessageKeys.Proofs.Template.Skipped
import MessageKeys.Template.Directive
/-!
# Proofs.Template.TextKeys — texts of an element and interpolations

An element that marks its texts gives those as keys in which no `{{` stands. An interpolation that is cut into
several texts by markup has its braces in the first and in the last of them at most, and the others are keys
like any text. What holds is that no text that gives a key opens an interpolation: one that shares bytes with it
has begun in front of it (`opens_in_front_of_text`). That rests on where texts stand: each is a text node of the
tree of the template, and a text node goes on as far as it can (`Markup.Growth.whole_treeOf`).
-/
namespace MessageKeys.Markup.Tree

/-- The second tree is the first one or stands below it. -/
inductive Part : Tree → Tree → Prop
  | self (tree : Tree) : Part tree tree
  | within {tree child part : Tree} : child ∈ tree.children → Part child part → Part tree part

theorem Whole.part {text : List Char} {tree part : Tree} (whole : tree.Whole text) (within : tree.Part part) :
    part.Whole text := by
  induction within with
  | self => exact whole
  | within child _ ih => exact ih (whole.children _ child)

mutual

/-- What readers see below a tree is part of one of its children. -/
theorem part_of_mem_shown {node : Tree} : (tree : Tree) → node ∈ tree.shown →
    ∃ child ∈ tree.children, child.Part node
  | ⟨_, _, _, _, children, _, _, _, _, _⟩, member => part_of_mem_shownAmong children (by rwa [shown] at member)

theorem part_of_mem_shownAmong {node : Tree} : (trees : List Tree) → node ∈ shownAmong trees →
    ∃ child ∈ trees, child.Part node
  | [], member => by simp [shownAmong] at member
  | tree :: trees, member => by
      rw [shownAmong] at member
      rcases List.mem_append.1 member with here | there
      · refine ⟨tree, List.mem_cons_self, ?_⟩
        split at here
        · exact List.mem_singleton.1 here ▸ .self tree
        · obtain ⟨child, listed, within⟩ := part_of_mem_shown tree here
          exact .within listed within
      · obtain ⟨child, listed, within⟩ := part_of_mem_shownAmong trees there
        exact ⟨child, List.mem_cons_of_mem tree listed, within⟩

end

/-- Where all trees below the first are whole, so are those below each part of it. -/
theorem whole_below {text : List Char} {top tree : Tree} (whole : ∀ child ∈ top.children, child.Whole text)
    (within : top.Part tree) : ∀ child ∈ tree.children, child.Whole text := by
  cases within with
  | self => exact whole
  | within listed part => exact ((whole _ listed).part part).children

end MessageKeys.Markup.Tree

namespace MessageKeys.Template
open Markup (Tree Place)

/-! ## Texts of elements -/

theorem readElement_of_mem_ofNode {tree : Tree} {element : Element} (member : element ∈ (ofNode tree).elements) :
    readElement tree = element := by
  unfold ofNode at member
  split at member
  · exact (List.mem_singleton.1 member).symm
  · split at member
    · split at member
      · split at member <;> simp [Layout.empty] at member
      · simp [Layout.empty] at member
    · simp [Layout.empty] at member
  · simp [Layout.empty] at member
  · simp [Layout.empty] at member
  · simp [Layout.empty] at member

mutual

/-- An element of a layout is read from a part of the tree. -/
theorem part_of_mem_elements {element : Element} : (tree : Tree) → element ∈ (Layout.ofTree tree).elements →
    ∃ part, tree.Part part ∧ readElement part = element
  | ⟨symbol, lead, start, stop, children, extra, tags, cost, shownChildren, shownBelow⟩, member => by
      rw [Layout.ofTree] at member
      rcases List.mem_append.1 member with own | inner
      · exact ⟨_, .self _, readElement_of_mem_ofNode own⟩
      · obtain ⟨child, listed, part, within, read⟩ := part_of_mem_elementsAmong children inner
        exact ⟨part, .within listed within, read⟩

theorem part_of_mem_elementsAmong {element : Element} : (trees : List Tree) →
    element ∈ (Layout.ofTrees trees).elements →
      ∃ tree ∈ trees, ∃ part, tree.Part part ∧ readElement part = element
  | [], member => by simp [Layout.ofTrees, Layout.empty] at member
  | tree :: trees, member => by
      rw [Layout.ofTrees] at member
      rcases List.mem_append.1 member with here | there
      · exact ⟨tree, List.mem_cons_self, part_of_mem_elements tree here⟩
      · obtain ⟨child, listed, found⟩ := part_of_mem_elementsAmong trees there
        exact ⟨child, List.mem_cons_of_mem tree listed, found⟩

end

/-- The node is a text directly inside the element that `tree` is read as, and `key` is what is left of it
without the blanks at its ends. -/
structure GivesText (tree node : Tree) (key : String) : Prop where
  shown : node ∈ tree.shown
  text : node.symbol = .terminal .text
  trimmed : Text.trim node.text = key
  some_ : key ≠ ""

theorem mem_texts_iff {tree : Tree} {key : String} :
    key ∈ (readElement tree).texts ↔ ∃ node, GivesText tree node key := by
  simp only [readElement, List.mem_filterMap, Option.ite_none_right_eq_some, Option.ite_none_left_eq_some,
    beq_iff_eq, String.isEmpty_iff, Option.some.injEq]
  constructor
  · rintro ⟨node, shown, text, some_, trimmed⟩
    exact ⟨node, shown, text, trimmed, trimmed ▸ some_⟩
  · rintro ⟨node, shown, text, trimmed, some_⟩
    exact ⟨node, shown, text, trimmed ▸ some_, trimmed⟩

/-! ## Texts without `{{` -/

theorem holds_append (part front rest : List Char) : Text.holds part (front ++ (part ++ rest)) = true := by
  induction front with
  | nil =>
      cases text : part ++ rest with
      | nil => rw [(List.append_eq_nil_iff.1 text).1]; rfl
      | cons c text' =>
          have front := List.isPrefixOf_iff_prefix.2 (List.prefix_append part rest)
          rw [List.nil_append, Text.holds, ← text, front, Bool.true_or]
  | cons c front ih => rw [List.cons_append, Text.holds, ih, Bool.or_true]

/-- Where braces stand in a text, they stand in what is left of it without the blanks at its ends. -/
theorem isInterpolated_trim (front rest : List Char) :
    isInterpolated (Text.trim (String.ofList (front ++ '{' :: '{' :: rest))) = true := by
  have visible : Text.isBlank '{' = false := by decide
  obtain ⟨lead, front'⟩ := Text.exists_dropWhile_append visible front ('{' :: rest)
  obtain ⟨trail, behind⟩ := Text.exists_dropWhile_append visible rest.reverse ('{' :: lead.reverse)
  have trimmed : Text.trimChars (front ++ '{' :: '{' :: rest) = lead ++ (['{', '{'] ++ trail.reverse) := by
    rw [Text.trimChars, front']
    have turned : (lead ++ '{' :: '{' :: rest).reverse = rest.reverse ++ '{' :: '{' :: lead.reverse := by simp
    rw [turned, behind]
    simp
  rw [isInterpolated, Text.trim, String.toList_ofList, String.toList_ofList, trimmed]
  exact holds_append ..

theorem ne_of_not_interpolated {body : List Char} (free : !isInterpolated (Text.trim (String.ofList body)))
    (lead rest : List Char) : body ≠ lead ++ '{' :: '{' :: rest := by
  rintro rfl
  rw [isInterpolated_trim] at free
  exact Bool.false_ne_true free

/-! ## Where a text node stands -/

/-- The bytes of a tree. -/
def bytesOf (tree : Tree) : Range := ⟨tree.start.offset, tree.stop.offset⟩

/-- A text node stands between other bytes of the text, and what follows it is a blank or could not have stood
in it. -/
theorem text_between {text : List Char} {node : Tree} (placed : node.Placed text)
    (isText : node.symbol = .terminal .text) (some_ : node.text ≠ "") :
    ∃ front body behind, text = front ++ (body ++ behind) ∧ node.text = String.ofList body ∧
      bytesOf node = ⟨byteCount front, byteCount (front ++ body)⟩ ∧
      ∀ c rest, behind = c :: rest → Markup.isTextPart c → Markup.isBlank c := by
  obtain empty | ⟨inside, more, ends⟩ := placed.node isText
  · simp [Tree.text, Place.textTo, empty] at some_
  obtain ended | ⟨front, spelled, offset⟩ := inside
  · exact absurd ended more
  obtain ⟨count, reaches⟩ := node.start.reaches_textEnd
  have rest : node.stop.rest = node.start.rest.drop count := by rw [ends, reaches, Place.rest_skip]
  refine ⟨front, node.start.rest.take count, node.stop.rest, ?_, ?_, ?_, ?_⟩
  · rw [rest, List.take_append_drop, spelled]
  · rw [Tree.text, Place.textTo, rest, List.length_drop]
    exact congrArg String.ofList (List.take_eq_take_iff.2 (by omega))
  · rw [bytesOf, ends, reaches, Place.offset_skip, offset, byteCount_append]
  · intro c later follows part
    exact Place.isBlank_of_textEnd (ends ▸ follows) part

/-- An interpolation that shares bytes with a text node without `{{` begins in front of it. -/
theorem begins_in_front {front body behind : List Char} {skipped : List Range} {item : Located}
    (free : ∀ lead rest, body ≠ lead ++ '{' :: '{' :: rest)
    (follows : ∀ c rest, behind = c :: rest → Markup.isTextPart c → Markup.isBlank c)
    (found : item ∈ interpolations skipped (front ++ (body ++ behind)))
    (overlaps : (⟨byteCount front, byteCount (front ++ body)⟩ : Range).Overlaps item.span) :
    item.span.start < byteCount front := by
  have exact_ : Exact skipped (front ++ (body ++ behind)) 0
      (interpolations skipped (front ++ (body ++ behind))) := exact_seek [] _ 0 rfl .refl
  obtain ⟨before, rest, inside, later, opens, -, -, rfl⟩ := exact_.sound item found
  rw [span_interpolation] at overlaps ⊢
  by_contra late
  obtain ⟨between, rfl, same⟩ := exists_between opens (Nat.not_lt.1 late)
  rw [Range.overlaps_iff] at overlaps
  simp only [byteCount_append] at overlaps
  rcases List.append_eq_append_iff.1 same with ⟨more, rfl, -⟩ | ⟨more, rfl, left⟩
  · rw [byteCount_append] at overlaps
    omega
  -- The first brace is in the body. The second one is too, as a text node does not end in front of a brace.
  · match more with
    | [] =>
        rw [List.append_nil] at overlaps
        omega
    | [c] =>
        obtain ⟨-, brace⟩ := List.cons.inj left
        exact absurd (follows '{' rest brace.symm (by decide)) (by decide)
    | c :: d :: more =>
        simp only [List.cons_append, List.cons.injEq] at left
        obtain ⟨rfl, rfl, -⟩ := left
        exact free between more rfl

/-! ## Texts that give keys -/

namespace Element

/-- The element has the directive without a value, plain and not in brackets. -/
structure MarksTexts (element : Element) : Prop where
  plain : (element.firstAttribute? directiveNames).isSome
  unvalued : element.directiveValue? = none
  unbound : element.firstAttribute? (directiveNames.map fun name => "[" ++ name ++ "]") = none

theorem directiveKeys_of_marksTexts {element : Element} (marks : element.MarksTexts) :
    element.directiveKeys = element.texts.filter (!isInterpolated ·) := by
  rw [directiveKeys, marks.unvalued, marks.unbound, if_pos marks.plain]

end Element

section Given

variable {template : String} {element : Element} {key : String}

/-- The bytes of a text node are its text, and an interpolation that shares one of them begins in front of the
node unless the node has braces in it. -/
theorem GivesText.opens_in_front {tree node : Tree} (gives : GivesText tree node key)
    (within : (Markup.Growth.treeOf template.toList).Part tree) (open_ : !isInterpolated key)
    (skipped : List Range) :
    (∃ front body behind, template.toList = front ++ (body ++ behind) ∧ node.text = String.ofList body ∧
        bytesOf node = ⟨byteCount front, byteCount (front ++ body)⟩) ∧
      ∀ item ∈ interpolations skipped template.toList,
        (bytesOf node).Overlaps item.span → item.span.start < (bytesOf node).start := by
  obtain ⟨child, below, part⟩ := Tree.part_of_mem_shown tree gives.shown
  have whole := (Tree.whole_below (Markup.Growth.whole_treeOf _) within child below).part part
  have some_ : node.text ≠ "" := by
    intro empty
    have trimmed := gives.trimmed
    rw [empty] at trimmed
    exact gives.some_ trimmed.symm
  obtain ⟨front, body, behind, spelled, text, bytes, follows⟩ := text_between whole.placed gives.text some_
  refine ⟨⟨front, body, behind, spelled, text, bytes⟩, ?_⟩
  rw [← gives.trimmed, text] at open_
  rw [bytes, spelled]
  exact fun item found overlaps => begins_in_front (ne_of_not_interpolated open_) follows found overlaps

/-- **A text that gives a key opens no interpolation.**  Each key of an element that marks its texts is what is
left of a text node directly inside it. Wherever the element stands in the template and whichever of its text
nodes gives the key, the node's bytes are its text, and an interpolation that shares one of them begins in front
of it. -/
theorem opens_in_front_of_text (skipped : List Range)
    (listed : element ∈ (Document.ofString template).elements) (marks : element.MarksTexts)
    (given : key ∈ element.directiveKeys) :
    (∃ tree node, (Markup.Growth.treeOf template.toList).Part tree ∧ readElement tree = element ∧
        GivesText tree node key) ∧
      ∀ tree node, (Markup.Growth.treeOf template.toList).Part tree → readElement tree = element →
        GivesText tree node key →
        (∃ front body behind, template.toList = front ++ (body ++ behind) ∧ node.text = String.ofList body ∧
          bytesOf node = ⟨byteCount front, byteCount (front ++ body)⟩) ∧
        ∀ item ∈ interpolations skipped template.toList,
          (bytesOf node).Overlaps item.span → item.span.start < (bytesOf node).start := by
  rw [Element.directiveKeys_of_marksTexts marks, List.mem_filter] at given
  obtain ⟨among, open_⟩ := given
  constructor
  · simp only [Document.ofString] at listed
    obtain ⟨tree, within, rfl⟩ := part_of_mem_elements _ listed
    obtain ⟨node, gives⟩ := mem_texts_iff.1 among
    exact ⟨tree, node, within, rfl, gives⟩
  · exact fun tree node within _ gives => gives.opens_in_front within open_ skipped

end Given

/-- `<p translate>\x7b\x7b&lt;\x7d\x7d</p>` -/
def cutInterpolation : String := "<p translate>\x7b\x7b&lt;\x7d\x7d</p>"

/-- Where a character reference cuts an interpolation, the text behind it begins inside. -/
theorem opens_in_front_of_text_cut :
    (∃ tree node, readElement tree = ⟨"p", [⟨"translate", none⟩], ["\x7b\x7b", "\x7d\x7d"]⟩ ∧
      GivesText tree node "\x7d\x7d") ∧
      ∀ tree node, (Markup.Growth.treeOf cutInterpolation.toList).Part tree →
        readElement tree = ⟨"p", [⟨"translate", none⟩], ["\x7b\x7b", "\x7d\x7d"]⟩ →
        GivesText tree node "\x7d\x7d" → ∀ item ∈ interpolations [] cutInterpolation.toList,
          (bytesOf node).Overlaps item.span → item.span.start < (bytesOf node).start := by
  have listed : ⟨"p", [⟨"translate", none⟩], ["\x7b\x7b", "\x7d\x7d"]⟩ ∈
      (Document.ofString cutInterpolation).elements := by decide +kernel
  have given : "\x7d\x7d" ∈ (Element.mk "p" [⟨"translate", none⟩] ["\x7b\x7b", "\x7d\x7d"]).directiveKeys := by
    decide +kernel
  obtain ⟨⟨tree, node, -, read, gives⟩, each⟩ := opens_in_front_of_text [] listed
    ⟨by decide +kernel, by decide +kernel, by decide +kernel⟩ given
  exact ⟨⟨tree, node, read, gives⟩, fun tree node within read gives => (each tree node within read gives).2⟩

/-- The element that `cutInterpolation` is. -/
def cutElement : Tree := (Markup.Growth.treeOf cutInterpolation.toList).shown.getD 0 default

/-- The text behind the character reference in it. -/
def cutText : Tree := cutElement.shown.getD 3 default

/-- The closing braces of an interpolation that a character reference cuts are a key. -/
theorem text_of_interpolation :
    (Markup.Growth.treeOf cutInterpolation.toList).Part cutElement ∧ GivesText cutElement cutText "\x7d\x7d" ∧
      "\x7d\x7d" ∈ (readElement cutElement).directiveKeys ∧
      ∃ item ∈ interpolations (Layout.ofTree (Markup.Growth.treeOf cutInterpolation.toList)).skipped
          cutInterpolation.toList,
        (bytesOf cutText).Overlaps item.span := by
  have shown : cutElement ∈ (Markup.Growth.treeOf cutInterpolation.toList).shown := by
    have first : 0 < (Markup.Growth.treeOf cutInterpolation.toList).shown.length := by decide +kernel
    rw [cutElement, List.getD_eq_getElem _ _ first]
    exact List.getElem_mem first
  have text : cutText ∈ cutElement.shown := by
    have fourth : 3 < cutElement.shown.length := by decide +kernel
    rw [cutText, List.getD_eq_getElem _ _ fourth]
    exact List.getElem_mem fourth
  obtain ⟨child, listed, part⟩ := Tree.part_of_mem_shown _ shown
  refine ⟨.within listed part, ⟨text, by decide +kernel, by decide +kernel, by decide +kernel⟩, by decide +kernel,
    ⟨15, "&lt;"⟩, by decide +kernel, ?_⟩
  rw [Range.overlaps_iff]
  decide +kernel

end MessageKeys.Template
