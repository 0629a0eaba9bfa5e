import Mathlib.Data.List.TakeWhile
import MessageKeys.Markup.Token
import MessageKeys.Proofs.Template.Interpolation
/-!
# Proofs.Markup.Tokens — where the tokens of a text stand

A reader of markup only ever goes on (`Place.Reaches`), so from the first place of a text it comes to places
that have the rest of the text behind them and its bytes before them (`Place.In`). A text node goes from a
character that may stand in it as far as it can, so what follows it is a blank or could not have stood in it
(`Place.isBlank_of_textEnd`). Every token that is found stands in the text, and a text node is found in no other
way (`Lookout.next_placed`).
-/
namespace MessageKeys.Markup
open Template (byteCount byteCount_append)

namespace Place

/-! ## Going on -/

theorem next_eq_skip (place : Place) : place.next = skip 1 place := rfl

theorem skip_skip (first second : Nat) (place : Place) :
    skip second (skip first place) = skip (first + second) place := by
  induction first generalizing place with
  | zero => rw [Nat.zero_add]; rfl
  | succ first ih => rw [skip, ih, Nat.succ_add]; rfl

theorem rest_skip (count : Nat) (place : Place) : (skip count place).rest = place.rest.drop count := by
  induction count generalizing place with
  | zero => rfl
  | succ count ih =>
      rw [skip, ih]
      match place with
      | ⟨[], _, _⟩ => rw [next, List.drop_nil, List.drop_nil]
      | ⟨c :: rest, _, _⟩ => rfl

theorem offset_skip (count : Nat) (place : Place) :
    (skip count place).offset = place.offset + byteCount (place.rest.take count) := by
  induction count generalizing place with
  | zero => rfl
  | succ count ih =>
      rw [skip, ih]
      match place with
      | ⟨[], _, _⟩ => rw [next, List.take_nil, List.take_nil]
      | ⟨c :: rest, _, _⟩ => rw [List.take_succ_cons, byteCount, next, Nat.add_assoc]

/-- A reader that goes on from the first place comes to the second. -/
def Reaches (start stop : Place) : Prop := ∃ count, stop = skip count start

theorem Reaches.refl (place : Place) : place.Reaches place := ⟨0, rfl⟩

theorem Reaches.trans {first second third : Place} (one : first.Reaches second) (other : second.Reaches third) :
    first.Reaches third := by
  obtain ⟨near, rfl⟩ := one
  obtain ⟨far, rfl⟩ := other
  exact ⟨near + far, skip_skip near far first⟩

theorem reaches_skip (place : Place) (count : Nat) : place.Reaches (skip count place) := ⟨count, rfl⟩

theorem reaches_next (place : Place) : place.Reaches place.next := ⟨1, rfl⟩

theorem reaches_skipWhile (place : Place) (p : Char → Bool) : place.Reaches (place.skipWhile p) := by
  rw [skipWhile]
  generalize place.rest = text
  induction text generalizing place with
  | nil => exact .refl place
  | cons c text ih =>
      rw [skipWhileFrom]
      split
      · exact place.reaches_next.trans (ih place.next)
      · exact .refl place

theorem reaches_skipUpTo (place : Place) (p : Char → Bool) (most : Nat) :
    place.Reaches (place.skipUpTo p most) := by
  induction most generalizing place with
  | zero => exact .refl place
  | succ most ih =>
      rw [skipUpTo]
      split
      · split
        · exact place.reaches_next.trans (ih place.next)
        · exact .refl place
      · exact .refl place

theorem reaches_skipBlanks (place : Place) : place.Reaches place.skipBlanks := place.reaches_skipWhile _

theorem reaches_skipByteOrderMark (place : Place) : place.Reaches place.skipByteOrderMark := by
  unfold skipByteOrderMark
  split
  · exact place.reaches_next
  · exact .refl place

/-! ## Places of a text -/

/-- The rest of the text is behind the place and its other bytes are before it. At the end of a text bytes do
not matter. -/
def In (text : List Char) (place : Place) : Prop :=
  place.rest = [] ∨ ∃ front, text = front ++ place.rest ∧ place.offset = byteCount front

theorem in_first (text : List Char) : (first text).In text := .inr ⟨[], rfl, rfl⟩

theorem in_default (text : List Char) : (default : Place).In text := .inl rfl

theorem In.reach {text : List Char} {start stop : Place} (inside : start.In text)
    (reaches : start.Reaches stop) : stop.In text := by
  obtain ⟨count, rfl⟩ := reaches
  rcases inside with ended | ⟨front, spelled, bytes⟩
  · exact .inl (by rw [rest_skip, ended, List.drop_nil])
  · refine .inr ⟨front ++ start.rest.take count, ?_, ?_⟩
    · rw [rest_skip, List.append_assoc, List.take_append_drop, spelled]
    · rw [offset_skip, byteCount_append, bytes]

/-! ## Text nodes -/

/-- Behind what has been read of a text node there are `gap`, blanks that belong to it if it goes on, and then
`text`. -/
theorem textEnd_go {text : List Char} (gap : List Char) {here stop : Place} (ahead : here.rest = text)
    (between : stop.rest = gap ++ text) (blank : ∀ c ∈ gap, isBlank c) (behind : stop.Reaches here) :
    stop.Reaches (textEnd.go text here stop) ∧
      ∀ c rest, (textEnd.go text here stop).rest = c :: rest → isTextPart c → isBlank c := by
  induction text generalizing gap here stop with
  | nil =>
      refine ⟨.refl stop, fun c rest follows _ => blank c ?_⟩
      rw [textEnd.go, between, List.append_nil] at follows
      rw [follows]
      exact List.mem_cons_self
  | cons c text ih =>
      have onward : here.next.rest = text := by rw [next_eq_skip, rest_skip, ahead]; rfl
      have reached : stop.Reaches here.next := behind.trans here.reaches_next
      rw [textEnd.go]
      by_cases part : isTextPart c
      · rw [if_pos part]
        by_cases blank' : isBlank c
        · rw [if_pos blank']
          -- Whether the blank belongs to the node is not known yet.
          refine ih (gap ++ [c]) onward (by rw [between]; simp) ?_ reached
          simpa [or_imp, forall_and] using ⟨blank, blank'⟩
        · rw [if_neg blank']
          -- The node goes on, and so the gap in front of `c` belongs to it.
          obtain ⟨farther, ends⟩ := ih [] onward onward (by simp) (.refl _)
          exact ⟨reached.trans farther, ends⟩
      · rw [if_neg part]
        refine ⟨.refl stop, fun d rest follows part' => ?_⟩
        -- The node ends, in front of the gap if there is one.
        rw [between] at follows
        cases gap with
        | nil => exact absurd ((List.cons.inj follows).1 ▸ part') part
        | cons e gap => exact blank d ((List.cons.inj follows).1 ▸ List.mem_cons_self)

theorem reaches_textEnd (start : Place) : start.Reaches start.textEnd :=
  (textEnd_go [] rfl rfl (by simp) (.refl start)).1

/-- What follows a text node could not have stood in it, or is a blank. -/
theorem isBlank_of_textEnd {start : Place} {c : Char} {rest : List Char}
    (follows : start.textEnd.rest = c :: rest) (part : isTextPart c) : isBlank c :=
  (textEnd_go [] rfl rfl (by simp) (.refl start)).2 c rest follows part

end Place

/-! ## Tokens by their characters -/

/-- A text node begins with some character and goes on as far as it can. -/
def IsTextNode (start stop : Place) : Prop := start.rest ≠ [] ∧ stop = start.textEnd

/-- What a search from `here` comes to stands there or further on. -/
def Search.Sound (here : Place) : Search → Prop
  | .found kind start stop =>
    here.Reaches start ∧ start.Reaches stop ∧ (kind = .text → IsTextNode start stop)
  | .missed start stuck => here.Reaches start ∧ here.Reaches stuck

namespace Search

theorem Sound.reach {near here : Place} {search : Search} (reaches : near.Reaches here)
    (sound : search.Sound here) : search.Sound near := by
  cases search with
  | found => exact ⟨reaches.trans sound.1, sound.2⟩
  | missed => exact ⟨reaches.trans sound.1, reaches.trans sound.2⟩

theorem sound_found {kind : Terminal} {start stop : Place} (other : kind ≠ .text)
    (reaches : start.Reaches stop) : (Search.found kind start stop).Sound start :=
  ⟨.refl start, reaches, fun same => absurd same other⟩

theorem sound_missed (start : Place) : (Search.missed start start).Sound start := ⟨.refl start, .refl start⟩

end Search

/-- The reader comes to where a token ends, or to where it stops being one. -/
def Place.ReachesEnd (start : Place) : Except Place Place → Prop
  | .ok stop => start.Reaches stop
  | .error stuck => start.Reaches stuck

theorem Place.ReachesEnd.after {start middle : Place} {result : Except Place Place}
    (reaches : start.Reaches middle) (onward : middle.ReachesEnd result) : start.ReachesEnd result := by
  cases result <;> exact reaches.trans onward

theorem Search.sound_ofEnd {kind : Terminal} {start : Place} {result : Except Place Place} (other : kind ≠ .text)
    (reaches : start.ReachesEnd result) : (Search.ofEnd kind start result).Sound start := by
  cases result with
  | ok stop => exact sound_found other reaches
  | error stuck => exact ⟨.refl start, reaches⟩

theorem Place.reachesEnd_wordEnd (word : List Char) (place : Place) : place.ReachesEnd (place.wordEnd word) := by
  induction word generalizing place with
  | nil => exact .refl place
  | cons expected word ih =>
      rw [wordEnd]
      split
      · split
        · exact .after place.reaches_next (ih place.next)
        · exact Reaches.refl place
      · exact Reaches.refl place

theorem Place.reachesEnd_entityEnd (place : Place) : place.ReachesEnd place.entityEnd := by
  have digits : ∀ (p : Char → Bool) (most : Nat) (first : Place), place.Reaches first →
      place.ReachesEnd
        (if (first.skipUpTo p most).offset == first.offset then .error first
          else .ok ((first.skipUpTo p most).skipUpTo (· == ';') 1)) := by
    intro p most first reaches
    split
    · exact reaches
    · exact (reaches.trans (first.reaches_skipUpTo p most)).trans (reaches_skipUpTo ..)
  unfold entityEnd
  split
  · exact digits _ _ _ (place.reaches_skip 3)
  · exact digits _ _ _ (place.reaches_skip 3)
  · exact digits _ _ _ (place.reaches_skip 2)
  · exact digits _ _ _ place.reaches_next

theorem findAngle_sound (start : Place) : (findAngle start).Sound start := by
  unfold findAngle
  split
  · exact Search.sound_found (by decide) (start.reaches_skip 2)
  · exact Search.sound_found (by decide) (start.reaches_skip 2)
  · exact Search.sound_found (by decide) start.reaches_next
  · exact Search.sound_missed start

theorem findRun_sound {kind : Terminal} (other : kind ≠ .text) (p : Char → Bool) (start : Place) :
    (findRun kind p start).Sound start := by
  simp only [findRun]
  split
  · exact Search.sound_missed start
  · exact Search.sound_found other (start.reaches_skipWhile p)

namespace Mode

theorem findMark_sound (start : Place) : (findMark start).Sound start := by
  unfold findMark
  split
  · exact Search.sound_found (by decide) (.refl start)
  · exact findAngle_sound start
  · exact Search.sound_found (by decide) start.reaches_next
  · exact Search.sound_found (by decide) start.reaches_next
  · exact Search.sound_found (by decide) start.reaches_next
  · exact Search.sound_found (by decide) start.reaches_next
  · exact Search.sound_found (by decide) (start.reaches_skip 2)
  · exact ⟨.refl start, start.reaches_next⟩
  · exact Search.sound_ofEnd (by decide) start.reachesEnd_entityEnd
  · exact Search.sound_ofEnd (by decide) (start.reachesEnd_wordEnd _)

theorem findContent_sound (start : Place) : (findContent start).Sound start := by
  unfold findContent
  split
  · exact Search.sound_found (by decide) (.refl start)
  · exact findAngle_sound start
  · exact Search.sound_ofEnd (by decide) start.reachesEnd_entityEnd
  · rename_i c rest _ _ some_
    split
    · exact ⟨.refl start, start.reaches_textEnd, fun _ => ⟨by rw [some_]; simp, rfl⟩⟩
    · exact Search.sound_missed start

theorem findAttribute_sound (start : Place) : (findAttribute start).Sound start := by
  unfold findAttribute
  split
  · exact Search.sound_found (by decide) start.reaches_next
  · exact Search.sound_found (by decide) start.reaches_next
  · exact Search.sound_found (by decide) (start.reaches_skip 2)
  · exact findRun_sound (by decide) _ start

theorem findValue_sound (start : Place) : (findValue start).Sound start := by
  unfold findValue
  split
  · exact Search.sound_found (by decide) start.reaches_next
  · exact Search.sound_found (by decide) start.reaches_next
  · exact findRun_sound (by decide) _ start

theorem findQuoted_sound (quote : Quote) (start : Place) : (findQuoted quote start).Sound start := by
  have content : quote.content ≠ .text := by cases quote <;> decide
  have mark : quote.mark ≠ .text := by cases quote <;> decide
  have run := findRun_sound content (isQuotedPart quote) start
  cases search : findRun quote.content (isQuotedPart quote) start with
  | found kind first stop =>
      simp only [findQuoted, search]
      rwa [search] at run
  | missed first stuck =>
      simp only [findQuoted, search]
      split
      · contradiction
      · exact Search.sound_missed start
      · split
        · exact Search.sound_missed start
        · exact Search.sound_found mark start.reaches_next

/-- **A token that is found by its characters stands in the text.** -/
theorem find_sound (mode : Mode) (place : Place) : (mode.find place).Sound place := by
  have front := place.reaches_skipByteOrderMark
  have blanks := front.trans place.skipByteOrderMark.reaches_skipBlanks
  cases mode with
  | marks => exact (findMark_sound _).reach blanks
  | content => exact (findContent_sound _).reach blanks
  | attributes => exact (findAttribute_sound _).reach blanks
  | value => exact (findValue_sound _).reach blanks
  | quoted quote => exact (findQuoted_sound quote _).reach front
  | declaration => exact (findRun_sound (by decide) _ _).reach front

end Mode

/-! ## Tokens by the open tags -/

/-- The token stands at the place or further on, and is no text node. -/
def TagToken.Sound (here : Place) (token : TagToken) : Prop :=
  here.Reaches token.start ∧ token.start.Reaches token.stop ∧ token.kind ≠ .text

theorem TagToken.Sound.reach {near here : Place} {token : TagToken} (reaches : near.Reaches here)
    (sound : token.Sound here) : token.Sound near :=
  ⟨reaches.trans sound.1, sound.2⟩

namespace OpenTags

theorem reaches_rawEnd (mark : List Char) {start here stop : Place} (text expected : List Char)
    (near : start.Reaches here) (far : start.Reaches stop) :
    start.Reaches (rawEnd mark text here expected stop) := by
  fun_induction rawEnd mark text here expected stop with
  | case1 | case2 | case5 => exact far
  | case3 _ _ _ _ _ _ _ _ _ ih => exact ih (near.trans (Place.reaches_next _)) far
  | case4 _ _ _ _ _ _ _ _ ih =>
      exact ih (near.trans (Place.reaches_next _)) (near.trans (Place.reaches_next _))

theorem reaches_commentEnd {start here stop : Place} {text : List Char} {dashes : Nat}
    (near : start.Reaches here) (ends : commentEnd text here dashes = some stop) : start.Reaches stop := by
  fun_induction commentEnd text here dashes with
  | case1 | case5 => cases ends
  | case2 _ _ _ _ _ _ ih => exact ih (near.trans (Place.reaches_next _)) ends
  | case3 =>
      cases ends
      exact near.trans (Place.reaches_next _)
  | case4 _ _ _ _ _ _ _ ih => exact ih (near.trans (Place.reaches_next _)) ends

variable {tags : OpenTags} {token : TagToken} {place : Place}

theorem findRawText_sound (found : tags.findRawText place = some token) : token.Sound place := by
  unfold findRawText at found
  split at found
  · cases found
  · cases found
    exact ⟨.refl place, reaches_rawEnd _ _ _ (.refl place) (.refl place), by simp⟩

theorem findImpliedEnd_sound {inner : Place} (found : tags.findImpliedEnd place inner = some token) :
    token.Sound place := by
  unfold findImpliedEnd at found
  split at found
  · cases found
    exact ⟨.refl place, .refl place, by simp⟩
  · cases found

theorem findStartName_sound (found : tags.findStartName place = some token) : token.Sound place := by
  simp only [findStartName] at found
  split at found
  · cases found
  · cases found
    refine ⟨.refl place, place.reaches_skipWhile _, ?_⟩
    dsimp only
    split <;> simp

theorem findEndName_sound (found : tags.findEndName place = some token) : token.Sound place := by
  simp only [findEndName] at found
  split at found
  · cases found
  · split at found <;> cases found <;> exact ⟨.refl place, place.reaches_skipWhile _, by simp⟩

/-- **A token that is found with the open tags at hand stands in the text and is no text node.** -/
theorem find_sound {expected : Terminal → Bool} (found : tags.find expected place = some token) :
    token.Sound place := by
  have front := place.reaches_skipByteOrderMark
  have blanks := front.trans place.skipByteOrderMark.reaches_skipBlanks
  simp only [find] at found
  generalize place.skipByteOrderMark.skipBlanks = here at found blanks
  -- Raw text begins at once, everything else behind the blanks.
  by_cases raw : expected .rawText && !expected .startName && !expected .endName
  · rw [if_pos raw] at found
    exact (findRawText_sound found).reach front
  rw [if_neg raw] at found
  refine TagToken.Sound.reach blanks ?_
  split at found
  · split at found
    · obtain ⟨stop, ends, rfl⟩ := Option.map_eq_some_iff.1 found
      exact ⟨.refl here, reaches_commentEnd (here.reaches_skip 4) ends, by simp⟩
    · cases found
  · obtain ⟨-, implied⟩ := Option.ite_none_right_eq_some.1 found
    exact findImpliedEnd_sound implied
  · obtain ⟨-, implied⟩ := Option.ite_none_right_eq_some.1 found
    exact findImpliedEnd_sound implied
  · split at found
    · obtain ⟨-, same⟩ := Option.ite_none_right_eq_some.1 found
      cases same
      exact ⟨.refl here, here.reaches_skip 2, by simp⟩
    · obtain ⟨-, same⟩ := Option.ite_none_right_eq_some.1 found
      cases same
      exact ⟨.refl here, here.reaches_skip 2, by simp⟩
    · cases found
  · split at found
    · obtain ⟨-, implied⟩ := Option.ite_none_right_eq_some.1 found
      exact findImpliedEnd_sound implied
    · split at found
      · cases found
      · split at found
        · exact findStartName_sound found
        · obtain ⟨-, name⟩ := Option.ite_none_right_eq_some.1 found
          exact findEndName_sound name

end OpenTags

/-! ## The next token -/

/-- The tree ends in the text, and a text node with anything in it goes as far as it can. -/
structure Tree.Placed (text : List Char) (tree : Tree) : Prop where
  stop : tree.stop.In text
  node : tree.symbol = .terminal .text →
    tree.start = tree.stop ∨ tree.start.In text ∧ IsTextNode tree.start tree.stop

namespace Lookout

variable {lookout : Lookout} {text : List Char}

theorem findTagToken_sound {lost : Bool} {here : Place} {token : TagToken}
    (found : lookout.findTagToken lost here = some token) : token.Sound here := by
  simp only [findTagToken, Option.bind_eq_bind, Option.bind_eq_some_iff, Option.ite_none_left_eq_some] at found
  obtain ⟨raw, search, -, same⟩ := found
  cases same
  have sound : raw.Sound here := OpenTags.find_sound search
  exact sound

/-- What a search gives when it has found a token: the token, or what it has passed over in front of it. -/
theorem result_placed {passed : Option (Place × Place)} {kind : Terminal} {first last : Place}
    {tags : Option OpenTags} {tree : Tree}
    (result : tree = match passed with
      | some (first, past) => Tree.leaf .error lookout.place first past none
      | none => Tree.leaf (.terminal kind) lookout.place first last tags)
    (past : ∀ between ∈ passed, between.2.In text) (begins : first.In text) (ends : last.In text)
    (node : kind = .text → IsTextNode first last) : tree.Placed text ∧ tree.children = [] := by
  subst result
  cases passed with
  | some between => exact ⟨⟨past between rfl, nofun⟩, rfl⟩
  | none => exact ⟨⟨ends, fun same => .inr ⟨begins, node (Symbol.terminal.inj same)⟩⟩, rfl⟩

/-- What a search finds is placed in the text, if the search begins in the text and so did what it has passed
over. -/
theorem search_placed (patience : Nat) (lost : Bool) (passed : Option (Place × Place)) (here : Place)
    (start : lookout.place.In text) (inside : here.In text) (past : ∀ between ∈ passed, between.2.In text) :
    (lookout.search patience lost passed here).Placed text ∧
      (lookout.search patience lost passed here).children = [] := by
  induction patience generalizing lost passed here with
  | zero => exact ⟨⟨inside, nofun⟩, rfl⟩
  | succ patience ih =>
      rw [search]
      simp only
      split
      · rename_i found search
        obtain ⟨near, far, other⟩ := findTagToken_sound search
        exact result_placed rfl past (inside.reach near) (inside.reach (near.trans far)) fun same =>
          absurd same other
      · have sound := Mode.find_sound (if lost then Mode.marks else lookout.state.mode) here
        split
        · rename_i search
          rw [search] at sound
          exact result_placed rfl past (inside.reach sound.1) (inside.reach (sound.1.trans sound.2.1)) sound.2.2
        · rename_i first stuck search
          rw [search] at sound
          split
          · -- What has been passed over grows by what the mode has missed, or by one character.
            have onward : stuck.In text := inside.reach sound.2
            generalize passed.getD (first, first) = between
            have past' : (if stuck.offset == between.2.offset then stuck.next else stuck).In text := by
              split
              · exact onward.reach stuck.reaches_next
              · exact onward
            refine ih true _ _ past' fun found same => ?_
            cases same
            exact past'
          · exact ih true none lookout.place start nofun

theorem next_placed (lookout : Lookout) (start : lookout.place.In text) :
    lookout.next.Placed text ∧ lookout.next.children = [] :=
  search_placed _ _ none _ start start nofun

end Lookout

end MessageKeys.Markup
