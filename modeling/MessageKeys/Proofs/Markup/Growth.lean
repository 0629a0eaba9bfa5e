import Mathlib.Data.List.SplitBy
import MessageKeys.Markup.Growth
import MessageKeys.Proofs.Markup.Forest
/-!
# Proofs.Markup.Growth — every tree of a text is placed in it

A growth is a program over the readings of a text. `Gives` says of one that it keeps them sound and what its
result is like, and `Keeps` that it keeps them sound; both are proved along the program, part by part. What
enters a reading is a token that was found in the text, one that is made up of nothing, or a node over trees that
have been taken off. So all trees below the tree of a text are whole (`whole_treeOf`).
-/
namespace MessageKeys.Markup.Growth

variable {text : List Char} {α β : Type}

/-- From a sound forest the step comes to a sound one, with a result of this kind. -/
def Gives (text : List Char) (step : Growth α) (result : α → Prop) : Prop :=
  ∀ forest : Forest, forest.Sound text → (step forest).2.Sound text ∧ result (step forest).1

/-- The step keeps a forest sound. -/
def Keeps (text : List Char) (step : Growth α) : Prop := Gives text step fun _ => True

section Rules

variable {result : α → Prop} {other : β → Prop} {step : Growth α} {next : α → Growth β}

theorem Gives.mono {weaker : α → Prop} (gives : Gives text step result) (weakens : ∀ a, result a → weaker a) :
    Gives text step weaker :=
  fun forest sound => ⟨(gives forest sound).1, weakens _ (gives forest sound).2⟩

theorem Gives.keeps (gives : Gives text step result) : Keeps text step := gives.mono fun _ _ => trivial

theorem gives_pure {a : α} (holds : result a) : Gives text (pure a) result := fun _ sound => ⟨sound, holds⟩

theorem keeps_pure (a : α) : Keeps text (pure a) := gives_pure trivial

theorem Gives.bind (first : Gives text step result) (rest : ∀ a, result a → Gives text (next a) other) :
    Gives text (step >>= next) other := by
  intro forest sound
  obtain ⟨sound, holds⟩ := first forest sound
  exact rest _ holds _ sound

theorem Keeps.bind (first : Keeps text step) (rest : ∀ a, Gives text (next a) other) :
    Gives text (step >>= next) other :=
  Gives.bind first fun a _ => rest a

theorem gives_get : Gives text (get : Growth Forest) (Forest.Sound text) := fun _ sound => ⟨sound, sound⟩

theorem keeps_set {forest : Forest} (sound : forest.Sound text) : Keeps text (set forest : Growth Unit) :=
  fun _ _ => ⟨sound, trivial⟩

theorem keeps_modify {f : Forest → Forest} (keeps : ∀ forest, forest.Sound text → (f forest).Sound text) :
    Keeps text (modify f : Growth Unit) :=
  fun forest sound => ⟨keeps forest sound, trivial⟩

theorem gives_modifyGet {f : Forest → α × Forest}
    (gives : ∀ forest, forest.Sound text → (f forest).2.Sound text ∧ result (f forest).1) :
    Gives text (modifyGet f : Growth α) result :=
  gives

theorem keeps_foldlM {f : β → α → Growth β} {items : List α} (each : ∀ b, ∀ a ∈ items, Keeps text (f b a))
    (b : β) : Keeps text (items.foldlM f b) := by
  induction items generalizing b with
  | nil => exact keeps_pure b
  | cons a items ih =>
      rw [List.foldlM_cons]
      exact (each b a List.mem_cons_self).bind fun b =>
        ih (fun b other listed => each b other (List.mem_cons_of_mem a listed)) b

theorem keeps_forIn {f : α → β → Growth (ForInStep β)} {items : List α}
    (each : ∀ a ∈ items, ∀ b, Keeps text (f a b)) (b : β) : Keeps text (forIn items b f) := by
  induction items generalizing b with
  | nil => exact keeps_pure b
  | cons a items ih =>
      rw [List.forIn_cons]
      refine (each a List.mem_cons_self b).bind fun step => ?_
      cases step with
      | done b => exact keeps_pure b
      | yield b => exact ih (fun other listed => each other (List.mem_cons_of_mem a listed)) b

end Rules

/-! ## Which branch is better -/

theorem keeps_gained (b : Nat) : Keeps text (gained b) := by
  rw [gained]
  refine gives_get.bind fun forest sound => ?_
  simp only
  split
  · refine Keeps.bind (keeps_set ?_) fun _ => keeps_pure _
    exact sound.modifyBranch b fun _ other => other.of_status rfl
  · exact keeps_pure _

theorem keeps_standing (b : Nat) : Keeps text (standing b) :=
  (keeps_gained b).bind fun _ => gives_get.bind fun _ _ => keeps_pure _

theorem keeps_beatenByAny (b : Nat) (own : Standing) (others : List Nat) :
    Keeps text (beatenByAny b own others) := by
  induction others with
  | nil => exact keeps_pure false
  | cons other rest ih =>
      rw [beatenByAny]
      refine gives_get.bind fun forest sound => ?_
      split
      · exact ih
      · refine (keeps_standing other).bind fun standing => ?_
        split
        · exact keeps_pure true
        · refine gives_get.bind fun forest _ => ?_
          split
          · exact keeps_pure true
          · exact ih
        · exact ih

theorem keeps_isBeaten (b cost : Nat) : Keeps text (isBeaten b cost) := by
  rw [isBeaten]
  refine gives_get.bind fun forest _ => ?_
  split
  · exact keeps_pure true
  · exact (keeps_gained b).bind fun gained => gives_get.bind fun forest _ => keeps_beatenByAny b _ _

/-! ## Taking tokens in -/

/-- Goes on over a whole tree, and has the open tags that it says. -/
theorem sound_pushTagged {forest : Forest} (sound : forest.Sound text) (b : Nat) {tree : Tree}
    (whole : tree.Whole text) (state : State) (tags : Option OpenTags) :
    (match tags with
      | some tags =>
        (forest.push b (some tree) state).modifyBranch b fun branch => { branch with tags := some tags }
      | none => forest.push b (some tree) state).Sound text := by
  have pushed := sound.pushTree b whole state
  split
  · exact pushed.modifyBranch b fun _ other => other.of_status rfl
  · exact pushed

theorem keeps_shift (b : Nat) (state : State) {token : Tree} (whole : token.Whole text) (extra : Bool) :
    Keeps text (shift b state token extra) := by
  rw [shift]
  exact keeps_modify fun forest sound => sound_pushTagged sound b (whole.withExtra extra) state token.tags

/-- A whole tree with whole trees after it. -/
def WholeParts (text : List Char) (parts : Tree × List Tree) : Prop :=
  parts.1.Whole text ∧ ∀ extra ∈ parts.2, extra.Whole text

/-- Whichever of several is the best. -/
theorem wholeParts_best (make : Forest.Taken → Tree × List Tree) {slice : Forest.Taken}
    {rivals : List Forest.Taken} (each : ∀ rival ∈ slice :: rivals, WholeParts text (make rival)) :
    WholeParts text (rivals.foldl
      (fun best rival => if best.1.isBetter (make rival).1 then make rival else best) (make slice)) := by
  rw [List.forall_mem_cons] at each
  refine List.foldlRecOn rivals _ each.1 fun best whole rival listed => ?_
  split
  · exact each.2 rival listed
  · exact whole

theorem keeps_pushPhrase (b halted : Nat) (phrase : Phrase) (gone : Nat) {slices : List Forest.Taken}
    (whole : ∀ slice ∈ slices, slice.Sound text) : Keeps text (pushPhrase b halted phrase gone slices) := by
  cases slices with
  | nil => exact keeps_pure gone
  | cons slice rivals =>
      rw [pushPhrase]
      dsimp only
      split
      · exact (keeps_modify fun forest sound => sound.remove _).bind fun _ => keeps_pure _
      refine gives_get.bind fun forest sound => ?_
      -- Whichever rival is chosen, its phrase has the trees of a slice for its parts.
      have best := wholeParts_best
        (fun rival => (Tree.node (.phrase phrase) (forest.tip (slice.branch - gone)).place
          (Tree.splitExtras rival.trees).1, (Tree.splitExtras rival.trees).2))
        fun rival listed =>
          have parts := Tree.mem_of_mem_splitExtras rival.trees
          ⟨Tree.whole_node _ (by simp) (sound.tip _).place fun tree member =>
              whole rival listed tree (parts.1 tree member),
            fun tree member => whole rival listed tree (parts.2 tree member)⟩
      refine (keeps_modify fun forest sound => (sound.pushTree _ best.1 _).pushAll _ best.2 _).bind fun _ => ?_
      refine gives_get.bind fun forest sound => ?_
      split
      · exact (keeps_set (sound.mergeInto ‹_›)).bind fun _ => keeps_pure _
      · exact keeps_pure gone

theorem gives_take (b count : Nat) :
    Gives text (modifyGet fun forest => (forest.take b count).swap)
      fun slices => ∀ slice ∈ slices, slice.Sound text :=
  gives_modifyGet fun _ sound => Forest.take_sound sound b count

theorem keeps_reduce (b : Nat) (phrase : Phrase) (count : Nat) : Keeps text (reduce b phrase count) := by
  rw [reduce]
  refine gives_get.bind fun forest _ => (gives_take b count).bind fun slices whole => ?_
  refine gives_get.bind fun halted _ => ?_
  refine (keeps_foldlM (fun gone group listed => ?_) 0).bind fun _ => ?_
  · refine keeps_pushPhrase b _ phrase gone fun slice member => whole slice ?_
    have flat := List.mem_flatten_of_mem listed member
    rwa [List.flatten_splitBy] at flat
  · refine gives_get.bind fun forest _ => ?_
    split <;> exact keeps_pure _

theorem whole_wholeTree {trees : List Tree} (whole : ∀ tree ∈ trees, tree.Whole text) :
    ∀ child ∈ (wholeTree trees).children, child.Whole text := by
  have after : ∀ tree ∈ (trees.reverse.takeWhile (·.extra)).reverse, tree.Whole text := fun tree member =>
    whole tree (List.mem_reverse.1 ((List.takeWhile_prefix _).subset (List.mem_reverse.1 member)))
  have others : ∀ tree ∈ trees.reverse.dropWhile (·.extra), tree.Whole text := fun tree member =>
    whole tree (List.mem_reverse.1 ((List.dropWhile_suffix _).subset member))
  simp only [wholeTree]
  split
  · exact whole
  · rename_i last before same
    rw [same, List.forall_mem_cons] at others
    simp only [Tree.node, List.mem_append, List.mem_reverse]
    rintro child ((first | inner) | extra)
    · exact others.2 child first
    · exact others.1.children child inner
    · exact after child (List.mem_reverse.2 extra)

theorem keeps_accept (b : Nat) {finish : Tree} (whole : finish.Whole text) : Keeps text (accept b finish) := by
  rw [accept]
  have taken : Gives text (modifyGet fun forest => ((forest.push b (some finish) .start).takeAll b).swap)
      fun slices => ∀ slice ∈ slices, slice.Sound text :=
    gives_modifyGet fun forest sound => Forest.takeAll_sound (sound.pushTree b whole .start) b
  refine taken.bind fun slices each => ?_
  refine (keeps_forIn (fun slice listed _ => ?_) PUnit.unit).bind fun _ => ?_
  · have tree := whole_wholeTree (each slice listed)
    refine Keeps.bind (keeps_modify fun forest sound => ⟨sound.vertices, sound.branches, ?_⟩)
      fun _ => keeps_pure _
    -- The reading that is kept is an earlier one or this one.
    intro best kept
    split at kept
    · have earlier := sound.finished _ ‹_›
      cases kept
      split
      · exact tree
      · exact earlier
    · cases kept
      exact tree
  · refine keeps_modify fun forest sound => ?_
    refine Forest.Sound.halt ?_ b
    split
    · exact sound.remove _
    · exact sound

/-! ## Recovery -/

theorem keeps_reduceFrom (first known : Nat) (only : Option Symbol) (fuel turn b : Nat) (shifts : Bool) :
    Keeps text (reduceFrom first known only fuel turn b shifts) := by
  induction fuel generalizing turn b shifts with
  | zero => exact keeps_pure shifts
  | succ fuel ih =>
      simp only [reduceFrom]
      refine gives_get.bind fun forest sound => ?_
      split
      · exact keeps_pure shifts
      split
      · exact (keeps_set (sound.mergeInto ‹_›)).bind fun _ => ih _ _ _
      -- From here on it matters neither which phrases are made nor whether a token can be shifted.
      generalize reductionsOn (forest.tip b).state _ = found
      refine (keeps_foldlM (fun _ _ _ => keeps_reduce b _ _) none).bind fun made => ?_
      split
      · exact ih _ _ _
      have dropped : Keeps text (modify (·.remove b) : Growth Unit) := keeps_modify fun _ sound => sound.remove b
      cases made with
      | some new =>
          simp only
          split
          · exact (keeps_modify fun _ sound => sound.replace b new).bind fun _ => ih _ _ _
          split
          · exact dropped.bind fun _ => ih _ _ _
          · exact ih _ _ _
      | none =>
          simp only
          split
          · exact dropped.bind fun _ => ih _ _ _
          · exact ih _ _ _

theorem keeps_reduceAll (b : Nat) (only : Option Symbol) : Keeps text (reduceAll b only) :=
  gives_get.bind fun _ _ => keeps_reduceFrom _ _ _ _ _ _ _

theorem keeps_returnTo (b depth : Nat) (state : State) : Keeps text (returnTo b depth state) := by
  rw [returnTo]
  refine (gives_take b depth).bind fun slices whole => ?_
  refine (keeps_foldlM (fun last slice listed => ?_) none).bind fun _ => keeps_pure _
  refine gives_get.bind fun forest sound => ?_
  split
  · exact keeps_pure _
  split
  · exact (keeps_set (sound.halt _)).bind fun _ => keeps_pure _
  -- The error that is put back holds an earlier error, if there is one, and what the slice holds.
  obtain ⟨left, before⟩ := Forest.takeError_sound sound slice.branch
  have trees : ∀ tree ∈ (forest.takeError slice.branch).2 ++ slice.trees, tree.Whole text := fun tree member =>
    (List.mem_append.1 member).elim (before tree) (whole slice listed tree)
  have parts := Tree.mem_of_mem_splitExtras ((forest.takeError slice.branch).2 ++ slice.trees)
  have extras := fun tree member => trees tree (parts.2 tree member)
  refine Keeps.bind (keeps_set (Forest.Sound.pushAll ?_ _ extras _)) fun _ => keeps_pure _
  split
  · exact left
  · have error := Tree.whole_node .error (by simp) (Place.in_default text)
      fun tree member => trees tree (parts.1 tree member)
    exact left.pushTree _ (error.withExtra true) state

theorem keeps_tryReturns (b : Nat) {token : Tree} (size cost gained : Nat) (returns : List Return) :
    Keeps text (tryReturns b token size cost gained returns) := by
  induction returns with
  | nil => exact keeps_pure false
  | cons point rest ih =>
      rw [tryReturns]
      refine gives_get.bind fun forest _ => ?_
      simp only
      split
      · exact ih
      refine (keeps_isBeaten b _).bind fun beaten => ?_
      split
      · exact keeps_pure false
      split
      · refine (keeps_returnTo b _ _).bind fun returned => ?_
        split
        · exact keeps_pure true
        · exact ih
      · exact ih

theorem keeps_passOver (b : Nat) {token : Tree} (whole : token.Whole text) (gained : Nat) :
    Keeps text (passOver b token gained) := by
  simp only [passOver]
  refine gives_get.bind fun forest sound => ?_
  have place := (sound.tip b).place
  have last := whole.withExtra (token.extra || token.symbol == .terminal .comment)
  have skipped := Tree.whole_node .skipped (by simp) place (List.forall_mem_singleton.2 last)
  split
  · refine (gives_take b 1).bind fun slices each => ?_
    split
    · rename_i slice others
      refine (keeps_modify fun forest sound => Forest.Sound.replace ?_ b slice.branch).bind fun _ => ?_
      · split
        · exact sound.withBranches fun branch member => sound.branches branch (List.mem_of_mem_take member)
        · exact sound
      -- The token joins what has been passed over in front of it.
      have all : ∀ tree ∈ slice.trees ++ [_], tree.Whole text := fun tree member =>
        (List.mem_append.1 member).elim (each slice List.mem_cons_self tree)
          fun new => List.mem_singleton.1 new ▸ skipped
      exact keeps_modify fun forest sound =>
        sound_pushTagged sound b (Tree.whole_node _ (by simp) place all) .error token.tags
    · exact keeps_modify fun forest sound => sound_pushTagged sound b skipped .error token.tags
  · exact keeps_modify fun forest sound => sound_pushTagged sound b skipped .error token.tags

theorem keeps_recover (b : Nat) {token : Tree} (whole : token.Whole text) : Keeps text (recover b token) := by
  rw [recover]
  refine gives_get.bind fun before _ => (keeps_gained b).bind fun gained => gives_get.bind fun forest _ => ?_
  refine (keeps_tryReturns b _ _ _ _).bind fun hasReturned => ?_
  -- Of the branches that were made on the way only the active ones stay.
  have kept : Keeps text (modify fun forest : Forest => { forest with
      branches := forest.branches.take before.size ++
        (forest.branches.drop before.size).filter (·.isActive) }) := by
    refine keeps_modify fun forest sound => sound.withBranches fun branch member => ?_
    rcases List.mem_append.1 member with front | behind
    · exact sound.branches branch (List.mem_of_mem_take front)
    · exact sound.branches branch (List.mem_of_mem_drop (List.mem_of_mem_filter behind))
  refine kept.bind fun _ => gives_get.bind fun forest _ => ?_
  have halted : Keeps text (modify (·.halt b) : Growth Unit) := keeps_modify fun _ sound => sound.halt b
  split
  · exact halted
  split
  · refine gives_get.bind fun forest sound => ?_
    have error := Tree.whole_node .error (by simp) (sound.tip b).place (List.forall_mem_nil _)
    exact (keeps_modify fun forest sound => sound.pushTree b error .start).bind fun _ => keeps_accept b whole
  · refine (keeps_isBeaten b _).bind fun beaten => ?_
    split
    · exact halted
    · exact keeps_passOver b whole gained

theorem keeps_tryMissing (b : Nat) (token : Tree) {place : Place} (inside : place.In text)
    (kinds : List Terminal) : Keeps text (tryMissing b token place kinds) := by
  induction kinds with
  | nil => exact keeps_pure false
  | cons kind rest ih =>
      rw [tryMissing]
      refine gives_get.bind fun forest sound => ?_
      simp only
      split
      · exact ih
      have pushed := (sound.copy b).pushTree forest.size (Tree.whole_missing kind inside)
        ((forest.tip b).state.after (.terminal kind))
      refine (keeps_set pushed).bind fun _ => (keeps_reduceAll _ _).bind fun shifted => ?_
      split
      · exact keeps_pure true
      · exact ih

theorem keeps_lose (b : Nat) {token : Tree} (whole : token.Whole text) : Keeps text (lose b token) := by
  rw [lose]
  refine gives_get.bind fun before _ => (keeps_reduceAll b none).bind fun _ => ?_
  refine gives_get.bind fun after _ => gives_get.bind fun forest sound => ?_
  have place := (sound.tip b).place
  refine Keeps.bind (keeps_foldlM (fun hasMissing branch _ => ?_) false) fun _ => ?_
  · have pushed : ∀ missing : Bool, Keeps text do
        modify fun forest => forest.push branch none .error
        return missing :=
      fun missing => (keeps_modify fun forest sound => sound.pushNone branch .error).bind fun _ => keeps_pure _
    simp only
    split
    · exact pushed true
    · exact (keeps_tryMissing branch token place _).bind pushed
  · refine (keeps_modify fun forest sound => Forest.Sound.noteReturns ?_ b).bind fun _ => keeps_recover b whole
    exact List.foldlRecOn _ _ sound fun forest sound other _ => sound.mergeGetD b other

/-! ## Comparing all branches -/

theorem keeps_cullFrom (fuel i j : Nat) (own : Standing) : Keeps text (cullFrom fuel i j own) := by
  induction fuel generalizing i j with
  | zero => exact keeps_pure _
  | succ fuel ih =>
      rw [cullFrom]
      split
      · exact keeps_pure _
      refine (keeps_standing j).bind fun other => gives_get.bind fun forest sound => ?_
      have merged : ∀ {joined}, forest.merge? j i = some joined →
          Keeps text (do
            set joined
            return i) :=
        fun same => (keeps_set (sound.merge same)).bind fun _ => keeps_pure i
      split
      · exact (keeps_set (sound.remove i)).bind fun _ => keeps_pure i
      · split
        · exact merged ‹_›
        · exact ih _ _
      · split
        · exact merged ‹_›
        · exact ih _ _
      · split
        · exact merged ‹_›
        · exact (keeps_set (sound.swap i j)).bind fun _ => ih _ _
      · exact (keeps_set (sound.remove j)).bind fun _ => ih _ _

theorem keeps_cullAll (fuel i : Nat) (least : Option Nat) : Keeps text (cullAll fuel i least) := by
  induction fuel generalizing i least with
  | zero => exact keeps_pure least
  | succ fuel ih =>
      rw [cullAll]
      refine gives_get.bind fun forest sound => ?_
      split
      · exact keeps_pure least
      split
      · exact (keeps_set (sound.remove i)).bind fun _ => ih _ _
      · exact (keeps_standing i).bind fun own => (keeps_cullFrom _ _ _ own).bind fun next => ih _ _

theorem keeps_resumeFirst (left i : Nat) (hasOther : Bool) (least : Option Nat) :
    Keeps text (resumeFirst left i hasOther least) := by
  induction left generalizing i hasOther least with
  | zero => exact keeps_pure least
  | succ left ih =>
      rw [resumeFirst]
      refine gives_get.bind fun forest sound => ?_
      split
      · rename_i token paused
        split
        · have whole := sound.branch i token paused
          exact (keeps_set (sound.resume i)).bind fun _ => (keeps_lose i whole).bind fun _ => ih _ _ _
        · exact (keeps_set (sound.remove i)).bind fun _ => ih _ _ _
      · exact ih _ _ _

theorem keeps_cull : Keeps text cull := by
  rw [cull]
  refine gives_get.bind fun forest _ => (keeps_cullAll _ 0 none).bind fun least => ?_
  refine (keeps_modify fun forest sound => ?_).bind fun _ => gives_get.bind fun forest _ =>
    keeps_resumeFirst _ 0 false least
  exact sound.withBranches fun branch member => sound.branches branch (List.mem_of_mem_take member)

/-! ## The whole text -/

theorem keeps_perform (b : Nat) {token : Tree} (whole : token.Whole text) (state : State) (actions : List Action)
    (turn : Turn) : Keeps text (perform b token state actions turn) := by
  induction actions generalizing turn with
  | nil => exact keeps_pure turn
  | cons action rest ih =>
      unfold perform
      cases action with
      | shift next => exact (keeps_shift b next whole false).bind fun _ => keeps_pure _
      | stay => exact (keeps_shift b state whole true).bind fun _ => keeps_pure _
      | pairShift next => exact ih turn
      | reduce phrase count => exact (keeps_reduce b phrase count).bind fun new => ih _
      | accept => exact (keeps_accept b whole).bind fun _ => keeps_pure _
      | recover => exact (keeps_recover b whole).bind fun _ => keeps_pure _

theorem keeps_offer (b : Nat) {token : Tree} (whole : token.Whole text) (fuel : Nat) :
    Keeps text (offer b token fuel) := by
  induction fuel with
  | zero => exact keeps_modify fun _ sound => sound.halt b
  | succ fuel ih =>
      rw [offer]
      refine gives_get.bind fun forest _ => (keeps_perform b whole _ _ _).bind fun turn => ?_
      split
      · exact keeps_pure ()
      · exact (keeps_modify fun _ sound => sound.replace b _).bind fun _ => ih
      · exact keeps_modify fun _ sound => sound.halt b
      · split
        · exact keeps_recover b whole
        · exact keeps_modify fun _ sound => sound.pause b whole

theorem keeps_advance (b : Nat) : Keeps text (advance b) := by
  rw [advance]
  refine gives_get.bind fun forest sound => keeps_offer b ?_ _
  obtain ⟨placed, leaf⟩ := Lookout.next_placed
    ⟨(forest.tip b).state, (forest.branch b).tags, forest.hasAdvanced b, (forest.tip b).place⟩ (sound.tip b).place
  exact .of_leaf placed leaf

theorem keeps_advanceOne (b patience furthest : Nat) : Keeps text (advanceOne b patience furthest) := by
  induction patience with
  | zero => exact (keeps_modify fun _ sound => sound.halt b).bind fun _ => keeps_pure furthest
  | succ patience ih =>
      rw [advanceOne]
      refine gives_get.bind fun forest _ => ?_
      split
      · exact keeps_pure furthest
      refine (keeps_advance b).bind fun _ => gives_get.bind fun forest _ => ?_
      simp only
      split
      · exact keeps_pure _
      · exact ih

theorem keeps_advanceAll (patience fuel b furthest : Nat) :
    Keeps text (advanceAll patience fuel b furthest) := by
  induction fuel generalizing b furthest with
  | zero => exact keeps_pure furthest
  | succ fuel ih =>
      rw [advanceAll]
      refine gives_get.bind fun forest _ => ?_
      split
      · exact keeps_pure furthest
      · exact (keeps_advanceOne b patience furthest).bind fun _ => ih _ _

theorem keeps_run (patience rounds furthest : Nat) : Keeps text (run patience rounds furthest) := by
  induction rounds generalizing furthest with
  | zero => exact keeps_pure ()
  | succ rounds ih =>
      rw [run]
      refine (keeps_advanceAll patience patience 0 furthest).bind fun furthest => ?_
      refine keeps_cull.bind fun least => gives_get.bind fun forest _ => ?_
      simp only
      split
      · exact keeps_pure ()
      · exact ih _

/-- **All trees below the tree of a text are placed in the text.** -/
theorem whole_treeOf (text : List Char) : ∀ child ∈ (treeOf text).children, child.Whole text := by
  have keeps : Keeps text _ := keeps_run (16 * (text.length + 16)) (16 * (text.length + 16)) 0
  obtain ⟨sound, -⟩ := keeps (.first text) (Forest.sound_first text)
  cases ran : run (16 * (text.length + 16)) (16 * (text.length + 16)) 0 (.first text) with
  | mk _ forest =>
      rw [ran] at sound
      simp only [treeOf, StateT.run, ran]
      cases finished : forest.finished with
      | none => exact List.forall_mem_nil _
      | some tree => exact sound.finished tree finished

end MessageKeys.Markup.Growth
