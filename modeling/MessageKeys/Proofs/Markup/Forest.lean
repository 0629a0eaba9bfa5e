import MessageKeys.Markup.Forest
import MessageKeys.Proofs.Markup.Tokens
/-!
# Proofs.Markup.Forest — all readings of a text stay in it

Whatever is done to the readings of a text, every vertex stands in the text and every tree on a link is whole:
it and all trees below it are placed in the text (`Tree.Whole`). That is `Forest.Sound`. Each way to change a
forest keeps it, and what is taken off a branch are whole trees.
-/
namespace MessageKeys.Markup

/-- The tree and all trees below it are placed in the text. -/
inductive Tree.Whole (text : List Char) : Tree → Prop
  | intro {tree : Tree} (placed : tree.Placed text) (parts : ∀ child ∈ tree.children, Whole text child) :
      Whole text tree

namespace Tree

variable {text : List Char} {tree : Tree}

theorem Whole.placed (whole : tree.Whole text) : tree.Placed text := by
  cases whole
  assumption

theorem Whole.children (whole : tree.Whole text) : ∀ child ∈ tree.children, child.Whole text := by
  cases whole
  assumption

theorem Whole.of_leaf (placed : tree.Placed text) (none_ : tree.children = []) : tree.Whole text :=
  .intro placed (by simp [none_])

/-- Whether a tree is extra has nothing to do with where it stands. -/
theorem Whole.withExtra (whole : tree.Whole text) (extra : Bool) : Whole text { tree with extra } :=
  .intro ⟨whole.placed.stop, whole.placed.node⟩ whole.children

theorem whole_missing (kind : Terminal) {place : Place} (inside : place.In text) :
    (missing kind place).Whole text :=
  .of_leaf ⟨inside, fun _ => .inl rfl⟩ rfl

/-- A node that is no token is whole over whole children. -/
theorem whole_node (symbol : Symbol) (other : symbol ≠ .terminal .text) {place : Place} (inside : place.In text)
    {children : List Tree} (whole : ∀ child ∈ children, child.Whole text) :
    (node symbol place children).Whole text := by
  refine .intro ⟨?_, fun same => absurd same other⟩ whole
  rw [node]
  cases last : children.getLast? with
  | none => exact inside
  | some child => exact (whole child (List.mem_of_getLast? last)).placed.stop

/-- The parts of a list of trees. -/
theorem mem_of_mem_splitExtras (trees : List Tree) :
    (∀ tree ∈ (splitExtras trees).1, tree ∈ trees) ∧ ∀ tree ∈ (splitExtras trees).2, tree ∈ trees := by
  refine ⟨fun tree member => List.mem_of_mem_take member, fun tree member => ?_⟩
  exact List.mem_reverse.1 ((List.takeWhile_prefix _).subset (List.mem_reverse.1 member))

end Tree

/-! ## Sound forests -/

def Link.Sound (text : List Char) (link : Link) : Prop := ∀ tree ∈ link.tree, tree.Whole text

structure Vertex.Sound (text : List Char) (vertex : Vertex) : Prop where
  place : vertex.place.In text
  links : ∀ link ∈ vertex.links, link.Sound text

def AllSound (text : List Char) (vertices : Array Vertex) : Prop := ∀ vertex ∈ vertices, vertex.Sound text

def Branch.Sound (text : List Char) (branch : Branch) : Prop :=
  ∀ token, branch.status = .paused token → token.Whole text

theorem Branch.Sound.of_status {text : List Char} {branch other : Branch} (sound : branch.Sound text)
    (same : other.status = branch.status) : other.Sound text :=
  fun token paused => sound token (same ▸ paused)

/-- Of a complete reading the trees below the top one are whole. -/
structure Forest.Sound (text : List Char) (forest : Forest) : Prop where
  vertices : AllSound text forest.vertices
  branches : ∀ branch ∈ forest.branches, branch.Sound text
  finished : ∀ tree ∈ forest.finished, ∀ child ∈ tree.children, child.Whole text

namespace Forest

variable {text : List Char} {forest : Forest}

theorem sound_first (text : List Char) : (first text).Sound text where
  vertices := by simpa [AllSound, first] using ⟨Place.in_first text, by simp⟩
  branches := by simp [first, Branch.Sound]
  finished := nofun

theorem sound_defaultVertex : (default : Vertex).Sound text := ⟨Place.in_default text, nofun⟩

theorem sound_defaultBranch : (default : Branch).Sound text := nofun

theorem getD_sound {vertices : Array Vertex} (each : AllSound text vertices) (i : Nat) :
    (vertices.getD i default).Sound text := by
  rw [Array.getD_eq_getD_getElem?]
  cases found : vertices[i]? with
  | none => exact sound_defaultVertex
  | some vertex => exact each vertex (Array.mem_of_getElem? found)

namespace Sound

theorem vertex (sound : forest.Sound text) (i : Nat) : (forest.vertex i).Sound text :=
  getD_sound sound.vertices i

theorem branch (sound : forest.Sound text) (b : Nat) : (forest.branch b).Sound text := by
  rw [Forest.branch, List.getD_eq_getElem?_getD]
  cases found : forest.branches[b]? with
  | none => exact sound_defaultBranch
  | some branch => exact sound.branches branch (List.mem_of_getElem? found)

theorem tip (sound : forest.Sound text) (b : Nat) : (forest.tip b).Sound text := sound.vertex _

/-- The same vertices with other branches. -/
theorem withBranches (sound : forest.Sound text) {branches : List Branch}
    (each : ∀ branch ∈ branches, branch.Sound text) : Forest.Sound text { forest with branches } :=
  ⟨sound.vertices, each, sound.finished⟩

/-- The same branches over other vertices. -/
theorem withVertices (sound : forest.Sound text) {vertices : Array Vertex}
    (each : AllSound text vertices) : Forest.Sound text { forest with vertices } :=
  ⟨each, sound.branches, sound.finished⟩

theorem modifyBranch (sound : forest.Sound text) (b : Nat) {f : Branch → Branch}
    (keeps : ∀ branch, branch.Sound text → (f branch).Sound text) : (forest.modifyBranch b f).Sound text := by
  refine sound.withBranches fun branch member => ?_
  obtain ⟨i, found⟩ := List.mem_iff_getElem?.1 member
  rw [List.getElem?_modify] at found
  obtain ⟨old, listed, rfl⟩ := Option.map_eq_some_iff.1 found
  have before := sound.branches old (List.mem_of_getElem? listed)
  split
  · exact keeps old before
  · exact before

theorem remove (sound : forest.Sound text) (b : Nat) : (forest.remove b).Sound text :=
  sound.withBranches fun branch member => sound.branches branch (List.mem_of_mem_eraseIdx member)

theorem halt (sound : forest.Sound text) (b : Nat) : (forest.halt b).Sound text :=
  sound.modifyBranch b fun _ _ => nofun

theorem pause (sound : forest.Sound text) (b : Nat) {token : Tree} (whole : token.Whole text) :
    (forest.pause b token).Sound text :=
  sound.modifyBranch b fun _ _ other same => by cases same; exact whole

theorem resume (sound : forest.Sound text) (b : Nat) : (forest.resume b).Sound text :=
  sound.modifyBranch b fun _ _ => nofun

theorem copy (sound : forest.Sound text) (b : Nat) : (forest.copy b).Sound text := by
  refine sound.withBranches fun branch member => ?_
  rcases List.mem_append.1 member with old | new
  · exact sound.branches branch old
  · obtain rfl := List.mem_singleton.1 new
    exact sound.branch b

theorem replace (sound : forest.Sound text) (a b : Nat) : (forest.replace a b).Sound text := by
  unfold Forest.replace
  split
  · exact sound
  · refine remove (modifyBranch sound a fun _ _ => ?_) b
    exact (sound.branch b).of_status rfl

theorem swap (sound : forest.Sound text) (a b : Nat) : (forest.swap a b).Sound text :=
  (sound.modifyBranch a fun _ _ => sound.branch b).modifyBranch b fun _ _ => sound.branch a

/-- A branch goes on over a whole tree, or over none. -/
theorem push (sound : forest.Sound text) (b : Nat) {tree : Option Tree}
    (whole : ∀ part ∈ tree, part.Whole text) (state : State) : (forest.push b tree state).Sound text := by
  have tip := sound.tip b
  simp only [Forest.push]
  apply modifyBranch
  · refine sound.withVertices fun vertex member => ?_
    rcases Array.mem_push.1 member with old | rfl
    · exact sound.vertices vertex old
    · cases tree with
      | none => exact ⟨tip.place, by simp [Link.Sound]⟩
      | some tree => exact ⟨(whole tree rfl).placed.stop, by simpa [Link.Sound] using whole⟩
  · exact fun _ other => other.of_status rfl

theorem pushTree (sound : forest.Sound text) (b : Nat) {tree : Tree} (whole : tree.Whole text) (state : State) :
    (forest.push b (some tree) state).Sound text :=
  sound.push b (by simpa using whole) state

theorem pushNone (sound : forest.Sound text) (b : Nat) (state : State) : (forest.push b none state).Sound text :=
  sound.push b (by simp) state

theorem pushAll (sound : forest.Sound text) (b : Nat) {trees : List Tree}
    (whole : ∀ tree ∈ trees, tree.Whole text) (state : State) : (forest.pushAll b trees state).Sound text := by
  induction trees generalizing forest with
  | nil => exact sound
  | cons tree trees ih =>
      rw [List.forall_mem_cons] at whole
      exact ih (sound.pushTree b whole.1 state) whole.2

theorem noteReturns (sound : forest.Sound text) (b : Nat) : (forest.noteReturns b).Sound text :=
  sound.modifyBranch b fun _ other => other.of_status rfl

end Sound

/-! ## Joining branches -/

theorem addLink_sound (fuel : Nat) {vertices : Array Vertex} (each : AllSound text vertices)
    (self : Nat) {link : Link} (sound : link.Sound text) :
    AllSound text (addLink fuel vertices self link) := by
  induction fuel generalizing vertices self link with
  | zero => exact each
  | succ fuel ih =>
      have before := getD_sound each link.vertex
      have own := getD_sound each self
      simp only [addLink]
      split
      · exact each
      split
      · split
        · exact each
        -- The links go to a vertex that has come to the same, one level down.
        · exact List.foldlRecOn _ _ (motive := AllSound text) each fun _ each link listed =>
            ih each _ (before.links link listed)
      · split
        · exact each
        · intro vertex member
          rcases Array.mem_or_eq_of_mem_setIfInBounds member with old | rfl
          · exact each vertex old
          · refine ⟨own.place, fun other listed => ?_⟩
            rcases List.mem_append.1 listed with old | new
            · exact own.links other old
            · exact List.mem_singleton.1 new ▸ sound

theorem Sound.merge {a b : Nat} {merged : Forest} (sound : forest.Sound text)
    (joined : forest.merge? a b = some merged) : merged.Sound text := by
  rw [merge?] at joined
  split at joined
  · cases joined
    have linked := sound.withVertices <| List.foldlRecOn (forest.tip b).links
      (fun vertices link => addLink (vertices.size + 1) vertices (forest.branch a).vertex link)
      (motive := AllSound text) sound.vertices
      fun _ each link listed => addLink_sound _ each _ ((sound.tip b).links link listed)
    refine remove ?_ b
    split
    · exact linked.modifyBranch a fun _ other => other.of_status rfl
    · exact linked
  · cases joined

theorem Sound.mergeGetD (sound : forest.Sound text) (a b : Nat) :
    ((forest.merge? a b).getD forest).Sound text := by
  cases joined : forest.merge? a b with
  | none => exact sound
  | some merged => exact sound.merge joined

theorem Sound.mergeInto {b : Nat} {among : List Nat} {merged : Forest} (sound : forest.Sound text)
    (joined : forest.mergeInto? b among = some merged) : merged.Sound text := by
  obtain ⟨a, -, joined⟩ := List.exists_of_findSome?_eq_some joined
  exact sound.merge joined

/-! ## Taking trees off -/

def Path.Sound (text : List Char) (path : Path) : Prop := ∀ tree ∈ path.trees, tree.Whole text

def Taken.Sound (text : List Char) (slice : Taken) : Prop := ∀ tree ∈ slice.trees, tree.Whole text

theorem Path.Sound.along {path : Path} (sound : path.Sound text) {link : Link} (onward : link.Sound text) :
    (path.along link).Sound text := by
  intro tree member
  rw [Path.along] at member
  split at member
  · rcases List.mem_cons.1 member with rfl | listed
    · exact onward _ ‹_›
    · exact sound tree listed
  · exact sound tree member

section Follow

variable {σ : Type} (judge : σ → Path → Verdict × σ)

theorem step_sound (sound : forest.Sound text) {paths going added kept : List Path} (s : σ)
    (here : ∀ path ∈ paths, path.Sound text) (on : ∀ path ∈ going, path.Sound text)
    (aside : ∀ path ∈ added, path.Sound text) (done : ∀ path ∈ kept, path.Sound text) :
    (∀ path ∈ (forest.step judge paths s going added kept).2.1, path.Sound text) ∧
      ∀ path ∈ (forest.step judge paths s going added kept).2.2, path.Sound text := by
  induction paths generalizing s going added kept with
  | nil =>
      refine ⟨fun path member => ?_, done⟩
      rcases List.mem_append.1 member with first | other
      · exact on path (List.mem_reverse.1 first)
      · exact aside path other
  | cons path rest ih =>
      rw [List.forall_mem_cons] at here
      simp only [step]
      split
      · exact ih _ here.2 on aside done
      · exact ih _ here.2 on aside (by simpa using ⟨here.1, done⟩)
      · have links := (sound.vertex path.vertex).links
        split
        · exact ih _ here.2 on aside done
        · rename_i link others same
          rw [same, List.forall_mem_cons] at links
          -- The path goes on along its first link; each other link makes a path of its own.
          refine ih _ here.2 (by simpa using ⟨here.1.along links.1, on⟩) (fun other member => ?_) done
          rcases List.mem_append.1 member with old | new
          · exact aside other old
          · obtain ⟨taken, listed, rfl⟩ := List.mem_map.1 new
            exact here.1.along (links.2 taken (List.mem_of_mem_take listed))

theorem followAll_sound (sound : forest.Sound text) (fuel : Nat) {paths kept : List Path} (s : σ)
    (here : ∀ path ∈ paths, path.Sound text) (done : ∀ path ∈ kept, path.Sound text) :
    ∀ path ∈ (forest.followAll judge fuel paths s kept).1, path.Sound text := by
  have reversed : ∀ path ∈ kept.reverse, path.Sound text := fun path member =>
    done path (List.mem_reverse.1 member)
  induction fuel generalizing paths s kept with
  | zero => exact reversed
  | succ fuel ih =>
      cases paths with
      | nil => exact reversed
      | cons path rest =>
          rw [followAll]
          · have next := step_sound judge sound s here (List.forall_mem_nil _) (List.forall_mem_nil _) done
            exact ih _ next.1 next.2 fun path member => next.2 path (List.mem_reverse.1 member)
          · nofun

theorem follow_sound (sound : forest.Sound text) (b : Nat) (s : σ) :
    ∀ path ∈ (forest.follow judge b s).1, path.Sound text :=
  followAll_sound judge sound _ s (by simp [Path.Sound]) nofun

end Follow

/-- A sound forest with whole trees that were taken off one of its branches. -/
def TakenSound (text : List Char) (state : Forest × List Taken) : Prop :=
  state.1.Sound text ∧ ∀ slice ∈ state.2, slice.Sound text

theorem addSlice_sound (b : Nat) {state : Forest × List Taken} (sound : TakenSound text state) {path : Path}
    (whole : path.Sound text) : TakenSound text (addSlice b state path) := by
  obtain ⟨forest, slices⟩ := state
  obtain ⟨forestSound, each⟩ := sound
  simp only [addSlice]
  split
  -- A branch stands for the vertex already: the slice comes behind the last one of that branch.
  · refine ⟨forestSound, fun slice member => ?_⟩
    rcases List.mem_append.1 member with front | behind
    · exact each slice (List.mem_of_mem_take front)
    · rcases List.mem_cons.1 behind with rfl | after
      · exact whole
      · exact each slice (List.mem_reverse.1 ((List.takeWhile_prefix _).subset (List.mem_reverse.1 after)))
  · refine ⟨forestSound.withBranches fun branch member => ?_, fun slice member => ?_⟩
    · rcases List.mem_append.1 member with old | new
      · exact forestSound.branches branch old
      · obtain rfl := List.mem_singleton.1 new
        nofun
    · rcases List.mem_append.1 member with old | new
      · exact each slice old
      · obtain rfl := List.mem_singleton.1 new
        exact whole

theorem slices_sound (sound : forest.Sound text) (b : Nat) {paths : List Path}
    (whole : ∀ path ∈ paths, path.Sound text) : TakenSound text (forest.slices b paths) :=
  List.foldlRecOn paths (addSlice b) (motive := TakenSound text) ⟨sound, nofun⟩ fun _ sound path listed =>
    addSlice_sound b sound (whole path listed)

theorem take_sound (sound : forest.Sound text) (b count : Nat) : TakenSound text (forest.take b count) :=
  slices_sound sound b (follow_sound _ sound b ())

theorem takeAll_sound (sound : forest.Sound text) (b : Nat) : TakenSound text (forest.takeAll b) :=
  slices_sound sound b (follow_sound _ sound b ())

/-- What an error was made of is whole. -/
theorem takeError_sound (sound : forest.Sound text) (b : Nat) :
    (forest.takeError b).1.Sound text ∧ ∀ tree ∈ (forest.takeError b).2, tree.Whole text := by
  simp only [takeError]
  split
  · have taken := fun judge => slices_sound sound b (follow_sound judge sound b false)
    split
    · rename_i found
      have taken := found ▸ taken _
      refine ⟨taken.1.replace b _, fun tree member => ?_⟩
      obtain ⟨error, listed, child⟩ := List.mem_flatMap.1 member
      exact (taken.2 _ List.mem_cons_self error listed).children tree child
    · rename_i found
      have taken := found ▸ taken _
      exact ⟨taken.1, nofun⟩
  · exact ⟨sound, nofun⟩

end Forest

end MessageKeys.Markup
