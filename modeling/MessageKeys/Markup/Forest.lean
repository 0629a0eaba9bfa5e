import MessageKeys.Markup.Token
/-!
# Markup.Forest — readings of one text side by side

While a text is read that does not follow the grammar, several readings of it are kept. Each is a
`Branch`: a stack of trees with the state after each. The stacks share what they have in common: they
are paths through a table of vertices, where a vertex links to those before it, and two branches
that come to the same state at the same place for the same cost become one (`Forest.merge`).

Taking trees off a branch (`Forest.take`) follows all its paths and so may give several branches.
-/
namespace MessageKeys.Markup

/-- A step back from a vertex; no tree lies on the step into the state of being lost. -/
structure Link where
  vertex : Nat
  tree : Option Tree

/-- What a reading has come to. -/
structure Vertex where
  state : State
  place : Place
  links : List Link
  /-- What the reading up to here costs. -/
  cost : Nat
  /-- Nodes gained up to here. -/
  weight : Nat
deriving Inhabited

/-- Whether a branch is being continued. -/
inductive Status where
  | active
  /-- Given up. -/
  | halted
  /-- Stopped at a token that fits nothing. -/
  | paused (token : Tree)
deriving Inhabited

/-- A state that a lost branch has gone through and may go back to. -/
structure Return where
  place : Place
  /-- Trees since then. -/
  depth : Nat
  state : State

/-- One reading of a text up to some place. -/
structure Branch where
  /-- The vertex the branch has come to. -/
  vertex : Nat
  returns : Option (List Return)
  /-- The weight of the branch when it was last lost. -/
  lostWeight : Nat
  tags : Option OpenTags
  status : Status
deriving Inhabited

def Branch.isActive (branch : Branch) : Bool :=
  match branch.status with
  | .active => true
  | _ => false

def Branch.isPaused (branch : Branch) : Bool :=
  match branch.status with
  | .paused _ => true
  | _ => false

def Branch.isHalted (branch : Branch) : Bool :=
  match branch.status with
  | .halted => true
  | _ => false

/-- All readings of a text, the most promising first. Vertex 0 is the start of the text. -/
structure Forest where
  vertices : Array Vertex
  branches : List Branch
  /-- The best complete reading so far. -/
  finished : Option Tree
  /-- Number of complete readings. -/
  accepted : Nat

namespace Forest

/-- The start of a text. -/
def first (text : List Char) : Forest where
  vertices := #[⟨.start, .first text, [], 0, 0⟩]
  branches := [⟨0, none, 0, none, .active⟩]
  finished := none
  accepted := 0

section Look

variable (forest : Forest)

def vertex (i : Nat) : Vertex := forest.vertices.getD i default

def branch (b : Nat) : Branch := forest.branches.getD b default

/-- What a branch has come to. -/
def tip (b : Nat) : Vertex := forest.vertex (forest.branch b).vertex

def size : Nat := forest.branches.length

/-- What a branch costs, with the recovery that it is about to begin. -/
def cost (b : Nat) : Nat :=
  let tip := forest.tip b
  let isLost := match tip.state, tip.links with
    | .error, ⟨_, none⟩ :: _ => true
    | _, _ => false
  tip.cost + if (forest.branch b).isPaused || isLost then recoveryCost else 0

/-- A tree that is not empty, or no error at all, lies behind the place where the branch was last
lost. -/
def hasAdvanced (b : Nat) : Bool :=
  let tip := forest.tip b
  tip.cost == 0 || go (forest.branch b).lostWeight forest.vertices.size tip
where
  go (lostWeight : Nat) : Nat → Vertex → Bool
    | 0, _ => false
    | fuel + 1, vertex =>
      match vertex.links with
      | ⟨before, some tree⟩ :: _ =>
        if 0 < tree.width then true
        else if lostWeight < vertex.weight && tree.cost == 0 then
          go lostWeight fuel (forest.vertex before)
        else false
      | _ => false

/-- Two branches that may become one. -/
def canMerge (a b : Nat) : Bool :=
  let one := forest.tip a
  let other := forest.tip b
  (forest.branch a).isActive && (forest.branch b).isActive && one.state == other.state &&
    one.place.offset == other.place.offset && one.cost == other.cost &&
    (forest.branch a).tags == (forest.branch b).tags

end Look

section Change

variable (forest : Forest)

def modifyBranch (b : Nat) (f : Branch → Branch) : Forest :=
  { forest with branches := forest.branches.modify b f }

def remove (b : Nat) : Forest :=
  { forest with branches := forest.branches.eraseIdx b }

def halt (b : Nat) : Forest :=
  forest.modifyBranch b fun branch => { branch with status := .halted }

/-- Stops a branch at a token that fits nothing. -/
def pause (b : Nat) (token : Tree) : Forest :=
  let weight := (forest.tip b).weight
  forest.modifyBranch b fun branch => { branch with status := .paused token, lostWeight := weight }

def resume (b : Nat) : Forest :=
  forest.modifyBranch b fun branch => { branch with status := .active }

/-- A second branch, at the end, that has come to the same vertex. -/
def copy (b : Nat) : Forest :=
  { forest with branches := forest.branches ++ [{ forest.branch b with returns := none }] }

/-- Puts the later branch `b` in the place of `a`. -/
def replace (a b : Nat) : Forest :=
  if a == b then forest
  else
    let old := forest.branch a
    let new := forest.branch b
    let returns := match new.returns with
      | some returns => some returns
      | none => old.returns
    (forest.modifyBranch a fun _ => { new with returns := returns }).remove b

def swap (a b : Nat) : Forest :=
  let one := forest.branch a
  let other := forest.branch b
  (forest.modifyBranch a fun _ => other).modifyBranch b fun _ => one

/-- Continues a branch to a state over a tree, or over none when its place in the grammar is
lost. -/
def push (b : Nat) (tree : Option Tree) (state : State) : Forest :=
  let tip := forest.tip b
  let vertex : Vertex :=
    match tree with
    | some tree =>
      { state := state
        place := tree.stop
        links := [⟨(forest.branch b).vertex, some tree⟩]
        cost := tip.cost + tree.cost
        weight := tip.weight + tree.weight }
    | none => { tip with state := state, links := [⟨(forest.branch b).vertex, none⟩] }
  let index := forest.vertices.size
  { forest with vertices := forest.vertices.push vertex }.modifyBranch b fun branch =>
    { branch with
      vertex := index
      lostWeight := if tree.isNone then vertex.weight else branch.lostWeight }

def pushAll (b : Nat) (trees : List Tree) (state : State) : Forest :=
  trees.foldl (fun forest tree => forest.push b (some tree) state) forest

end Change

/-- The most links a vertex has. -/
def mostLinks : Nat := 8

/-- The most paths that are followed at once. -/
def mostPaths : Nat := 64

def areLike : Option Tree → Option Tree → Bool
  | none, none => true
  | some a, some b => a.isLike b
  | _, _ => false

/-- Gives a vertex one more link. Where a like link leads to the same vertex, nothing is gained; where
it leads to one that has come to the same, the links of that one are joined instead. -/
def addLink : Nat → Array Vertex → Nat → Link → Array Vertex
  | 0, vertices, _, _ => vertices
  | fuel + 1, vertices, self, link =>
    if link.vertex == self then vertices
    else
      let vertex := vertices.getD self default
      let before := vertices.getD link.vertex default
      let twin := vertex.links.find? fun known =>
        areLike known.tree link.tree &&
          (known.vertex == link.vertex ||
            let other := vertices.getD known.vertex default
            other.state == before.state && other.place.offset == before.place.offset &&
              other.cost == before.cost)
      match twin with
      | some known =>
        if known.vertex == link.vertex then vertices
        else before.links.foldl (fun vertices link => addLink fuel vertices known.vertex link) vertices
      | none =>
        if mostLinks ≤ vertex.links.length then vertices
        else
          let weight := before.weight + (link.tree.map (·.weight)).getD 0
          vertices.setIfInBounds self
            { vertex with links := vertex.links ++ [link], weight := max vertex.weight weight }

/-- Joins branch `b` to branch `a` if both have come to the same. -/
def merge? (forest : Forest) (a b : Nat) : Option Forest :=
  if forest.canMerge a b then
    let target := (forest.branch a).vertex
    let vertices := (forest.tip b).links.foldl
      (fun vertices link => addLink (vertices.size + 1) vertices target link) forest.vertices
    let forest := { forest with vertices := vertices }
    let tip := forest.tip a
    let forest :=
      if tip.state == .error then
        forest.modifyBranch a fun branch => { branch with lostWeight := tip.weight }
      else forest
    some (forest.remove b)
  else none

/-- Joins the branch `b` to the first of the branches `among` that has come to the same. -/
def mergeInto? (forest : Forest) (b : Nat) (among : List Nat) : Option Forest :=
  among.findSome? fun a => forest.merge? a b

/-! ## Paths -/

/-- A path back from the tip of a branch. -/
structure Path where
  vertex : Nat
  /-- The trees on the path, the first in the text first. -/
  trees : List Tree
  /-- Trees on the path that are not extra. -/
  count : Nat

/-- What to do with a path. -/
inductive Verdict where
  | goOn
  | drop
  | keep
deriving DecidableEq

def Path.along (path : Path) (link : Link) : Path where
  vertex := link.vertex
  trees := match link.tree with
    | some tree => tree :: path.trees
    | none => path.trees
  count := match link.tree with
    | some tree => if tree.extra then path.count else path.count + 1
    | none => path.count + 1

section Follow

variable {σ : Type} (forest : Forest) (judge : σ → Path → Verdict × σ)

/-- One step along every path. `going` and `added` are paths for the next step, `kept` those that are
complete, the latest first. -/
def step : List Path → σ → List Path → List Path → List Path →
    σ × List Path × List Path
  | [], s, going, added, kept => (s, going.reverse ++ added, kept)
  | path :: rest, s, going, added, kept =>
    let (verdict, s) := judge s path
    match verdict with
    | .drop => step rest s going added kept
    | .keep => step rest s going added (path :: kept)
    | .goOn =>
      match (forest.vertex path.vertex).links with
      | [] => step rest s going added kept
      | link :: others =>
        let room := mostPaths - (going.length + 1 + rest.length + added.length)
        let added := added ++ (others.take room).map path.along
        step rest s (path.along link :: going) added kept

def followAll : Nat → List Path → σ → List Path → List Path × σ
  | 0, _, s, kept => (kept.reverse, s)
  | _, [], s, kept => (kept.reverse, s)
  | fuel + 1, paths, s, kept =>
    let (s, paths, kept) := step forest judge paths s [] [] kept
    followAll fuel paths s kept

/-- The paths back from a branch that `judge` keeps, in the order in which they are found. -/
def follow (b : Nat) (s : σ) : List Path × σ :=
  followAll forest judge (forest.vertices.size + 1) [⟨(forest.branch b).vertex, [], 0⟩] s []

end Follow

/-- Trees taken off a branch, and the branch that is left. -/
structure Taken where
  branch : Nat
  trees : List Tree

/-- Adds the branch that a path leads back to. Paths to one vertex give one branch. -/
def addSlice (b : Nat) (state : Forest × List Taken) (path : Path) : Forest × List Taken :=
  let (forest, slices) := state
  let same := slices.findRev? fun slice => (forest.branch slice.branch).vertex == path.vertex
  match same with
  | some twin =>
    let after := (slices.reverse.takeWhile (·.branch != twin.branch)).reverse
    (forest, slices.take (slices.length - after.length) ++ ⟨twin.branch, path.trees⟩ :: after)
  | none =>
    let branch : Branch :=
      { forest.branch b with vertex := path.vertex, returns := none, status := .active }
    ({ forest with branches := forest.branches ++ [branch] },
      slices ++ [⟨forest.size, path.trees⟩])

def slices (forest : Forest) (b : Nat) (paths : List Path) : Forest × List Taken :=
  paths.foldl (addSlice b) (forest, [])

/-- Takes so many trees off a branch, along each of its paths. The branches that are left are new, at
the end. -/
def take (forest : Forest) (b count : Nat) : Forest × List Taken :=
  let judge (_ : Unit) (path : Path) : Verdict × Unit :=
    (if path.count == count then .keep else .goOn, ())
  forest.slices b (forest.follow judge b ()).1

/-- Takes everything off a branch. -/
def takeAll (forest : Forest) (b : Nat) : Forest × List Taken :=
  let judge (_ : Unit) (path : Path) : Verdict × Unit :=
    (if (forest.vertex path.vertex).links.isEmpty then .keep else .goOn, ())
  forest.slices b (forest.follow judge b ()).1

/-- Takes an error off the tip of a branch, if there is one, and gives what it was made of. -/
def takeError (forest : Forest) (b : Nat) : Forest × List Tree :=
  let isError (link : Link) : Bool := link.tree.any (·.isError)
  if (forest.tip b).links.any isError then
    let judge (found : Bool) (path : Path) : Verdict × Bool :=
      match path.trees with
      | [] => (.goOn, found)
      | tree :: _ => if !found && tree.isError then (.keep, true) else (.drop, found)
    match forest.slices b (forest.follow judge b false).1 with
    | (forest, slice :: _) =>
      (forest.replace b slice.branch, slice.trees.flatMap (·.children))
    | (forest, []) => (forest, [])
  else (forest, [])

/-- How far back a lost branch may return. -/
def deepestReturn : Nat := 16

/-- Notes the states that a branch has gone through, so that it may return to them. -/
def noteReturns (forest : Forest) (b : Nat) : Forest :=
  let judge (noted : List Return) (path : Path) : Verdict × List Return :=
    let vertex := forest.vertex path.vertex
    if deepestReturn < path.count then (.drop, noted)
    else if (noted.takeWhile (path.count ≤ ·.depth)).any fun known =>
        known.depth == path.count && known.state == vertex.state then (.goOn, noted)
    else (.goOn, ⟨vertex.place, path.count, vertex.state⟩ :: noted)
  let noted := (forest.follow judge b []).2
  forest.modifyBranch b fun branch => { branch with returns := some noted.reverse }

end Forest
end MessageKeys.Markup
