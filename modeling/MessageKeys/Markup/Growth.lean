import MessageKeys.Markup.Forest
/-!
# Markup.Growth — continuing the readings of a text

A `Growth` is a step that changes a forest. Tokens continue branches (`Growth.shift`, `reduce`,
`accept`); a branch whose next token fits nothing is lost, and recovers (`Growth.recover`) by going
back to a state in which the token makes sense, by passing the token over, or by making up one token
that is missing (`Growth.lose`). `Growth.cull` compares the branches and gives up those that are
clearly worse than another.
-/
namespace MessageKeys.Markup

abbrev Growth := StateM Forest

namespace Growth

/-- The most branches that are kept. -/
def mostBranches : Nat := 6

/-- The most branches that may arise while phrases are reduced. -/
def mostPassing : Nat := 10

/-- How much worse, weighted by what the other has gained, a branch may be. -/
def worstDifference : Nat := 18 * skippedNodeCost

/-! ## Which branch is better -/

/-- What counts when branches are compared. -/
structure Standing where
  cost : Nat
  /-- Nodes gained since the branch was last lost. -/
  gained : Nat
  isLost : Bool

inductive Preference where
  | takeLeft
  | preferLeft
  | neither
  | preferRight
  | takeRight

def Standing.compare (a b : Standing) : Preference :=
  if !a.isLost && b.isLost then if a.cost < b.cost then .takeLeft else .preferLeft
  else if a.isLost && !b.isLost then if b.cost < a.cost then .takeRight else .preferRight
  else if a.cost < b.cost then
    if worstDifference < (b.cost - a.cost) * (1 + a.gained) then .takeLeft else .preferLeft
  else if b.cost < a.cost then
    if worstDifference < (a.cost - b.cost) * (1 + b.gained) then .takeRight else .preferRight
  else .neither

/-- Nodes gained since the branch was last lost. A branch that has fallen behind counts from where it
is. -/
def gained (b : Nat) : Growth Nat := do
  let forest ← get
  let weight := (forest.tip b).weight
  let lostWeight := (forest.branch b).lostWeight
  if weight < lostWeight then
    set (forest.modifyBranch b fun branch => { branch with lostWeight := weight })
  return weight - lostWeight

def standing (b : Nat) : Growth Standing := do
  let gained ← gained b
  let forest ← get
  let isPaused := (forest.branch b).isPaused
  return {
    cost := forest.cost b + if isPaused then skippedNodeCost else 0
    gained := gained
    isLost := isPaused || (forest.tip b).state == .error }

def beatenByAny (b : Nat) (standing : Standing) : List Nat → Growth Bool
  | [] => return false
  | other :: rest => do
    let forest ← get
    if other == b || !(forest.branch other).isActive ||
        (forest.tip other).place.offset < (forest.tip b).place.offset then
      beatenByAny b standing rest
    else
      match standing.compare (← Growth.standing other) with
      | .takeRight => return true
      | .preferRight =>
        if (← get).canMerge other b then return true else beatenByAny b standing rest
      | _ => beatenByAny b standing rest

/-- Another reading is better than this one would be if it cost so much. -/
def isBeaten (b cost : Nat) : Growth Bool := do
  if (← get).finished.any (·.cost ≤ cost) then return true
  let gained ← gained b
  beatenByAny b ⟨cost, gained, false⟩ (List.range (← get).size)

/-! ## Taking tokens in -/

def shift (b : Nat) (state : State) (token : Tree) (extra : Bool) : Growth Unit :=
  modify fun forest =>
    let forest := forest.push b (some { token with extra := extra }) state
    match token.tags with
    | some tags => forest.modifyBranch b fun branch => { branch with tags := some tags }
    | none => forest

/-- Pushes the phrase that slices of one branch make up, and joins the branch to one before it that
has come to the same. The result counts the branches that are gone. -/
def pushPhrase (b halted : Nat) (phrase : Phrase) (gone : Nat) :
    List Forest.Taken → Growth Nat
  | [] => return gone
  | slice :: rivals => do
    -- The branches that are gone stood in front of this one.
    let target := slice.branch - gone
    if mostPassing + halted < target then
      modify (·.remove target)
      return gone + 1
    let tip := (← get).tip target
    let make (slice : Forest.Taken) : Tree × List Tree :=
      let (trees, extras) := Tree.splitExtras slice.trees
      (Tree.node (.phrase phrase) tip.place trees, extras)
    let (parent, extras) := rivals.foldl
      (fun best rival =>
        let rival := make rival
        if best.1.isBetter rival.1 then rival else best)
      (make slice)
    let state := tip.state.goto phrase
    modify fun forest => (forest.push target (some parent) state).pushAll target extras state
    match (← get).mergeInto? target ((List.range target).filter (· != b)) with
    | some forest =>
      set forest
      return gone + 1
    | none => return gone

/-- Makes a phrase of so many trees at the tip of a branch. The branches that come of it are new; the
result is the first of them. -/
def reduce (b : Nat) (phrase : Phrase) (count : Nat) : Growth (Option Nat) := do
  let before := (← get).size
  let slices ← modifyGet fun forest => (forest.take b count).swap
  let halted := (← get).branches.countP (·.isHalted)
  let _ ← (slices.splitBy (·.branch == ·.branch)).foldlM (pushPhrase b halted phrase) 0
  return if before < (← get).size then some before else none

/-- The tree of a whole text: the last tree that is not extra, with the others among its children. -/
def wholeTree (trees : List Tree) : Tree :=
  let after := (trees.reverse.takeWhile (·.extra)).reverse
  match (trees.reverse.dropWhile (·.extra)) with
  | [] => Tree.node .error default trees
  | last :: before => Tree.node last.symbol last.lead (before.reverse ++ last.children ++ after)

/-- Completes a reading at the end of the text. -/
def accept (b : Nat) (finish : Tree) : Growth Unit := do
  let slices ← modifyGet fun forest => ((forest.push b (some finish) .start).takeAll b).swap
  for slice in slices do
    let tree := wholeTree slice.trees
    modify fun forest =>
      { forest with
        accepted := forest.accepted + 1
        finished :=
          match forest.finished with
          | some best => some (if best.isBetter tree then tree else best)
          | none => some tree }
  modify fun forest =>
    let forest := match slices with
      | slice :: _ => forest.remove slice.branch
      | [] => forest
    forest.halt b

/-! ## Recovery -/

structure Reductions where
  shifts : Bool
  reduces : List (Phrase × Nat)

/-- What any of these tokens would do in a state: shift, or end phrases. -/
def reductionsOn (state : State) (tokens : List Terminal) : Reductions :=
  (tokens.flatMap state.actions).foldl
    (fun found action =>
      match action with
      | .shift _ | .recover => { found with shifts := true }
      | .reduce phrase (count + 1) =>
        if found.reduces.contains (phrase, count + 1) then found
        else { found with reduces := found.reduces ++ [(phrase, count + 1)] }
      | _ => found)
    ⟨false, []⟩

/-- The loop of `reduceAll`: `first` is the branch it began with, `known` the number of branches then,
`turn` the number of rounds so far. -/
def reduceFrom (first known : Nat) (only : Option Symbol) :
    Nat → Nat → Nat → Bool → Growth Bool
  | 0, _, _, shifts => return shifts
  | fuel + 1, turn, b, shifts => do
    let forest ← get
    let size := forest.size
    if size ≤ b then return shifts
    let earlier := (List.range b).filter (known ≤ ·)
    match forest.mergeInto? b earlier with
    | some forest =>
      set forest
      reduceFrom first known only fuel (turn + 1) b shifts
    | none =>
      let tokens := match only with
        | none => Terminal.all
        | some (.terminal token) => [token]
        | some _ => []
      let found := reductionsOn (forest.tip b).state tokens
      let made ← found.reduces.foldlM (fun _ (phrase, count) => reduce b phrase count) none
      -- Behind the branch it began with come the new ones only.
      let next := if b == first then size else b + 1
      if found.shifts then reduceFrom first known only fuel (turn + 1) next true
      else
        match made with
        | some new =>
          -- With nothing to shift yet, the branch goes on from what it has made, for a while.
          if turn < mostBranches then
            modify (·.replace b new)
            reduceFrom first known only fuel (turn + 1) b shifts
          else
            if only.isSome then modify (·.remove b)
            reduceFrom first known only fuel (turn + 1) next shifts
        | none =>
          if only.isSome then modify (·.remove b)
          reduceFrom first known only fuel (turn + 1) next shifts

/-- Makes every phrase that can end here, if this token comes next or whatever comes next. The result
says whether the token, or some token, can be shifted then. -/
def reduceAll (b : Nat) (only : Option Symbol) : Growth Bool := do
  let forest ← get
  reduceFrom b forest.size only (16 * (forest.vertices.size + 16)) 0 b false

/-- Takes everything since a state of a lost branch off and puts it back as one error. -/
def returnTo (b depth : Nat) (state : State) : Growth Bool := do
  let slices ← modifyGet fun forest => (forest.take b depth).swap
  let last ← slices.foldlM
    (fun (last : Option Nat) slice => do
      let forest ← get
      if last == some slice.branch then return last
      if (forest.tip slice.branch).state != state then
        set (forest.halt slice.branch)
        return last
      let (forest, before) := forest.takeError slice.branch
      let (trees, extras) := Tree.splitExtras (before ++ slice.trees)
      let forest :=
        if trees.isEmpty then forest
        else
          let error := { Tree.node .error default trees with extra := true }
          forest.push slice.branch (some error) state
      set (forest.pushAll slice.branch extras state)
      return some slice.branch)
    none
  return last.isSome

/-- Tries the states that a lost branch has gone through, the latest first, for one in which the token
makes sense. -/
def tryReturns (b : Nat) (token : Tree) (size cost gained : Nat) :
    List Return → Growth Bool
  | [] => return false
  | point :: rest => do
    let forest ← get
    let place := (forest.tip b).place
    let isTaken := (List.range size).any fun other =>
      (forest.tip other).state == point.state && (forest.tip other).place.offset == place.offset
    if point.state == .error || point.place.offset == place.offset || isTaken then
      tryReturns b token size cost gained rest
    else
      let depth := point.depth + if 0 < gained then 1 else 0
      let newCost := cost + depth * skippedNodeCost + (place.offset - point.place.offset) +
        (place.line - point.place.line) * skippedLineCost
      if ← isBeaten b newCost then return false
      if point.state.accepts token.symbol then
        if ← returnTo b depth point.state then return true
      tryReturns b token size cost gained rest

/-- Passes a token over, together with what has been passed over just before it. -/
def passOver (b : Nat) (token : Tree) (gained : Nat) : Growth Unit := do
  let place := (← get).tip b |>.place
  let token := { token with extra := token.extra || token.symbol == .terminal .comment }
  let skipped := Tree.node .skipped place [token]
  let skipped ←
    if 0 < gained then do
      let slices ← modifyGet fun forest => (forest.take b 1).swap
      match slices with
      | slice :: _ =>
        modify fun forest =>
          let kept := { forest with branches := forest.branches.take (slice.branch + 1) }
          (if 1 < slices.length then kept else forest).replace b slice.branch
        pure (Tree.node .skipped place (slice.trees ++ [skipped]))
      | [] => pure skipped
    else pure skipped
  modify fun forest =>
    let forest := forest.push b (some skipped) .error
    match token.tags with
    | some tags => forest.modifyBranch b fun branch => { branch with tags := some tags }
    | none => forest

/-- Continues a lost branch at a token: goes back to where the token makes sense, and passes the token
over as well unless that is clearly worse. -/
def recover (b : Nat) (token : Tree) : Growth Unit := do
  let size := (← get).size
  let gained ← gained b
  let forest ← get
  let cost := forest.cost b
  let returns := if token.isError then [] else (forest.branch b).returns.getD []
  let hasReturned ← tryReturns b token size cost gained returns
  modify fun forest =>
    { forest with
      branches := forest.branches.take size ++ (forest.branches.drop size).filter (·.isActive) }
  if hasReturned && mostBranches < (← get).size then
    modify (·.halt b)
  else if token.isFinish then
    let place := (← get).tip b |>.place
    modify fun forest => forest.push b (some (Tree.node .error place [])) .start
    accept b token
  else if ← isBeaten b (cost + skippedNodeCost + token.width + token.lines * skippedLineCost) then
    modify (·.halt b)
  else passOver b token gained

/-- Tries the tokens that may be missing before `token`: one after which a phrase can end, and after
that `token` can be shifted. The result says whether one was made up; the branch it is on is new. -/
def tryMissing (b : Nat) (token : Tree) (place : Place) : List Terminal → Growth Bool
  | [] => return false
  | kind :: rest => do
    let forest ← get
    let state := (forest.tip b).state
    let next := state.after (.terminal kind)
    if next == .error || next == state || !next.reducesOn token.symbol then
      tryMissing b token place rest
    else
      let new := forest.size
      set (forest.copy b |>.push new (some (Tree.missing kind place)) next)
      let only := if token.isFinish then none else some token.symbol
      if ← reduceAll new only then return true
      tryMissing b token place rest

/-- Gives up a branch's place in the grammar at a token that fits nothing, and recovers. -/
def lose (b : Nat) (token : Tree) : Growth Unit := do
  let before := (← get).size
  let _ ← reduceAll b none
  let size := (← get).size
  let place := (← get).tip b |>.place
  let _ ← (b :: (List.range size).filter (before ≤ ·)).foldlM
    (fun (hasMissing : Bool) branch => do
      let hasMissing ←
        if hasMissing then pure true else tryMissing branch token place Terminal.all
      modify fun forest => forest.push branch none .error
      return hasMissing)
    false
  modify fun forest =>
    let forest := (List.replicate (size - before) before).foldl
      (fun forest other => (forest.merge? b other).getD forest) forest
    forest.noteReturns b
  recover b token

/-! ## Comparing all branches -/

/-- Compares branch `i` with those before it from `j` on. The result is the next branch to compare. -/
def cullFrom : Nat → Nat → Nat → Standing → Growth Nat
  | 0, i, _, _ => return i + 1
  | fuel + 1, i, j, own => do
    if i ≤ j then return i + 1
    let other ← standing j
    let forest ← get
    match other.compare own with
    | .takeLeft =>
      set (forest.remove i)
      return i
    | .preferLeft | .neither =>
      match forest.merge? j i with
      | some forest =>
        set forest
        return i
      | none => cullFrom fuel i (j + 1) own
    | .preferRight =>
      match forest.merge? j i with
      | some forest =>
        set forest
        return i
      | none =>
        set (forest.swap i j)
        cullFrom fuel i (j + 1) own
    | .takeRight =>
      -- The branch has moved up, and is compared with the one that stands at `j` now.
      set (forest.remove j)
      cullFrom fuel (i - 1) j own

/-- Compares all branches from `i` on with those before them. The result is the least cost of one that
is not lost. -/
def cullAll : Nat → Nat → Option Nat → Growth (Option Nat)
  | 0, _, least => return least
  | fuel + 1, i, least => do
    let forest ← get
    if forest.size ≤ i then return least
    if (forest.branch i).isHalted then
      set (forest.remove i)
      cullAll fuel i least
    else
      let own ← standing i
      let least :=
        if own.isLost then least else some (min own.cost (least.getD own.cost))
      let next ← cullFrom (2 * forest.size + 2) i 0 own
      cullAll fuel next least

/-- Lets the first of the branches continue if it is paused, and gives up the other paused ones.
`left` branches from `i` on are still to be looked at. -/
def resumeFirst : Nat → Nat → Bool → Option Nat → Growth (Option Nat)
  | 0, _, _, least => return least
  | left + 1, i, hasOther, least => do
    let forest ← get
    match (forest.branch i).status with
    | .paused token =>
      if !hasOther && forest.accepted < mostBranches then
        let least := some (forest.cost i)
        set (forest.resume i)
        lose i token
        resumeFirst left (i + 1) true least
      else
        set (forest.remove i)
        resumeFirst left i hasOther least
    | _ => resumeFirst left (i + 1) true least

/-- Gives up branches that are clearly worse than another, and puts the others in order. The result is
the least cost of a branch that is not lost. -/
def cull : Growth (Option Nat) := do
  let size := (← get).size
  let least ← cullAll (4 * size + 4) 0 none
  modify fun forest => { forest with branches := forest.branches.take mostBranches }
  resumeFirst (← get).size 0 false least

/-! ## The whole text -/

inductive Turn where
  | done
  | reduced (new : Option Nat)
  | stuck

/-- Does what a token does in a state. -/
def perform (b : Nat) (token : Tree) (state : State) :
    List Action → Turn → Growth Turn
  | [], turn => return turn
  | action :: rest, turn => do
    match action with
    | .shift next =>
      shift b next token false
      return .done
    | .stay =>
      shift b state token true
      return .done
    | .pairShift _ => perform b token state rest turn
    | .reduce phrase count =>
      let new ← reduce b phrase count
      let turn := match new, turn with
        | none, .reduced last => .reduced last
        | new, _ => .reduced new
      perform b token state rest turn
    | .accept =>
      accept b token
      return .done
    | .recover =>
      recover b token
      return .done

/-- Continues a branch with a token until it is taken in or fits nothing. -/
def offer (b : Nat) (token : Tree) : Nat → Growth Unit
  | 0 => modify (·.halt b)
  | fuel + 1 => do
    let state := (← get).tip b |>.state
    let actions := match token.symbol with
      | .terminal kind => state.actions kind
      | _ => []
    match ← perform b token state actions .stuck with
    | .done => return ()
    | .reduced (some new) =>
      modify (·.replace b new)
      offer b token fuel
    | .reduced none => modify (·.halt b)
    | .stuck =>
      if state == .error then recover b token
      else modify (·.pause b token)

/-- Continues a branch with its next token. -/
def advance (b : Nat) : Growth Unit := do
  let forest ← get
  let tip := forest.tip b
  let lookout : Lookout := ⟨tip.state, (forest.branch b).tags, forest.hasAdvanced b, tip.place⟩
  offer b lookout.next (forest.vertices.size + 4)

/-- Continues a branch until it has come past `furthest`; the result is where it has come to then. -/
def advanceOne (b : Nat) : Nat → Nat → Growth Nat
  | 0, furthest => do
    modify (·.halt b)
    return furthest
  | patience + 1, furthest => do
    if !((← get).branch b).isActive then return furthest
    advance b
    let offset := (← get).tip b |>.place.offset
    if furthest < offset || (0 < b && offset == furthest) then return offset
    advanceOne b patience furthest

/-- Continues every branch from `b` on. -/
def advanceAll (patience : Nat) : Nat → Nat → Nat → Growth Nat
  | 0, _, furthest => return furthest
  | fuel + 1, b, furthest => do
    if (← get).size ≤ b then return furthest
    let furthest ← advanceOne b patience furthest
    advanceAll patience fuel (b + 1) furthest

def run (patience : Nat) : Nat → Nat → Growth Unit
  | 0, _ => return ()
  | rounds + 1, furthest => do
    let furthest ← advanceAll patience patience 0 furthest
    let least ← cull
    let forest ← get
    let isBest := forest.finished.any fun tree => least.all (tree.cost < ·)
    if isBest || forest.size == 0 then return ()
    run patience rounds furthest

/-- The best tree of a text. -/
def treeOf (text : List Char) : Tree :=
  let patience := 16 * (text.length + 16)
  let (_, forest) := StateT.run (run patience patience 0) (Forest.first text)
  forest.finished.getD (Tree.node (.phrase .document) (.first text) [])

end Growth
end MessageKeys.Markup
