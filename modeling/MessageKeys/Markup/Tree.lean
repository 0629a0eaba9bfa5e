import MessageKeys.Markup.Automaton
import MessageKeys.Markup.Place
import MessageKeys.Markup.Tag
/-!
# Markup.Tree — what has been read of a text

A `Tree` is a token or a phrase with what it is made of. Each tree knows the blanks before it (from
`lead` to `start`), its own text (from `start` to `stop`), and what it costs: every token that had
to be passed over or made up adds to the cost, and of two readings of one text the cheaper is kept.
-/
namespace MessageKeys.Markup

/-- Cost of starting to recover from an error. -/
def recoveryCost : Nat := 500

/-- Cost of a token that is made up. -/
def missingCost : Nat := 110

/-- Cost of a node that is passed over. -/
def skippedNodeCost : Nat := 100

/-- Cost of a line that is passed over; a byte costs one. -/
def skippedLineCost : Nat := 30

/-- A token or phrase of a text. -/
structure Tree where
  symbol : Symbol
  lead : Place
  start : Place
  stop : Place
  children : List Tree
  /-- Not part of the phrase around it: a comment, or what was passed over. -/
  extra : Bool
  /-- The open tags after this token, where it has to do with them. -/
  tags : Option OpenTags
  cost : Nat
  /-- Children that readers see, through those that they do not. -/
  shownChildren : Nat
  /-- Nodes below this one that readers see. -/
  shownBelow : Nat
deriving Inhabited

namespace Tree

def isShown (tree : Tree) : Bool := tree.symbol.isShown

def isError (tree : Tree) : Bool := tree.symbol == .error

def isFinish (tree : Tree) : Bool := tree.symbol == .terminal .finish

/-- A token. -/
def leaf (symbol : Symbol) (lead start stop : Place) (tags : Option OpenTags) : Tree where
  symbol := symbol
  lead := lead
  start := start
  stop := stop
  children := []
  extra := symbol == .terminal .finish
  tags := tags
  cost := 0
  shownChildren := 0
  shownBelow := 0

/-- A token that is not in the text. -/
def missing (kind : Terminal) (place : Place) : Tree :=
  { leaf (.terminal kind) place place place none with cost := missingCost + recoveryCost }

/-- Bytes from the end of what comes before. -/
def width (tree : Tree) : Nat := tree.stop.offset - tree.lead.offset

/-- Lines from the end of what comes before. -/
def lines (tree : Tree) : Nat := tree.stop.line - tree.lead.line

/-- Nodes a reading has gained with this tree. -/
def weight (tree : Tree) : Nat :=
  tree.shownBelow + (if tree.isShown then 1 else 0) + (if tree.symbol == .skipped then 1 else 0)

/-- What a child costs that is passed over with its phrase. -/
private def skippedCost (child : Tree) : Nat :=
  if child.extra || (child.isError && child.children.isEmpty) then 0
  else if child.isShown then skippedNodeCost
  else if child.children.isEmpty then 0
  else skippedNodeCost * child.shownChildren

private def sumOver (f : Tree → Nat) (children : List Tree) : Nat :=
  children.foldl (fun sum child => sum + f child) 0

/-- A node over its children; without any it is empty at `place`. -/
def node (symbol : Symbol) (place : Place) (children : List Tree) : Tree :=
  let lead := (children.head?.map (·.lead)).getD place
  let start := (children.head?.map (·.start)).getD place
  let stop := (children.getLast?.map (·.stop)).getD place
  let own := sumOver (fun child => if child.symbol == .skipped then 0 else child.cost) children
  let cost :=
    if symbol == .error || symbol == .skipped then
      own + sumOver skippedCost children + recoveryCost + (stop.offset - start.offset) +
        skippedLineCost * (stop.line - start.line)
    else own
  { symbol := symbol
    lead := lead
    start := start
    stop := stop
    children := children
    extra := false
    tags := none
    cost := cost
    shownChildren := sumOver
      (fun child => if child.isShown then 1 else if child.children.isEmpty then 0
        else child.shownChildren) children
    shownBelow := sumOver
      (fun child => child.shownBelow + if child.isShown then 1 else 0) children }

/-- Two readings of one stretch of text that need not both be kept. -/
def isLike (a b : Tree) : Bool :=
  a.symbol == b.symbol &&
    ((0 < a.cost && 0 < b.cost) ||
      (a.start.offset - a.lead.offset == b.start.offset - b.lead.offset &&
        a.stop.offset - a.start.offset == b.stop.offset - b.start.offset &&
        a.children.length == b.children.length && a.extra == b.extra && a.tags == b.tags))

mutual

/-- An order of trees by symbols, then numbers of children, then the children. -/
def order (a b : Tree) : Ordering :=
  match compare a.symbol.rank b.symbol.rank with
  | .eq =>
    match a, b with
    | ⟨_, _, _, _, as, _, _, _, _, _⟩, ⟨_, _, _, _, bs, _, _, _, _, _⟩ =>
      match compare as.length bs.length with
      | .eq => orderAll as bs
      | order => order
  | order => order

def orderAll : List Tree → List Tree → Ordering
  | a :: as, b :: bs =>
    match order a b with
    | .eq => orderAll as bs
    | order => order
  | _, _ => .eq

end

/-- Of two readings of one stretch, the second is to be kept: it costs less, or as much but not
nothing, or comes later in the order of trees. -/
def isBetter (left right : Tree) : Bool :=
  if right.cost < left.cost then true
  else if left.cost < right.cost then false
  else if 0 < left.cost then true
  else order left right == .gt

/-- Splits off the extra trees at the end. -/
def splitExtras (trees : List Tree) : List Tree × List Tree :=
  let extras := (trees.reverse.takeWhile (·.extra)).reverse
  (trees.take (trees.length - extras.length), extras)

mutual

/-- The children that readers see, in order. -/
def shown : Tree → List Tree
  | ⟨_, _, _, _, children, _, _, _, _, _⟩ => shownAmong children

def shownAmong : List Tree → List Tree
  | [] => []
  | child :: rest => (if child.isShown then [child] else shown child) ++ shownAmong rest

end

/-- The text of a tree without the blanks before it. -/
def text (tree : Tree) : String := tree.start.textTo tree.stop

end Tree
end MessageKeys.Markup
