/-!
# Markup.Automaton — the grammar of markup as states and actions

Markup is read by shifting tokens and reducing phrases. A `State` says what has been read of the
phrase at hand and what may follow it; `State.actions` says what a token does there, `State.goto`
where a finished phrase leads.

    document   ::= nodes?
    node       ::= doctype | entity | text | element | script | style | stray end tag
    doctype    ::= "<!" "doctype" text ">"
    element    ::= start tag, nodes?, (end tag | nothing, if the end is implied) | self-closing tag
    script     ::= start tag, raw text?, end tag             (and style likewise)
    start tag  ::= "<" name attributes? ">"                  (self-closing: "/>")
    attribute  ::= name ("=" (value | quoted value))?

Sequences of nodes and of attributes are pairs of shorter sequences. A comment may stand anywhere.
-/
namespace MessageKeys.Markup

/-- Kinds of tokens, in the order in which a missing one is looked for. -/
inductive Terminal where
  | finish
  | declarationOpen
  | declarationText
  | close
  | doctypeWord
  | open
  | selfClose
  | endOpen
  | equals
  | attributeName
  | attributeValue
  | entity
  | singleQuote
  | singleQuoted
  | doubleQuote
  | doubleQuoted
  | text
  | startName
  | scriptName
  | styleName
  | endName
  | strayName
  | impliedEnd
  | rawText
  | comment
deriving DecidableEq, Repr, Inhabited

/-- Kinds of phrases. -/
inductive Phrase where
  | document
  | doctype
  | element
  | scriptElement
  | styleElement
  | startTag
  | scriptStartTag
  | styleStartTag
  | selfClosingTag
  | endTag
  | strayEndTag
  | attribute
  | quotedValue
  | nodes
  | attributes
deriving DecidableEq, Repr, Inhabited

/-- What a node of the tree is. -/
inductive Symbol where
  | terminal (kind : Terminal)
  | phrase (kind : Phrase)
  /-- Tokens that are still being passed over. -/
  | skipped
  | error
deriving DecidableEq, Repr, Inhabited

/-- Every kind of token but the end of the text, in order. -/
def Terminal.all : List Terminal :=
  [.declarationOpen, .declarationText, .close, .doctypeWord, .open, .selfClose, .endOpen, .equals,
   .attributeName, .attributeValue, .entity, .singleQuote, .singleQuoted, .doubleQuote,
   .doubleQuoted, .text, .startName, .scriptName, .styleName, .endName, .strayName, .impliedEnd,
   .rawText, .comment]

/-- A place in the order of all symbols: tokens before phrases before errors. -/
def Symbol.rank : Symbol → Nat
  | .terminal kind => kind.ctorIdx
  | .phrase kind => 100 + kind.ctorIdx
  | .skipped => 200
  | .error => 201

/-- Whether a node of this kind is part of the tree that readers see. -/
def Symbol.isShown : Symbol → Bool
  | .terminal .finish | .terminal .declarationText | .terminal .impliedEnd => false
  | .terminal _ => true
  | .phrase .nodes | .phrase .attributes => false
  | .phrase _ => true
  | .skipped => false
  | .error => true

/-- Where a node stands: at the top of a document or inside an element. -/
inductive Level where
  | top
  | inside
deriving DecidableEq, Repr, Inhabited

/-- The tag an attribute belongs to: one of an element, or one before raw text. -/
inductive Owner where
  | element
  | raw
deriving DecidableEq, Repr, Inhabited

/-- Elements whose content is not markup. -/
inductive RawKind where
  | script
  | style
deriving DecidableEq, Repr, Inhabited

inductive Quote where
  | single
  | double
deriving DecidableEq, Repr, Inhabited

/-- What has been read of the phrase at hand. -/
inductive State where
  /-- The place in the grammar is lost. -/
  | error
  | start
  | accept
  | nodes
  | twoNodes (level : Level)
  | doctypeOpen (level : Level)
  | doctypeWord (level : Level)
  | doctypeText (level : Level)
  | doctypeDone (level : Level)
  | tagOpen (level : Level)
  | tagName (level : Level)
  | tagAttributes (level : Level)
  | rawName (kind : RawKind)
  | rawAttributes (kind : RawKind)
  | startTagDone (withAttributes : Bool)
  | rawStartDone (kind : RawKind) (withAttributes : Bool)
  | selfClosingDone (level : Level) (withAttributes : Bool)
  | twoAttributes (owner : Owner)
  | attributeName (owner : Owner)
  | attributeEquals (owner : Owner)
  | attributeValued (owner : Owner)
  | attributeQuoted (owner : Owner)
  | quoteOpen (owner : Owner) (quote : Quote)
  | quoteText (owner : Owner) (quote : Quote)
  | quoteDone (owner : Owner) (quote : Quote) (empty : Bool)
  | opened (level : Level)
  | openedNodes (level : Level)
  | closeAny (level : Level)
  | closeStray (level : Level)
  | closeRaw (level : Level)
  | closeNamed (level : Level)
  | closeDone (level : Level)
  | strayNamed (level : Level)
  | strayDone (level : Level)
  | elementClosed (level : Level) (withNodes implied : Bool)
  | selfClosed (level : Level)
  | rawOpened (kind : RawKind) (level : Level)
  | rawFilled (kind : RawKind) (level : Level)
  | rawClosed (kind : RawKind) (level : Level) (withText : Bool)
deriving DecidableEq, Repr, Inhabited

/-- What a token does in a state. -/
inductive Action where
  | shift (state : State)
  /-- A shift that would pair a sequence the other way round; it is never made. -/
  | pairShift (state : State)
  /-- Takes the token in without leaving the state. -/
  | stay
  | reduce (phrase : Phrase) (count : Nat)
  | accept
  | recover
deriving DecidableEq, Repr, Inhabited

def Quote.mark : Quote → Terminal
  | .single => .singleQuote
  | .double => .doubleQuote

def Quote.content : Quote → Terminal
  | .single => .singleQuoted
  | .double => .doubleQuoted

def RawKind.element : RawKind → Phrase
  | .script => .scriptElement
  | .style => .styleElement

def RawKind.startTag : RawKind → Phrase
  | .script => .scriptStartTag
  | .style => .styleStartTag

namespace Level

/-- The tokens that may follow a node. -/
def follows (level : Level) (token : Terminal) : Bool :=
  match token with
  | .declarationOpen | .open | .endOpen | .entity | .text => true
  | .finish => level == .top
  | .impliedEnd => level == .inside
  | _ => false

/-- The first token of a node; one that is a whole node leads to `whole`. -/
def nodeStart (level : Level) (whole : State) : Terminal → Option State
  | .declarationOpen => some (.doctypeOpen level)
  | .open => some (.tagOpen level)
  | .endOpen => some (.closeStray level)
  | .entity | .text => some whole
  | _ => none

/-- Where a finished part of the content leads; a whole node leads to `whole`. -/
def nodeGoto (level : Level) (whole : State) : Phrase → State
  | .doctype | .element | .scriptElement | .styleElement | .strayEndTag | .nodes => whole
  | .startTag => .opened level
  | .scriptStartTag => .rawOpened .script level
  | .styleStartTag => .rawOpened .style level
  | .selfClosingTag => .selfClosed level
  | _ => .error

end Level

namespace Owner

/-- The tokens that may follow an attribute. -/
def follows (owner : Owner) (token : Terminal) : Bool :=
  match token with
  | .attributeName | .close => true
  | .selfClose => owner == .element
  | _ => false

end Owner

private def shiftTo : Option State → List Action
  | some state => [.shift state]
  | none => []

private def reduceIf (holds : Bool) (phrase : Phrase) (count : Nat) : List Action :=
  if holds then [.reduce phrase count] else []

private def countWith (base : Nat) (more : Bool) : Nat :=
  if more then base + 1 else base

namespace State

/-- What a token other than a comment does. -/
def ownActions : State → Terminal → List Action
  | .error, token =>
    match token with
    | .declarationText | .attributeName | .attributeValue | .singleQuoted | .doubleQuoted
    | .text => []
    | _ => [.recover]
  | .start, .finish => [.reduce .document 0]
  | .start, token => shiftTo (Level.top.nodeStart .nodes token)
  | .accept, .finish => [.accept]
  | .accept, _ => []
  | .nodes, .finish => [.reduce .document 1]
  | .nodes, token => shiftTo (Level.top.nodeStart (.twoNodes .top) token)
  | .twoNodes level, token =>
    reduceIf (level.follows token) .nodes 2 ++
      match level.nodeStart (.twoNodes level) token with
      | some state => [.pairShift state]
      | none => []
  | .doctypeOpen level, .doctypeWord => [.shift (.doctypeWord level)]
  | .doctypeWord level, .declarationText => [.shift (.doctypeText level)]
  | .doctypeText level, .close => [.shift (.doctypeDone level)]
  | .doctypeDone level, token => reduceIf (level.follows token) .doctype 4
  | .tagOpen level, .startName => [.shift (.tagName level)]
  | .tagOpen _, .scriptName => [.shift (.rawName .script)]
  | .tagOpen _, .styleName => [.shift (.rawName .style)]
  | .tagName _, .attributeName => [.shift (.attributeName .element)]
  | .tagName _, .close => [.shift (.startTagDone false)]
  | .tagName level, .selfClose => [.shift (.selfClosingDone level false)]
  | .tagAttributes _, .attributeName => [.shift (.attributeName .element)]
  | .tagAttributes _, .close => [.shift (.startTagDone true)]
  | .tagAttributes level, .selfClose => [.shift (.selfClosingDone level true)]
  | .rawName _, .attributeName => [.shift (.attributeName .raw)]
  | .rawName kind, .close => [.shift (.rawStartDone kind false)]
  | .rawAttributes _, .attributeName => [.shift (.attributeName .raw)]
  | .rawAttributes kind, .close => [.shift (.rawStartDone kind true)]
  | .startTagDone more, token => reduceIf (Level.inside.follows token) .startTag (countWith 3 more)
  | .rawStartDone kind more, token =>
    reduceIf (token == .rawText || token == .endOpen) kind.startTag (countWith 3 more)
  | .selfClosingDone level more, token =>
    reduceIf (level.follows token) .selfClosingTag (countWith 3 more)
  | .twoAttributes owner, token =>
    reduceIf (owner.follows token) .attributes 2 ++
      if token == .attributeName then [.pairShift (.attributeName owner)] else []
  | .attributeName owner, .equals => [.shift (.attributeEquals owner)]
  | .attributeName owner, token => reduceIf (owner.follows token) .attribute 1
  | .attributeEquals owner, .attributeValue => [.shift (.attributeValued owner)]
  | .attributeEquals owner, .singleQuote => [.shift (.quoteOpen owner .single)]
  | .attributeEquals owner, .doubleQuote => [.shift (.quoteOpen owner .double)]
  | .attributeValued owner, token => reduceIf (owner.follows token) .attribute 3
  | .attributeQuoted owner, token => reduceIf (owner.follows token) .attribute 3
  | .quoteOpen owner quote, token =>
    if token == quote.content then [.shift (.quoteText owner quote)]
    else if token == quote.mark then [.shift (.quoteDone owner quote true)]
    else []
  | .quoteText owner quote, token =>
    if token == quote.mark then [.shift (.quoteDone owner quote false)] else []
  | .quoteDone owner _ empty, token =>
    reduceIf (owner.follows token) .quotedValue (countWith 2 (!empty))
  | .opened level, .endOpen => [.shift (.closeAny level)]
  | .opened level, .impliedEnd => [.shift (.elementClosed level false true)]
  | .opened level, token => shiftTo (Level.inside.nodeStart (.openedNodes level) token)
  | .openedNodes level, .endOpen => [.shift (.closeAny level)]
  | .openedNodes level, .impliedEnd => [.shift (.elementClosed level true true)]
  | .openedNodes _, token => shiftTo (Level.inside.nodeStart (.twoNodes .inside) token)
  | .closeAny level, .endName => [.shift (.closeNamed level)]
  | .closeAny _, .strayName => [.shift (.strayNamed .inside)]
  | .closeStray level, .strayName => [.shift (.strayNamed level)]
  | .closeRaw level, .endName => [.shift (.closeNamed level)]
  | .closeNamed level, .close => [.shift (.closeDone level)]
  | .closeDone level, token => reduceIf (level.follows token) .endTag 3
  | .strayNamed level, .close => [.shift (.strayDone level)]
  | .strayDone level, token => reduceIf (level.follows token) .strayEndTag 3
  | .elementClosed level more _, token =>
    reduceIf (level.follows token) .element (countWith 2 more)
  | .selfClosed level, token => reduceIf (level.follows token) .element 1
  | .rawOpened kind level, .rawText => [.shift (.rawFilled kind level)]
  | .rawOpened _ level, .endOpen => [.shift (.closeRaw level)]
  | .rawFilled _ level, .endOpen => [.shift (.closeRaw level)]
  | .rawClosed kind level more, token =>
    reduceIf (level.follows token) kind.element (countWith 2 more)
  | _, _ => []

/-- What a token does. -/
def actions (state : State) : Terminal → List Action
  | .comment => [.stay]
  | token => state.ownActions token

/-- Where a finished phrase leads. -/
def goto : State → Phrase → State
  | .start, .document => .accept
  | .start, phrase => Level.top.nodeGoto .nodes phrase
  | .nodes, phrase => Level.top.nodeGoto (.twoNodes .top) phrase
  | .twoNodes level, phrase => level.nodeGoto (.twoNodes level) phrase
  | .opened level, .endTag => .elementClosed level false false
  | .opened level, phrase => Level.inside.nodeGoto (.openedNodes level) phrase
  | .openedNodes level, .endTag => .elementClosed level true false
  | .openedNodes _, phrase => Level.inside.nodeGoto (.twoNodes .inside) phrase
  | .tagName level, .attribute | .tagName level, .attributes => .tagAttributes level
  | .tagAttributes _, .attribute | .tagAttributes _, .attributes => .twoAttributes .element
  | .rawName kind, .attribute | .rawName kind, .attributes => .rawAttributes kind
  | .rawAttributes _, .attribute | .rawAttributes _, .attributes => .twoAttributes .raw
  | .twoAttributes owner, .attribute | .twoAttributes owner, .attributes => .twoAttributes owner
  | .attributeEquals owner, .quotedValue => .attributeQuoted owner
  | .rawOpened kind level, .endTag => .rawClosed kind level false
  | .rawFilled kind level, .endTag => .rawClosed kind level true
  | _, _ => .error

/-- The state after a symbol. -/
def after (state : State) : Symbol → State
  | .terminal token =>
    match (state.actions token).getLast? with
    | some (.shift next) | some (.pairShift next) => next
    | some .stay => state
    | _ => .error
  | .phrase phrase => state.goto phrase
  | .skipped | .error => .error

/-- A symbol that can be taken in here does something. -/
def accepts (state : State) : Symbol → Bool
  | .terminal token => !(state.actions token).isEmpty
  | _ => false

/-- The first thing a symbol does here is to end a phrase. -/
def reducesOn (state : State) : Symbol → Bool
  | .terminal token =>
    match state.actions token with
    | .reduce _ _ :: _ => true
    | _ => false
  | _ => false

end State

/-- The kinds of tokens that are looked for together. -/
inductive Mode where
  /-- Marks, entities and the word "doctype": also what is looked for when the place is lost. -/
  | marks
  | content
  | attributes
  | value
  | quoted (quote : Quote)
  | declaration
deriving DecidableEq, Repr

/-- What is looked for in a state. -/
def State.mode : State → Mode
  | .start | .nodes | .twoNodes _ | .opened _ | .openedNodes _ | .doctypeDone _ | .startTagDone _
  | .selfClosingDone _ _ | .closeDone _ | .strayDone _ | .elementClosed _ _ _ | .selfClosed _
  | .rawClosed _ _ _ => .content
  | .tagName _ | .tagAttributes _ | .rawName _ | .rawAttributes _ | .twoAttributes _
  | .attributeName _ | .attributeValued _ | .attributeQuoted _ | .quoteDone _ _ _ => .attributes
  | .attributeEquals _ => .value
  | .quoteOpen _ quote => .quoted quote
  | .doctypeWord _ => .declaration
  | _ => .marks

end MessageKeys.Markup
