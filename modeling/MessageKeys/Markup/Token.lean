import MessageKeys.Markup.Tree
/-!
# Markup.Token — the next token of a text

What the next token is depends on the `State` that asks for it. Tag names, implied ends, raw text and
comments are found with the open tags at hand (`OpenTags.find`); all other tokens are found by their
characters (`Mode.find`). Where neither finds one, the characters up to the next token of any kind
are passed over and make up one error (`Token.next`).
-/
namespace MessageKeys.Markup

/-- What a search for a token comes to. -/
inductive Search where
  | found (kind : Terminal) (start stop : Place)
  /-- No token starts at `start`; the characters before `stuck` could have begun one. -/
  | missed (start stuck : Place)

/-- A token that was found with the open tags at hand, and the open tags after it. -/
structure TagToken where
  kind : Terminal
  start : Place
  stop : Place
  tags : OpenTags

private def isDigit (c : Char) : Bool := '0' ≤ c && c ≤ '9'

private def isLetter (c : Char) : Bool := ('a' ≤ c && c ≤ 'z') || ('A' ≤ c && c ≤ 'Z')

private def isHexDigit (c : Char) : Bool :=
  isDigit c || ('a' ≤ c && c ≤ 'f') || ('A' ≤ c && c ≤ 'F')

/-- NUL belongs to no token but those of raw text and comments. -/
private def isNul (c : Char) : Bool := c == '\x00'

/-- Characters of tag names. -/
def isTagNamePart (c : Char) : Bool := isDigit c || isLetter c || c == '-' || c == ':'

def isAttributeNamePart (c : Char) : Bool :=
  !(isBlank c || isNul c || ['<', '>', '"', '\'', '/', '='].contains c)

def isAttributeValuePart (c : Char) : Bool :=
  !(isBlank c || isNul c || ['<', '>', '"', '\'', '='].contains c)

def isTextPart (c : Char) : Bool := !(isNul c || ['<', '>', '&'].contains c)

def isQuotedPart : Quote → Char → Bool
  | .single, c => !(isNul c || c == '\'')
  | .double, c => !(isNul c || c == '"')

def isDeclarationPart (c : Char) : Bool := !(isNul c || c == '>')

namespace Place

/-- The end of the entity whose `&` stands here, or where it stops being one. -/
def entityEnd (place : Place) : Except Place Place :=
  let digits (p : Char → Bool) (most : Nat) (first : Place) : Except Place Place :=
    let stop := first.skipUpTo p most
    if stop.offset == first.offset then .error first else .ok (stop.skipUpTo (· == ';') 1)
  match place.next.rest with
  | '#' :: 'x' :: _ | '#' :: 'X' :: _ => digits isHexDigit 6 (place.skip 3)
  | '#' :: _ => digits isDigit 5 (place.skip 2)
  | _ => digits isLetter 30 place.next

/-- The end of a word that stands here in any case, or where another word stands instead. -/
def wordEnd : List Char → Place → Except Place Place
  | [], place => .ok place
  | expected :: word, place =>
    match place.rest with
    | c :: _ => if c.toLower == expected then wordEnd word place.next else .error place
    | [] => .error place

/-- The end of a text node that starts here: it does not end in a blank. -/
def textEnd (place : Place) : Place :=
  (go place.rest place place)
where
  go : List Char → Place → Place → Place
    | c :: rest, here, stop =>
      if isTextPart c then go rest here.next (if isBlank c then stop else here.next) else stop
    | [], _, stop => stop

end Place

def Search.ofEnd (kind : Terminal) (start : Place) : Except Place Place → Search
  | .ok stop => .found kind start stop
  | .error stuck => .missed start stuck

/-- The token at `start` in any mode that expects marks that begin with `<`. -/
def findAngle (start : Place) : Search :=
  match start.rest with
  | '<' :: '!' :: _ => .found .declarationOpen start (start.skip 2)
  | '<' :: '/' :: _ => .found .endOpen start (start.skip 2)
  | '<' :: _ => .found .open start start.next
  | _ => .missed start start

def findRun (kind : Terminal) (p : Char → Bool) (start : Place) : Search :=
  let stop := start.skipWhile p
  if stop.offset == start.offset then .missed start start else .found kind start stop

namespace Mode

def findMark (start : Place) : Search :=
  match start.rest with
  | [] => .found .finish start start
  | '<' :: _ => findAngle start
  | '>' :: _ => .found .close start start.next
  | '=' :: _ => .found .equals start start.next
  | '\'' :: _ => .found .singleQuote start start.next
  | '"' :: _ => .found .doubleQuote start start.next
  | '/' :: '>' :: _ => .found .selfClose start (start.skip 2)
  | '/' :: _ => .missed start start.next
  | '&' :: _ => Search.ofEnd .entity start start.entityEnd
  | _ => Search.ofEnd .doctypeWord start (start.wordEnd "doctype".toList)

def findContent (start : Place) : Search :=
  match start.rest with
  | [] => .found .finish start start
  | '<' :: _ => findAngle start
  | '&' :: _ => Search.ofEnd .entity start start.entityEnd
  | c :: _ => if isTextPart c then .found .text start start.textEnd else .missed start start

def findAttribute (start : Place) : Search :=
  match start.rest with
  | '>' :: _ => .found .close start start.next
  | '=' :: _ => .found .equals start start.next
  | '/' :: '>' :: _ => .found .selfClose start (start.skip 2)
  | _ => findRun .attributeName isAttributeNamePart start

def findValue (start : Place) : Search :=
  match start.rest with
  | '\'' :: _ => .found .singleQuote start start.next
  | '"' :: _ => .found .doubleQuote start start.next
  | _ => findRun .attributeValue isAttributeValuePart start

def findQuoted (quote : Quote) (start : Place) : Search :=
  match findRun quote.content (isQuotedPart quote) start, start.rest with
  | .found kind start stop, _ => .found kind start stop
  | .missed _ _, [] => .missed start start
  | .missed _ _, c :: _ => if isNul c then .missed start start else .found quote.mark start start.next

/-- The token at the front of a text, by its characters. Blanks before it are skipped unless the
token may begin with them. -/
def find (mode : Mode) (place : Place) : Search :=
  let place := place.skipByteOrderMark
  match mode with
  | .marks => findMark place.skipBlanks
  | .content => findContent place.skipBlanks
  | .attributes => findAttribute place.skipBlanks
  | .value => findValue place.skipBlanks
  | .quoted quote => findQuoted quote place
  | .declaration => findRun .declarationText isDeclarationPart place

end Mode

namespace OpenTags

/-- Raw text up to the end tag `mark`, which is matched in any case. A character that breaks off a
beginning of `mark` belongs to the text and starts no new one. -/
def rawEnd (mark : List Char) : List Char → Place → List Char → Place → Place
  | c :: rest, here, expected :: more, stop =>
    if isNul c then stop
    else if c.toUpper == expected then
      match more with
      | [] => stop
      | _ => rawEnd mark rest here.next more stop
    else rawEnd mark rest here.next mark here.next
  | _, _, _, stop => stop

def findRawText (tags : OpenTags) (place : Place) : Option TagToken :=
  match tags with
  | [] => none
  | tag :: _ =>
    let mark := if tag == .known "SCRIPT" then "</SCRIPT".toList else "</STYLE".toList
    some ⟨.rawText, place, rawEnd mark place.rest place mark place, tags⟩

/-- The end of the comment whose content starts here, after so many dashes. -/
def commentEnd : List Char → Place → Nat → Option Place
  | c :: rest, here, dashes =>
    if isNul c then none
    else if c == '-' then commentEnd rest here.next (dashes + 1)
    else if c == '>' && 2 ≤ dashes then some here.next
    else commentEnd rest here.next 0
  | [], _, _ => none

/-- A tag name at this place, in capitals. -/
private def nameAt (place : Place) : String :=
  String.ofList ((place.rest.takeWhile isTagNamePart).map Char.toUpper)

/-- Whether the innermost element ends here although no end tag says so: it has no content, the end
tag that stands here belongs to an outer element, or it may not hold what stands here. `place` is
after the `<`, or at the end of the text. -/
def impliesEnd (tags : OpenTags) (place : Place) : Bool :=
  match place.rest with
  | '/' :: _ =>
    let name := nameAt place.next
    if name.isEmpty && !place.next.rest.isEmpty then false
    else
      let tag := Tag.ofName name
      -- An end tag that no open element has is a stray one and ends nothing.
      tags.head? != some tag && tags.holdsKind tag
  | rest =>
    match tags with
    | [] => false
    | innermost :: _ =>
      if innermost.isVoid then true
      else
        let name := nameAt place
        let atEnd := (place.skipWhile isTagNamePart).rest.isEmpty
        if name.isEmpty && !rest.isEmpty then false
        else
          !innermost.mayHold (Tag.ofName name) ||
            (innermost.isOneOf ["HTML", "HEAD", "BODY"] && atEnd)

def findImpliedEnd (tags : OpenTags) (place inner : Place) : Option TagToken :=
  if tags.impliesEnd inner then some ⟨.impliedEnd, place, place, tags.tail⟩ else none

def findStartName (tags : OpenTags) (place : Place) : Option TagToken :=
  let name := nameAt place
  if name.isEmpty then none
  else
    let kind := match name with
      | "SCRIPT" => .scriptName
      | "STYLE" => .styleName
      | _ => .startName
    some ⟨kind, place, place.skipWhile isTagNamePart, Tag.ofName name :: tags⟩

def findEndName (tags : OpenTags) (place : Place) : Option TagToken :=
  let name := nameAt place
  let stop := place.skipWhile isTagNamePart
  if name.isEmpty then none
  else if tags.head? == some (Tag.ofName name) then some ⟨.endName, place, stop, tags.tail⟩
  else some ⟨.strayName, place, stop, tags⟩

/-- The token at the front of a text that has to do with open tags, among those `expected`. -/
def find (tags : OpenTags) (expected : Terminal → Bool) (place : Place) : Option TagToken :=
  let place := place.skipByteOrderMark
  if expected .rawText && !expected .startName && !expected .endName then
    findRawText tags place
  else
    let place := place.skipBlanks
    match place.rest with
    | '<' :: '!' :: rest =>
      match rest with
      | '-' :: '-' :: rest =>
        (commentEnd rest (place.skip 4) 0).map fun stop => ⟨.comment, place, stop, tags⟩
      | _ => none
    | '<' :: _ => if expected .impliedEnd then findImpliedEnd tags place place.next else none
    | [] => if expected .impliedEnd then findImpliedEnd tags place place else none
    | '/' :: rest =>
      match rest, tags with
      | '>' :: _, [] =>
        if expected .selfClose then some ⟨.startName, place, place.skip 2, []⟩ else none
      | '>' :: _, _ :: outer =>
        if expected .selfClose then some ⟨.selfClose, place, place.skip 2, outer⟩ else none
      | _, _ => none
    | c :: _ =>
      if isNul c then if expected .impliedEnd then findImpliedEnd tags place place else none
      else if expected .rawText then none
      else if expected .startName then findStartName tags place
      else if expected .endName then findEndName tags place
      else none

end OpenTags

/-- What a search for the next token starts from. -/
structure Lookout where
  state : State
  /-- The open tags after the last token that had to do with tags, if there was one. -/
  tags : Option OpenTags
  /-- Something has been read since the place was last lost. -/
  advanced : Bool
  place : Place

namespace Lookout

/-- A token found with the open tags at hand. An empty one that leaves the tags as they were is
passed by where it would lead nowhere. -/
def findTagToken (lookout : Lookout) (lost : Bool) (here : Place) : Option TagToken := do
  let state := if lost then .error else lookout.state
  let found ← OpenTags.find (lookout.tags.getD []) (fun kind => state.accepts (.terminal kind)) here
  let found := { found with tags := found.tags.remember }
  let idle := found.stop.offset ≤ here.offset && lookout.tags == some found.tags &&
    (lost || !lookout.advanced || lookout.state.after (.terminal found.kind) == lookout.state)
  if idle then none else some found

/-- Looks for a token from `here` on. While `lost`, tokens of any kind are looked for, and what is
passed over goes from `passed.1` to `passed.2`. `patience` bounds the number of attempts. -/
def search (lookout : Lookout) : Nat → Bool → Option (Place × Place) → Place → Tree
  | 0, _, _, here => Tree.leaf (.terminal .finish) lookout.place here here none
  | patience + 1, lost, passed, here =>
    let result (kind : Terminal) (start stop : Place) (tags : Option OpenTags) : Tree :=
      match passed with
      | some (first, past) => Tree.leaf .error lookout.place first past none
      | none => Tree.leaf (.terminal kind) lookout.place start stop tags
    match lookout.findTagToken lost here with
    | some found => result found.kind found.start found.stop (some found.tags)
    | none =>
      match (if lost then Mode.marks else lookout.state.mode).find here with
      | .found kind start stop => result kind start stop none
      | .missed start stuck =>
        if lost then
          let (first, past) := passed.getD (start, start)
          let past := if stuck.offset == past.offset then stuck.next else stuck
          search lookout patience true (some (first, past)) past
        else search lookout patience true none lookout.place

/-- The next token, or the error that stands before it. -/
def next (lookout : Lookout) : Tree :=
  lookout.search (2 * lookout.place.rest.length + 4) (lookout.state == .error) none lookout.place

end Lookout
end MessageKeys.Markup
