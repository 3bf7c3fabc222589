import PriceRelay.Yaml.Scalar
import PriceRelay.Yaml.Tag
/-!
# From a YAML text to its tokens

Tokens are read one after another. Two things are known only later: how deep a block is indented,
and that something was a key, which shows at the colon behind it. So the indentations of the open
blocks are kept, and for each level of brackets the place of the last thing that may be a key; when
the colon comes, the mark for the key is put in there.

* `Lexer` is where the reading stands,
* `Lexer.step` reads the next token,
* `Token.scan` reads all tokens of a text.
-/

namespace PriceRelay.Yaml

/-- Something that may turn out to be a key. -/
structure KeyCandidate where
  /-- whether it still may -/
  possible : Bool := false
  /-- whether it must, by its indentation -/
  required : Bool := false
  /-- how many tokens stand before it -/
  token : Nat := 0
  /-- how many characters stand before it -/
  index : Nat := 0
  /-- its line -/
  line : Nat := 0
  /-- its column -/
  column : Nat := 0

/-- An indentation that was entered. -/
structure Indentation where
  /-- the indentation outside of it -/
  outer : Int
  /-- whether a block was begun; otherwise it only says how deep a value has to stand -/
  isBlock : Bool

/-- Where the reading of tokens stands. -/
structure Lexer where
  /-- the place in the text -/
  cursor : Cursor
  /-- the tokens read -/
  tokens : Array Token := #[]
  /-- the column of the last token, if it is an anchor or a tag -/
  property : Option Nat := none
  /-- how many brackets are open -/
  depth : Nat := 0
  /-- the indentation of the innermost block -/
  indent : Int := -1
  /-- the indentations entered, the innermost first -/
  indents : List Indentation := []
  /-- whether what comes next may be a key -/
  mayBeKey : Bool := true
  /-- the last thing that may be a key -/
  candidate : KeyCandidate := {}
  /-- the same for the levels of brackets outside -/
  outerCandidates : List KeyCandidate := []
  /-- where a colon may stand without a blank behind it -/
  tightColon : Nat := 0
  /-- whether braces, or a question mark, have announced pairs -/
  announced : Bool := false
  /-- for each open bracket list, whether a pair without braces has begun in it -/
  pairs : List Bool := []
  /-- whether the text is at its end -/
  finished : Bool := false

namespace Lexer

/-- The character at the place. -/
def peek (l : Lexer) : Char := l.cursor.peek

/-- Whether the place is within brackets. -/
def inFlow (l : Lexer) : Bool := l.depth != 0

/-- Add a token. -/
def emit (t : Token) (l : Lexer) : Lexer := { l with tokens := l.tokens.push t, property := none }

/-- Put a token in before others. -/
def emitAt (i : Nat) (t : Token) (l : Lexer) : Lexer :=
  { l with tokens := l.tokens.extract 0 i ++ #[t] ++ l.tokens.extract i l.tokens.size }

/-- Whether the innermost indentation is that of a block. -/
def inBlock (l : Lexer) : Bool := (l.indents.head?.map Indentation.isBlock).getD false

/-! ### Keys -/

/-- What comes now may be a key, if keys may come. -/
def offerKey (l : Lexer) : Lexer :=
  if l.mayBeKey then
    let c := l.cursor
    { l with candidate := {
      possible := true
      required := !l.inFlow && l.indent = c.column && l.inBlock
      token := l.tokens.size
      index := c.index
      line := c.line
      column := c.column } }
  else l

/-- What may have been a key is none; that is a fault if it had to be one. -/
def dropKey (l : Lexer) : Option Lexer :=
  if l.candidate.possible && l.candidate.required then none
  else some { l with candidate := { l.candidate with possible := false } }

/-- A key outside of brackets stands on one line with its colon, and not far before it. -/
def expireKey (l : Lexer) : Option Lexer :=
  let k := l.candidate
  if k.possible && !l.inFlow && (k.line < l.cursor.line || k.index + 1024 < l.cursor.index) then
    l.dropKey
  else some l

/-! ### Indentation -/

/-- The indentation left once everything deeper than a column is closed, and the tokens with an end
for each block among it. -/
def closeTo (column : Int) : Int → List Indentation → Array Token →
    Int × List Indentation × Array Token
  | indent, [], tokens => (indent, [], tokens)
  | indent, i :: is, tokens =>
    if column < indent then
      closeTo column i.outer is (if i.isBlock then tokens.push .blockEnd else tokens)
    else (indent, i :: is, tokens)

/-- Close what is indented deeper than a column. -/
def dedent (column : Int) (l : Lexer) : Lexer :=
  if l.inFlow then l
  else
    let (indent, indents, tokens) := closeTo column l.indent l.indents l.tokens
    { l with
      indent := indent
      indents := indents
      property := if tokens.size = l.tokens.size then l.property else none
      tokens := tokens }

/-- Leave the innermost indentation if it is not that of a block. -/
def leaveValue (l : Lexer) : Lexer :=
  match l.indents with
  | i :: is => if i.isBlock then l else { l with indent := i.outer, indents := is }
  | [] => l

/-- The indentation left once those that are not of blocks are left. -/
def leaveAll (indent : Int) : List Indentation → Int × List Indentation
  | [] => (indent, [])
  | i :: is => if i.isBlock then (indent, i :: is) else leaveAll i.outer is

/-- Leave all indentations down to the innermost block. -/
def leaveValues (l : Lexer) : Lexer :=
  let (indent, indents) := leaveAll l.indent l.indents
  { l with indent := indent, indents := indents }

/-- Enter a block at a column, unless it is entered already; the token that begins it is put before
the token `i`. -/
def enterBlock (column : Nat) (i : Nat) (t : Token) (l : Lexer) : Lexer :=
  if l.inFlow then l
  else
    let l := if l.indent ≤ column then l.leaveValue else l
    if l.indent < column then
      let l := if i = l.tokens.size then l.emit t else l.emitAt i t
      { l with indents := ⟨l.indent, true⟩ :: l.indents, indent := column }
    else l

/-- A value within a block has to stand deeper than the block. -/
def enterValue (l : Lexer) : Lexer :=
  if !l.inFlow && l.inBlock then
    { l with indents := ⟨l.indent, false⟩ :: l.indents, indent := l.indent + 1 }
  else l

/-! ### Blanks and comments -/

/-- Go to a place on the same line. -/
def goTo (l : Lexer) (c : Cursor) : Lexer := { l with cursor := c }

/-- Pass spaces, tabs and a comment. -/
def passBlanks (l : Lexer) : Option Lexer := (l.cursor.passBlanks true).map fun p => l.goTo p.cursor

/-- Pass a line break; outside of brackets a key may follow. -/
def passBreak (l : Lexer) : Lexer :=
  { l with cursor := l.cursor.passBreak, mayBeKey := l.mayBeKey || !l.inFlow }

/-- Whether a tab at this place would stand for indentation. -/
def tabIndents (l : Lexer) : Bool :=
  !l.indents.isEmpty && l.cursor.fresh && decide ((l.cursor.column : Int) < l.indent)

/-- Pass everything before the next token. -/
def passSpaceFor : Nat → Lexer → Option Lexer
  | 0, l => some l
  | fuel + 1, l =>
    if l.peek == '\t' && l.tabIndents then
      l.passBlanks.bind fun l => if isLineEnd l.peek then passSpaceFor fuel l else none
    else if isBlank l.peek then passSpaceFor fuel (l.goTo (l.cursor.pass 1))
    else if isBreak l.peek then passSpaceFor fuel l.passBreak
    else if l.peek == '#' then passSpaceFor fuel (l.goTo l.cursor.toLineEnd)
    else some l

/-- Pass everything before the next token. -/
def passSpace (l : Lexer) : Option Lexer := l.passSpaceFor (l.cursor.rest.length + 1)

/-- Pass what may stand behind a question mark; gives whether anything did. -/
def passKeySpaceFor : Nat → Bool → Lexer → Bool × Lexer
  | 0, any, l => (any, l)
  | fuel + 1, any, l =>
    if l.peek == ' ' then passKeySpaceFor fuel true (l.goTo (l.cursor.pass 1))
    else if isBreak l.peek then passKeySpaceFor fuel true l.passBreak
    else if l.peek == '#' then passKeySpaceFor fuel any (l.goTo l.cursor.toLineEnd)
    else (any, l)

/-! ### Tokens -/

/-- The end of the text. -/
def finish (l : Lexer) : Option Lexer :=
  if (l.candidate :: l.outerCandidates).any fun k => k.possible && k.required then none
  else some { l.dedent (-1) with mayBeKey := false, finished := true }

/-- A mark that ends all blocks, such as that of a document. -/
def closeAll (l : Lexer) : Option Lexer :=
  (l.dedent (-1)).dropKey.map fun l => { l with mayBeKey := false }

/-- A directive. -/
def directive (l : Lexer) : Option Lexer := do
  let l ← l.closeAll
  let (declares, c) ← Tag.directive l.cursor
  some ((l.goTo c).emit (.directive declares))

/-- The mark of a document. -/
def documentMark (t : Token) (l : Lexer) : Option Lexer :=
  l.closeAll.map fun l => (l.goTo (l.cursor.take 3)).emit t

/-- Three points, behind which nothing may stand. -/
def documentEnd (l : Lexer) : Option Lexer := do
  let l ← l.documentMark .documentEnd
  let l ← l.passBlanks
  if isLineEnd l.peek then some l else none

/-- An opening bracket or brace. More than 255 cannot be open. -/
def openFlow (isList : Bool) (l : Lexer) : Option Lexer := do
  let l := l.offerKey.enterValue
  if 255 ≤ l.depth then none
  let l := { l with
    depth := l.depth + 1
    outerCandidates := l.candidate :: l.outerCandidates
    candidate := {}
    mayBeKey := true
    announced := l.announced || !isList
    pairs := if isList then false :: l.pairs else l.pairs }
  let l ← (l.goTo (l.cursor.take 1)).passBlanks
  some (l.emit (if isList then .flowList else .flowTable))

/-- The end of a pair without braces, if one has begun. -/
def endPair (l : Lexer) : Lexer :=
  match l.pairs with
  | true :: pairs => { l with announced := false, pairs := false :: pairs }.emit .flowTableEnd
  | _ => l

/-- Leave a level of brackets. -/
def leaveFlow (l : Lexer) : Lexer :=
  match l.depth, l.outerCandidates with
  | n + 1, k :: ks => { l with depth := n, candidate := k, outerCandidates := ks }
  | _, _ => l

/-- A closing bracket or brace. -/
def closeFlow (isList : Bool) (l : Lexer) : Option Lexer := do
  let l ← l.dropKey
  let l := { l.leaveFlow with mayBeKey := false }
  let l := if isList then { l.endPair with pairs := l.pairs.tail } else l
  let l ← (l.goTo (l.cursor.take 1)).passBlanks
  let l := if l.inFlow then { l with tightColon := l.cursor.index } else l
  some (l.emit (if isList then .flowListEnd else .flowTableEnd))

/-- A comma. -/
def comma (l : Lexer) : Option Lexer := do
  let l ← l.dropKey
  let l := { l with mayBeKey := true }.endPair
  let l ← (l.goTo (l.cursor.take 1)).passBlanks
  some (l.emit .comma)

/-- A dash before an item. -/
def item (l : Lexer) : Option Lexer := do
  if l.inFlow || !l.mayBeKey then none
  if l.property = some 0 && l.cursor.column = 0 && -1 < l.indent then none
  let column := l.cursor.column
  let l := l.goTo (l.cursor.take 1)
  let l := l.enterBlock column l.tokens.size .blockList
  let passed ← l.cursor.passBlanks true
  let l := l.goTo passed.cursor
  if passed.tab && l.peek == '-' && isEdge (l.cursor.peekAt 1) then none
  let l := if isBreak l.peek || isFlowMark l.peek then l.enterValue else l
  let l ← l.dropKey
  some ({ l with mayBeKey := true }.emit .item)

/-- A question mark before a key. -/
def key (l : Lexer) : Option Lexer := do
  if !l.inFlow && !l.mayBeKey then none
  let l := if l.inFlow then { l with announced := true }
    else l.enterBlock l.cursor.column l.tokens.size .blockTable
  let l ← l.dropKey
  let l := { l with mayBeKey := !l.inFlow }
  let (any, l) := (l.goTo (l.cursor.take 1)).passKeySpaceFor (l.cursor.rest.length + 1) false
  if !any || l.peek == '\t' then none
  some (l.emit .key)

/-- Whether a tab behind a colon is followed by something that a blank would have to precede. -/
def tabMisplaced (c : Cursor) : Option (Bool × Cursor) :=
  if c.peek == '\t' then
    (c.passBlanks true).map fun p =>
      (!p.space && (p.cursor.peek == '-' || isNameChar p.cursor.peek), p.cursor)
  else some (false, c)

/-- A colon before a value. Within brackets a pair may begin without braces. -/
def value (l : Lexer) : Option Lexer := do
  let start := l.cursor
  let isPair := !l.pairs.isEmpty && !l.announced
  let l := if isPair then { l with pairs := true :: l.pairs.tail } else l
  let (misplaced, c) ← tabMisplaced (l.cursor.take 1)
  if misplaced then none
  let l := l.goTo c
  let k := l.candidate
  if k.possible then
    if isPair && k.line < start.line then none
    let l := l.emitAt k.token .key
    let l := if isPair then l.emitAt k.token .flowTable else l
    let l := (l.enterBlock k.column k.token .blockTable).enterValue
    some ({ l with candidate := { k with possible := false }, mayBeKey := false }.emit .value)
  else
    let l := if isPair then l.emit .flowTable else l
    if !l.inFlow && !l.mayBeKey then none
    let l := (l.enterBlock start.column l.tokens.size .blockTable).enterValue
    some ({ l with mayBeKey := !l.inFlow }.emit .value)

/-- An anchor or a reference. -/
def anchor (isReference : Bool) (l : Lexer) : Option Lexer :=
  let column := l.cursor.column
  let l := { l.offerKey with mayBeKey := false }
  (Tag.anchor l.cursor).map fun (name, c) =>
    if isReference then (l.goTo c).emit (.reference name)
    else { (l.goTo c).emit (.anchor name) with property := some column }

/-- A tag. -/
def tag (l : Lexer) : Option Lexer :=
  let column := l.cursor.column
  let l := { l.offerKey with mayBeKey := false }
  (Tag.read l.inFlow l.cursor).map fun ((handle, suffix), c) =>
    { (l.goTo c).emit (.tag handle suffix) with property := some column }

/-- A block scalar. -/
def blockScalar (folds : Bool) (l : Lexer) : Option Lexer :=
  let l := { l.offerKey with mayBeKey := true }.leaveValues
  (Scalar.block folds l.indent l.cursor).map fun (text, c) =>
    (l.goTo c).emit (.scalar false text)

/-- A scalar between quotes. A colon may follow at once. -/
def quotedScalar (quote : Char) (l : Lexer) : Option Lexer := do
  let l := { l.offerKey with mayBeKey := false }
  let (text, c) ← Scalar.quoted quote l.inFlow l.indent l.cursor
  let l ← (l.goTo c).passSpace
  some ({ l with tightColon := l.cursor.index }.emit (.scalar false text))

/-- A scalar without quotes. If it ended with a line, a key may follow. -/
def plainScalar (l : Lexer) : Option Lexer :=
  let l := { l.offerKey with mayBeKey := false }.leaveValues
  if l.inFlow && (l.cursor.column : Int) < l.indent + 1 then none
  else (Scalar.plain l.inFlow (l.indent + 1) l.cursor).map fun (text, c) =>
    { l.goTo c with mayBeKey := c.fresh }.emit (.scalar true text)

/-- Whether a colon here stands before a value. -/
def atValue (l : Lexer) (next : Char) : Bool :=
  isEdge next || (l.inFlow && (isFlowMark next || l.cursor.index == l.tightColon))

/-- The token that begins with a character. -/
def token (c : Char) (l : Lexer) : Option Lexer :=
  let next := l.cursor.peekAt 1
  match c with
  | '[' => l.openFlow true
  | '\x7b' => l.openFlow false
  | ']' => l.closeFlow true
  | '\x7d' => l.closeFlow false
  | ',' => l.comma
  | '-' => if isEdge next then l.item else l.plainScalar
  | '?' => if isEdge next then l.key else l.plainScalar
  | ':' => if l.atValue next then l.value else l.plainScalar
  | '*' => l.anchor true
  | '&' => l.anchor false
  | '!' => l.tag
  | '|' => if l.inFlow then l.plainScalar else l.blockScalar false
  | '>' => if l.inFlow then l.plainScalar else l.blockScalar true
  | '\'' => l.quotedScalar '\''
  | '"' => l.quotedScalar '"'
  | '%' => none
  | '@' => none
  | '\x60' => none
  | _ => l.plainScalar

/-- Read the next token. -/
def step (l : Lexer) : Option Lexer := do
  let l ← l.passSpace
  let l ← l.expireKey
  let l := l.dedent l.cursor.column
  if isEnd l.peek then l.finish
  else if l.cursor.column = 0 && l.peek == '%' then l.directive
  else if l.cursor.atDocumentMark then
    if l.peek == '-' then l.documentMark .documentStart else l.documentEnd
  else if (l.cursor.column : Int) < l.indent then none
  else l.token l.peek

/-- Read so many tokens at most. -/
def run : Nat → Lexer → Option Lexer
  | 0, l => some l
  | fuel + 1, l => if l.finished then some l else l.step.bind (run fuel)

end Lexer

/-- The tokens of a text, up to its end or a character NUL. Every step but the last takes at least
one character. -/
def Token.scan (text : String) : Option (List Token) :=
  let cs := text.toList.takeWhile fun c => !isEnd c
  (Lexer.run (cs.length + 2) { cursor := { rest := cs } }).map fun l => l.tokens.toList

end PriceRelay.Yaml
