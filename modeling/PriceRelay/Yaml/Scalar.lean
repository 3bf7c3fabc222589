import PriceRelay.Text.Numeral
import PriceRelay.Yaml.Cursor
/-!
# Scalars of a YAML text

A scalar is written plainly, between quotes, or as a block of lines behind a bar or an angle. One
that goes over several lines has its breaks folded: a single one becomes a space, and of several the
first is dropped. In a block behind a bar they all stay.

* `Scalar.plain` reads a scalar without quotes,
* `Scalar.quoted` reads one between quotes,
* `Scalar.block` reads a block.
-/

namespace PriceRelay.Yaml.Scalar

/-- What was read of a scalar. -/
structure Draft where
  /-- what has been read for good, the last character first -/
  text : List Char := []
  /-- blanks that count only if more follows on the line, the last one first -/
  blanks : List Char := []
  /-- whether a line break was passed -/
  broken : Bool := false
  /-- how many more breaks followed it -/
  emptyLines : Nat := 0

namespace Draft

/-- Add characters. -/
def add (d : Draft) (cs : List Char) : Draft := { d with text := cs.reverse ++ d.text }

/-- What a fold becomes. -/
def fold (d : Draft) : List Char :=
  if d.broken && d.emptyLines = 0 then [' '] else List.replicate d.emptyLines '\n'

/-- Take in what has been passed since the last character, at the beginning of a line or within
one. -/
def join (atLineStart : Bool) (d : Draft) : Draft :=
  if atLineStart then { d with text := d.fold ++ d.text, broken := false, emptyLines := 0 }
  else { d with text := d.blanks ++ d.text, blanks := [] }

/-- The text read. -/
def result (d : Draft) : String := String.ofList d.text.reverse

end Draft

/-! ### Without quotes -/

/-- Whether a plain scalar ends before a character, given the next one. -/
def endsPlain (inFlow : Bool) (c next : Char) : Bool :=
  (c == ':' && (isEdge next || (inFlow && isFlowMark next))) || (inFlow && isFlowMark c)

/-- How many characters of a plain scalar follow without a blank. -/
def plainRun (inFlow : Bool) : List Char → Nat
  | [] => 0
  | c :: cs =>
    if isEdge c || endsPlain inFlow c (cs.headD '\x00') then 0 else plainRun inFlow cs + 1

/-- Pass the blanks and breaks between two words. A tab must not stand for indentation, except on an
empty line. -/
def plainGap (indent : Int) : Nat → Cursor → Draft → Option (Cursor × Draft)
  | 0, c, d => some (c, d)
  | fuel + 1, c, d =>
    if isBlank c.peek then
      if !c.fresh then plainGap indent fuel (c.pass 1) { d with blanks := c.peek :: d.blanks }
      else if (c.column : Int) < indent && c.peek == '\t' then
        (c.passBlanks true).bind fun p =>
          if isLineEnd p.cursor.peek then plainGap indent fuel p.cursor d else none
      else plainGap indent fuel (c.pass 1) d
    else if isBreak c.peek then
      if c.fresh then plainGap indent fuel c.passBreak { d with emptyLines := d.emptyLines + 1 }
      else plainGap indent fuel c.passBreak { d with blanks := [], broken := true }
    else some (c, d)

/-- Go on with a plain scalar that must be indented by `indent`. -/
def plainFor (inFlow : Bool) (indent : Int) : Nat → Cursor → Draft → Option (Cursor × Draft)
  | 0, c, d => some (c, d)
  | fuel + 1, c, d =>
    if c.atDocumentMark || c.peek == '#' then some (c, d)
    else if inFlow && c.peek == '-' && isFlowMark (c.peekAt 1) then none
    else
      let run := plainRun inFlow c.rest
      let (c, d) := if run = 0 then (c, d)
        else (c.take run, (d.join c.fresh).add (c.rest.take run))
      if !(isBlank c.peek || isBreak c.peek) then some (c, d)
      else
        (plainGap indent (c.rest.length + 1) c d).bind fun (c, d) =>
          if !inFlow && (c.column : Int) < indent then some (c, d)
          else plainFor inFlow indent fuel c d

/-- Read a plain scalar; there must be something to it. -/
def plain (inFlow : Bool) (indent : Int) (c : Cursor) : Option (String × Cursor) :=
  (plainFor inFlow indent (c.rest.length + 1) c {}).bind fun (c, d) =>
    if d.text.isEmpty then none else some (d.result, c)

/-! ### Between quotes -/

/-- What an escape of one letter stands for. -/
def escaped? (c : Char) : Option Char :=
  match c with
  | '0' => some '\x00'
  | 'a' => some '\x07'
  | 'b' => some '\x08'
  | 't' => some '\t'
  | '\t' => some '\t'
  | 'n' => some '\n'
  | 'v' => some '\x0b'
  | 'f' => some '\x0c'
  | 'r' => some '\r'
  | 'e' => some '\x1b'
  | ' ' => some ' '
  | '"' => some '"'
  | '/' => some '/'
  | '\\' => some '\\'
  | 'N' => some '\u0085'
  | '_' => some '\u00A0'
  | 'L' => some '\u2028'
  | 'P' => some '\u2029'
  | _ => none

/-- How many digits an escape by number has. -/
def escapedDigits? (c : Char) : Option Nat :=
  match c with
  | 'x' => some 2
  | 'u' => some 4
  | 'U' => some 8
  | _ => none

/-- The character with a number, if there is one. -/
def character? (n : Nat) : Option Char := if n.isValidChar then some (Char.ofNat n) else none

/-- Read an escape. -/
def escape (c : Cursor) : Option (Char × Cursor) :=
  match escaped? (c.peekAt 1), escapedDigits? (c.peekAt 1) with
  | some ch, _ => some (ch, c.take 2)
  | none, some width => do
    let digits := (c.rest.drop 2).take width
    if digits.length < width then none
    let n ← Text.Numeral.ofDigits 16 digits
    let ch ← character? n
    some (ch, c.take (2 + width))
  | none, none => none

/-- Read up to a blank, a break or the closing quote. Says whether it ended with an escaped break,
which is passed. -/
def quotedRun (quote : Char) : Nat → Cursor → Draft → Option (Cursor × Draft × Bool)
  | 0, c, d => some (c, d, false)
  | fuel + 1, c, d =>
    if isEdge c.peek then some (c, d, false)
    else if quote == '\'' && c.peek == '\'' && c.peekAt 1 == '\'' then
      quotedRun quote fuel (c.take 2) (d.add ['\''])
    else if c.peek == quote then some (c, d, false)
    else if quote == '"' && c.peek == '\\' then
      if isBreak (c.peekAt 1) then some ((c.take 1).passBreak, d, true)
      else (escape c).bind fun (ch, c) => quotedRun quote fuel c (d.add [ch])
    else quotedRun quote fuel (c.take 1) (d.add [c.peek])

/-- Pass the blanks and breaks between two words. `atLineStart` says whether a break was passed. -/
def quotedGap (indent : Int) : Nat → (atLineStart : Bool) → Cursor → Draft →
    Option (Cursor × Draft × Bool)
  | 0, atLineStart, c, d => some (c, d, atLineStart)
  | fuel + 1, atLineStart, c, d =>
    if isBlank c.peek then
      if !atLineStart then
        quotedGap indent fuel false (c.pass 1) { d with blanks := c.peek :: d.blanks }
      else if c.peek == '\t' && (c.column : Int) < indent then none
      else quotedGap indent fuel true (c.pass 1) d
    else if isBreak c.peek then
      if atLineStart then
        quotedGap indent fuel true c.passBreak { d with emptyLines := d.emptyLines + 1 }
      else quotedGap indent fuel true c.passBreak { d with blanks := [], broken := true }
    else some (c, d, atLineStart)

/-- Read up to the closing quote. -/
def quotedFor (quote : Char) (indent : Int) : Nat → Cursor → Draft → Option (Cursor × Draft)
  | 0, _, _ => none
  | fuel + 1, c, d =>
    if c.atDocumentMark || isEnd c.peek || (c.column : Int) < indent then none
    else do
      let (c, d, escapedBreak) ← quotedRun quote (c.rest.length + 1) c d
      if c.peek == quote then some (c, d)
      else
        let (c, d, atLineStart) ← quotedGap indent (c.rest.length + 1) escapedBreak c d
        quotedFor quote indent fuel c (d.join atLineStart)

/-- Whether a character may stand behind a quoted scalar. -/
def mayFollow (inFlow sameLine : Bool) (c : Char) : Bool :=
  isLineEnd c || (inFlow && (c == ',' || c == '\x7d' || c == ']')) ||
    (c == ':' && (inFlow || sameLine))

/-- Read a scalar between quotes, and what may follow it on its line. -/
def quoted (quote : Char) (inFlow : Bool) (indent : Int) (c : Cursor) :
    Option (String × Cursor) := do
  let (behind, d) ← quotedFor quote indent (c.rest.length + 1) (c.take 1) {}
  let passed ← (behind.take 1).passBlanks true
  if mayFollow inFlow (c.line = passed.cursor.line) passed.cursor.peek then
    some (d.result, passed.cursor)
  else none

/-! ### Blocks -/

/-- What becomes of the breaks at the end of a block. -/
inductive Chomping
  /-- all are dropped -/
  | strip
  /-- one stays -/
  | clip
  /-- all stay -/
  | keep
deriving DecidableEq

/-- What stands behind the bar or angle. -/
structure Header where
  /-- the fate of the breaks at the end -/
  chomping : Chomping := .clip
  /-- how much deeper the lines are indented, if it is said -/
  deeper : Option Nat := none

/-- The mark for the breaks at the end. -/
def chomping? (c : Char) : Option Chomping :=
  if c == '+' then some .keep else if c == '-' then some .strip else none

/-- The digit of an indentation; zero is refused. -/
def deeper? (c : Cursor) : Option (Option Nat × Cursor) :=
  if !c.peek.isDigit then some (none, c)
  else if c.peek == '0' then none
  else some (some (c.peek.toNat - '0'.toNat), c.take 1)

/-- Read the header, its two marks in either order. -/
def header (c : Cursor) : Option (Header × Cursor) :=
  match chomping? c.peek with
  | some chomping => (deeper? (c.take 1)).map fun (deeper, c) => (⟨chomping, deeper⟩, c)
  | none => (deeper? c).map fun (deeper, c) =>
    match deeper, chomping? c.peek with
    | some _, some chomping => (⟨chomping, deeper⟩, c.take 1)
    | _, _ => (⟨.clip, deeper⟩, c)

/-- Pass empty lines and find out how far the first line with content is indented; gives the
greatest column reached and the number of breaks. -/
def findIndent : Nat → (deepest breaks : Nat) → Cursor → Nat × Nat × Cursor
  | 0, deepest, breaks, c => (deepest, breaks, c)
  | fuel + 1, deepest, breaks, c =>
    let c := c.pass (c.rest.takeWhile (· == ' ')).length
    let deepest := max deepest c.column
    if isBreak c.peek then findIndent fuel deepest (breaks + 1) c.passBreak
    else (deepest, breaks, c)

/-- Pass empty lines and the indentation of the next line; gives the number of breaks. -/
def passIndent (indent : Nat) : Nat → (breaks : Nat) → Cursor → Nat × Cursor
  | 0, breaks, c => (breaks, c)
  | fuel + 1, breaks, c =>
    let c := c.pass ((c.rest.takeWhile (· == ' ')).take (indent - c.column)).length
    if isBreak c.peek then passIndent indent fuel (breaks + 1) c.passBreak else (breaks, c)

/-- The lines of a block. -/
structure Lines where
  /-- what has been read for good, the last character first -/
  text : List Char := []
  /-- whether the break behind the last line is not taken in yet -/
  broken : Bool := false
  /-- how many empty lines followed it -/
  emptyLines : Nat
  /-- whether the last line began with a blank -/
  blankLine : Bool := false

/-- Take in the breaks before a line. Breaks are folded only between two lines neither of which
begins with a blank. -/
def Lines.join (folds beginsBlank : Bool) (l : Lines) : Lines :=
  let breaks :=
    if folds && l.broken && !l.blankLine && !beginsBlank then
      if l.emptyLines = 0 then [' '] else List.replicate l.emptyLines '\n'
    else List.replicate (l.emptyLines + if l.broken then 1 else 0) '\n'
  { text := breaks ++ l.text, broken := false, emptyLines := 0, blankLine := beginsBlank }

/-- Read the lines of a block that are indented by `indent`. -/
def linesFor (folds : Bool) (indent : Nat) : Nat → Cursor → Lines → Lines × Cursor
  | 0, c, l => (l, c)
  | fuel + 1, c, l =>
    if c.column ≠ indent || isEnd c.peek || (indent = 0 && c.atDocumentMark) then (l, c)
    else
      let l := l.join folds (isBlank c.peek)
      let (line, c) := c.takeWhile fun ch => !isLineEnd ch
      let l := { l with text := line.reverse ++ l.text }
      if isEnd c.peek then (l, c)
      else
        let (breaks, c) := passIndent indent (c.rest.length + 1) 0 c.passBreak
        linesFor folds indent fuel c { l with broken := true, emptyLines := breaks }

/-- The breaks that stay at the end of a block. -/
def ending (chomping : Chomping) (indent : Nat) (l : Lines) (c : Cursor) : List Char :=
  match chomping with
  | .strip => []
  | .clip => own
  | .keep => own ++ List.replicate l.emptyLines '\n'
where
  /-- the break behind the last line, also if the text ends there -/
  own : List Char :=
    (if l.broken then ['\n'] else []) ++
      if isEnd c.peek && max indent 1 ≤ c.column then ['\n'] else []

/-- The text of a block without a line of content. -/
def emptyBlock (chomping : Chomping) (sameLine broken : Bool) (breaks : Nat) : String :=
  let first := if broken then "\n" else ""
  match chomping with
  | .strip => ""
  | .clip => if sameLine then "" else first
  | .keep =>
    if sameLine then "" else if breaks = 0 then first
    else String.ofList (List.replicate breaks '\n')

/-- Read a block, given the indentation of what holds it. -/
def block (folds : Bool) (outer : Int) (c : Cursor) : Option (String × Cursor) := do
  let start := c
  let (header, c) ← header (c.take 1)
  let passed ← c.passBlanks true
  let c := passed.cursor
  if !isLineEnd c.peek then none
  let broken := isBreak c.peek
  let c := c.passBreak
  if c.peek == '\t' then none
  let least : Nat := if 0 < outer then max 1 (outer + 1).toNat else (outer + 1).toNat
  let fuel := c.rest.length + 1
  let (indent, breaks, c) := match header.deeper with
    | none =>
      let (deepest, breaks, c) := findIndent fuel 0 0 c
      (max deepest least, breaks, c)
    | some deeper =>
      let indent := (if 0 ≤ outer then outer.toNat else 0) + deeper
      let (breaks, c) := passIndent indent fuel 0 c
      (indent, breaks, c)
  if isEnd c.peek then
    some (emptyBlock header.chomping (c.line = start.line) broken breaks, c)
  else if c.column < indent && outer < c.column then none
  else
    let (lines, c) := linesFor folds indent (c.rest.length + 1) c { emptyLines := breaks }
    some (String.ofList (lines.text.reverse ++ ending header.chomping indent lines c), c)

end PriceRelay.Yaml.Scalar
