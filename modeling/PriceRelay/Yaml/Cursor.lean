import PriceRelay.Yaml.Token
/-!
# Moving through a YAML text

What a reader of a YAML text must know of the place it stands at: the column, since indentation
tells what belongs together, and whether anything but blanks stands before on the line.

* `Cursor` is a place in a text,
* `Cursor.take` and `Cursor.passBreak` move on,
* `Cursor.passBlanks` moves to the end of a line or the next thing on it.
-/

namespace PriceRelay.Yaml

/-- A place in a text. -/
structure Cursor where
  /-- what is left of the text -/
  rest : List Char
  /-- how many characters stand before -/
  index : Nat := 0
  /-- how many lines stand before -/
  line : Nat := 0
  /-- how many characters stand before on the line -/
  column : Nat := 0
  /-- nothing but blanks stands before on the line -/
  fresh : Bool := true
deriving Repr

namespace Cursor

/-- The character at the place. -/
def peek (c : Cursor) : Char := c.rest.headD '\x00'

/-- The character so many places on. -/
def peekAt (c : Cursor) (n : Nat) : Char := c.rest.getD n '\x00'

/-- Pass so many blanks of a line. -/
def pass (c : Cursor) (n : Nat) : Cursor :=
  { c with rest := c.rest.drop n, index := c.index + n, column := c.column + n }

/-- Take so many characters of a line that are not all blanks. -/
def take (c : Cursor) (n : Nat) : Cursor := { c.pass n with fresh := false }

/-- The run of characters with a property, none of them a break, and the place behind it. -/
def takeWhile (c : Cursor) (p : Char → Bool) : List Char × Cursor :=
  let run := c.rest.takeWhile p
  (run, if run.isEmpty then c else c.take run.length)

/-- Pass a line break, which may be two characters. -/
def passBreak (c : Cursor) : Cursor :=
  let width := if c.peek == '\r' && c.peekAt 1 == '\n' then 2 else if isBreak c.peek then 1 else 0
  if width = 0 then c
  else { rest := c.rest.drop width, index := c.index + width, line := c.line + 1 }

/-- The end of the line. -/
def toLineEnd (c : Cursor) : Cursor := (c.takeWhile fun ch => !isLineEnd ch).2

/-- Whether a document begins or ends here. -/
def atDocumentMark (c : Cursor) : Bool :=
  c.column == 0 && isEdge (c.peekAt 3) &&
    (c.rest.take 3 == ['-', '-', '-'] || c.rest.take 3 == ['.', '.', '.'])

/-- What `passBlanks` has passed. -/
structure Passed where
  /-- a tab -/
  tab : Bool
  /-- a space -/
  space : Bool
  /-- the place behind -/
  cursor : Cursor

/-- Pass spaces, tabs where they are allowed, and a comment, which must have a blank before it. -/
def passBlanks (tabs : Bool) (c : Cursor) : Option Passed :=
  let blanks := c.rest.takeWhile fun ch => ch == ' ' || (tabs && ch == '\t')
  let behind := c.pass blanks.length
  let passed (c : Cursor) : Passed := ⟨blanks.contains '\t', blanks.contains ' ', c⟩
  if behind.peek == '#' then if blanks.isEmpty then none else some (passed behind.toLineEnd)
  else some (passed behind)

end Cursor

end PriceRelay.Yaml
