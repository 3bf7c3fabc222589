import PriceRelay.Text.Blank
/-!
# Files of variables

A file of variables holds one `name=value` on each line. Values may stand between quotes, and then
go over several lines; a dollar sign brings in another variable, and what follows a number sign
behind a blank is a comment. The first line that cannot be read ends the file.

* `Dotenv.lines` are the lines of a file, each with all that belongs to its quotes,
* `Dotenv.assignment` reads a line,
* `Dotenv.environment` is what is set once a file was read.
-/

namespace PriceRelay.Dotenv

/-! ### Lines -/

/-- What a line is in the middle of. -/
inductive Within
  /-- nothing -/
  | plain
  /-- blanks -/
  | blanks
  /-- an escape outside of quotes -/
  | escape
  /-- single or double quotes -/
  | quotes (quote : Char)
  /-- an escape within quotes -/
  | quotedEscape (quote : Char)
deriving DecidableEq

/-- What a line is in the middle of behind a character. -/
def Within.next (c : Char) : Within → Within
  | quotedEscape quote => quotes quote
  | quotes quote =>
    if c == '\\' then quotedEscape quote else if c == quote then plain else quotes quote
  | escape => plain
  | blanks => opening
  | plain => if Text.isBlank c && c != '\n' && c != '\r' then blanks else opening
where
  /-- what a character opens -/
  opening : Within :=
    if c == '\\' then escape else if c == '"' || c == '\'' then quotes c else plain

/-- Read one line of the file: how many characters of it count, and what it is in the middle of at
its end. A comment ends what counts. -/
def scanLine : Within → List Char → Nat × Option Within
  | w, [] => (0, some w)
  | w, c :: cs =>
    if w = .blanks ∧ c = '#' then (0, none)
    else
      let (n, end?) := scanLine (w.next c) cs
      (n + 1, end?)

/-- The first line of some text with its break, and the rest. -/
def splitLine : List Char → List Char × List Char
  | [] => ([], [])
  | c :: cs =>
    if c = '\n' then ([c], cs)
    else
      let (line, rest) := splitLine cs
      (c :: line, rest)

/-- The lines of some text, so many at most; nothing stands for the end of a text within quotes.
`before` is the part of a line that is there already. -/
def linesFor : Nat → Within → (before : List Char) → List Char → List (Option (List Char))
  | 0, _, _, _ => []
  | fuel + 1, w, before, cs =>
    if cs.isEmpty then if w = .plain then [] else [none]
    else
      let (line, rest) := splitLine cs
      if (Text.trimChars (before ++ line)).head? = some '#' then
        some [] :: linesFor fuel .plain [] rest
      else match scanLine w line with
        | (n, none) => some (before ++ line.take n) :: linesFor fuel .plain [] rest
        | (_, some .plain) => some (before ++ line) :: linesFor fuel .plain [] rest
        | (_, some w) => linesFor fuel w (before ++ line) rest

/-- The lines of a file. -/
def lines (text : String) : List (Option (List Char)) :=
  linesFor (text.length + 1) .plain [] text.toList

/-! ### Values -/

/-- A reference to a variable that is being read. -/
inductive Reference
  /-- none is -/
  | none
  /-- its name, the last character first -/
  | bare (name : List Char)
  /-- its name between braces, the last character first -/
  | braced (name : List Char)
deriving DecidableEq

/-- Where the reading of a value stands. -/
structure Value where
  /-- what has been read, the last character first -/
  read : List Char := []
  /-- within single quotes -/
  strong : Bool := false
  /-- within double quotes -/
  weak : Bool := false
  /-- behind a backslash -/
  escaped : Bool := false
  /-- only a comment may follow -/
  ended : Bool := false
  /-- the reference that is being read -/
  reference : Reference := .none

namespace Value

/-- Add a character. -/
def add (v : Value) (c : Char) : Value := { v with read := c :: v.read }

/-- Add what a variable holds; one that is not set holds nothing. -/
def bringIn (look : String → Option String) (name : List Char) (v : Value) : Value :=
  let text := ((look (String.ofList name.reverse)).getD "").toList
  { v with read := text.reverse ++ v.read, reference := .none }

/-- A character of the name of a variable. -/
def isNameChar (c : Char) : Bool := c.isAlphanum || 0x80 ≤ c.toNat && !Text.isBlank c

/-- A character outside of references. -/
def plainStep (c : Char) (v : Value) : Value :=
  if c = '$' then { v with reference := .bare [] }
  else if v.weak then
    if c = '"' then { v with weak := false }
    else if c = '\\' then { v with escaped := true }
    else v.add c
  else if c = '\'' then { v with strong := true }
  else if c = '"' then { v with weak := true }
  else if c = '\\' then { v with escaped := true }
  else if c = ' ' || c = '\t' then { v with ended := true }
  else v.add c

/-- The next character; `look` tells what a variable holds. -/
def step (look : String → Option String) (c : Char) (v : Value) : Option Value :=
  if v.ended then if c = ' ' || c = '\t' then some v else none
  else if v.escaped then
    if c = 'n' then some { v.add '\n' with escaped := false }
    else if c = '\\' || c = '\'' || c = '"' || c = '$' || c = ' ' then
      some { v.add c with escaped := false }
    else none
  else if v.strong then some (if c = '\'' then { v with strong := false } else v.add c)
  else match v.reference with
    | .none => some (v.plainStep c)
    | .bare name =>
      if isNameChar c then some { v with reference := .bare (c :: name) }
      else if c = '\x7b' && name.isEmpty then some { v with reference := .braced [] }
      else
        let v := v.bringIn look name
        some (if c = '$' then { v with reference := .bare [] } else v.add c)
    | .braced name =>
      if c = '\x7d' then some (v.bringIn look name)
      else some { v with reference := .braced (c :: name) }

/-- What was read, if it may end here. -/
def finish (look : String → Option String) (v : Value) : Option String :=
  if v.strong || v.weak then none
  else match v.reference with
    | .none => some (String.ofList v.read.reverse)
    | .bare name => some (String.ofList (v.bringIn look name).read.reverse)
    | .braced _ => none

/-- Read the rest of a value. -/
def run (look : String → Option String) : Value → List Char → Option String
  | v, [] => v.finish look
  | v, c :: cs =>
    if v.ended && c = '#' then v.finish look else (v.step look c).bind fun v => run look v cs

end Value

/-! ### Assignments -/

/-- The name of a variable at the beginning of some text, and the rest behind blanks. -/
def name? (cs : List Char) : Option (List Char × List Char) :=
  match cs with
  | c :: _ =>
    if c.isAlpha || c = '_' then
      let isPart := fun c : Char => c.isAlphanum || c = '_' || c = '.'
      some (cs.takeWhile isPart, (cs.dropWhile isPart).dropWhile Text.isBlank)
    else none
  | [] => none

/-- The rest behind an equals sign. -/
def value? (cs : List Char) : Option (List Char) :=
  match cs with
  | '=' :: rest => some (rest.dropWhile Text.isBlank)
  | _ => none

/-- The name and the text behind the equals sign; the word `export` may stand in front. -/
def parts? (cs : List Char) : Option (List Char × List Char) :=
  (name? cs).bind fun (name, rest) =>
    match value? rest with
    | some value => some (name, value)
    | none =>
      if name = "export".toList then
        (name? rest).bind fun (name, rest) => (value? rest).map fun value => (name, value)
      else none

/-- Read a line: nothing if it cannot be read, and no assignment if it is empty or a comment. -/
def assignment (look : String → Option String) (line : List Char) :
    Option (Option (String × String)) :=
  match Text.trimChars line with
  | [] => some none
  | '#' :: _ => some none
  | cs =>
    (parts? cs).bind fun (name, value) =>
      if value.isEmpty || value.head? = some '#' then some (some (String.ofList name, ""))
      else (Value.run look {} value).map fun text => some (String.ofList name, text)

/-- The variables of some lines beside those that are set: one that is set already stays as it is.
A reference sees what is set, and else what the file has given last. -/
def collect (known : List (String × String)) (given : List (String × String)) :
    List (Option (List Char)) → List (String × String)
  | [] => known
  | none :: _ => known
  | some line :: rest =>
    match assignment (fun name => (known.lookup name).or (given.lookup name)) line with
    | none => known
    | some none => collect known given rest
    | some (some (name, text)) =>
      let known := if (known.lookup name).isSome then known else known ++ [(name, text)]
      collect known ((name, text) :: given) rest

/-- The variables that are set once a file was read. -/
def environment (known : List (String × String)) (text : String) : List (String × String) :=
  collect known [] (lines text)

end PriceRelay.Dotenv
