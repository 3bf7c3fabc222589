/-!
# Tokens of a YAML text

Brackets, dashes, colons and scalars as they come, and between them the marks that indentation
stands for: where a block of items or pairs begins and where it ends.

* `Token` is a token,
* the character classes are those that tokens are told apart by. The end of the text is read as the
  character NUL, which no text holds.
-/

namespace PriceRelay.Yaml

/-- A token. -/
inductive Token
  /-- a directive, and the handle and prefix of tags that it declares -/
  | directive (declares : Option (String × String))
  /-- three dashes -/
  | documentStart
  /-- three points -/
  | documentEnd
  /-- a block of items begins -/
  | blockList
  /-- a block of pairs begins -/
  | blockTable
  /-- a block ends -/
  | blockEnd
  /-- an opening bracket -/
  | flowList
  /-- a closing bracket -/
  | flowListEnd
  /-- an opening brace -/
  | flowTable
  /-- a closing brace -/
  | flowTableEnd
  /-- a dash before an item -/
  | item
  /-- a comma -/
  | comma
  /-- a key follows -/
  | key
  /-- a value follows -/
  | value
  /-- a name that stands for a node given before -/
  | reference (name : String)
  /-- a name given to the node that follows -/
  | anchor (name : String)
  /-- a tag for the node that follows -/
  | tag (handle suffix : String)
  /-- a scalar, and whether it was written without quotes or block marks -/
  | scalar (isPlain : Bool) (text : String)
deriving DecidableEq, Repr

/-- The end of the text. -/
def isEnd (c : Char) : Bool := c == '\x00'

/-- A line break. -/
def isBreak (c : Char) : Bool := c == '\n' || c == '\r'

/-- A line break or the end of the text. -/
def isLineEnd (c : Char) : Bool := isBreak c || isEnd c

/-- A space or a tab. -/
def isBlank (c : Char) : Bool := c == ' ' || c == '\t'

/-- What stands at the end of a word. -/
def isEdge (c : Char) : Bool := isBlank c || isLineEnd c

/-- A mark of the notation with brackets. -/
def isFlowMark (c : Char) : Bool := c == ',' || c == '[' || c == ']' || c == '\x7b' || c == '\x7d'

/-- A character of a directive's name or a tag's handle. -/
def isNameChar (c : Char) : Bool := c.isAlphanum || c == '_' || c == '-'

/-- A character of a tag's address. -/
def isAddressChar (c : Char) : Bool :=
  c.isAlphanum || c == '-' || "#;/?:@&=+$,_.!~*'()[]%".toList.contains c

/-- A character of a tag without its handle. -/
def isTagChar (c : Char) : Bool := isAddressChar c && !isFlowMark c && c != '!'

/-- A character of an anchor's name. -/
def isAnchorChar (c : Char) : Bool := !isEdge c && !isFlowMark c && c != '\uFEFF'

end PriceRelay.Yaml
