import PriceRelay.Text.Numeral
import PriceRelay.Yaml.Cursor
/-!
# Tags, anchors and directives of a YAML text

A tag names the kind of a node, an anchor the node itself, and a directive speaks of the document
that follows. A tag has a handle, which a directive may stand for an address with, and a suffix.

* `Tag.read` reads a tag,
* `Tag.anchor` reads an anchor or a reference,
* `Tag.directive` reads a directive with its line.
-/

namespace PriceRelay.Yaml.Tag

/-! ### Escaped characters -/

/-- The value of an escaped byte, if one stands here. -/
def escapedByte? (c : Cursor) : Option Nat :=
  if c.peek == '%' then
    match Text.Numeral.digitIn? 16 (c.peekAt 1), Text.Numeral.digitIn? 16 (c.peekAt 2) with
    | some hi, some lo => some (hi * 16 + lo)
    | _, _ => none
  else none

/-- How many bytes a character has whose first byte is given. -/
def escapedWidth? (byte : Nat) : Option Nat :=
  if byte < 0x80 then some 1
  else if byte / 32 = 6 then some 2
  else if byte / 16 = 14 then some 3
  else if byte / 8 = 30 then some 4
  else none

/-- Take the bytes of a character after the first. The bytes are put together as they are. -/
def escapedRest : (following code : Nat) → Cursor → Option (Nat × Cursor)
  | 0, code, c => some (code, c)
  | following + 1, code, c =>
    (escapedByte? c).bind fun byte =>
      if byte / 64 = 2 then escapedRest following (code * 256 + byte) (c.take 3) else none

/-- An escaped character. -/
def escaped (c : Cursor) : Option (Char × Cursor) := do
  let first ← escapedByte? c
  let width ← escapedWidth? first
  let (code, c) ← escapedRest (width - 1) first (c.take 3)
  if code.isValidChar then some (Char.ofNat code, c) else none

/-- Characters with a property, some of them escaped. -/
def addressFor (p : Char → Bool) : Nat → List Char → Cursor → Option (List Char × Cursor)
  | 0, read, c => some (read.reverse, c)
  | fuel + 1, read, c =>
    if isEnd c.peek || !p c.peek then some (read.reverse, c)
    else if c.peek == '%' then
      (escaped c).bind fun (ch, c) => addressFor p fuel (ch :: read) c
    else addressFor p fuel (c.peek :: read) (c.take 1)

/-- Characters with a property, some of them escaped. -/
def address (p : Char → Bool) (c : Cursor) : Option (List Char × Cursor) :=
  addressFor p (c.rest.length + 1) [] c

/-! ### Tags -/

/-- A handle: a name between exclamation marks, of which the second may be missing. -/
def handle (c : Cursor) : Option (List Char × Cursor) :=
  if c.peek != '!' then none
  else
    let (name, c) := (c.take 1).takeWhile isNameChar
    if c.peek == '!' then some ('!' :: name ++ ['!'], c.take 1) else some ('!' :: name, c)

/-- A tag between angles: its handle is empty. -/
def verbatim (c : Cursor) : Option ((String × String) × Cursor) :=
  (address isAddressChar (c.take 2)).bind fun (suffix, c) =>
    if c.peek == '>' then some (("", String.ofList suffix), c.take 1) else none

/-- A tag with a handle of its own, or with the usual one. A single exclamation mark is a tag by
itself. -/
def shorthand (c : Cursor) : Option ((String × String) × Cursor) :=
  (handle c).bind fun (h, c) =>
    (address isTagChar c).bind fun (suffix, c) =>
      if 2 ≤ h.length && h.getLast? == some '!' then
        if suffix.isEmpty then none else some ((String.ofList h, String.ofList suffix), c)
      else
        let suffix := h.drop 1 ++ suffix
        some (if suffix.isEmpty then ("", "!") else ("!", String.ofList suffix), c)

/-- Read a tag: its handle and suffix. -/
def read (inFlow : Bool) (c : Cursor) : Option ((String × String) × Cursor) :=
  (if c.peekAt 1 == '<' then verbatim c else shorthand c).bind fun (tag, c) =>
    if isEdge c.peek || (inFlow && isFlowMark c.peek) then some (tag, c) else none

/-- Read the name of an anchor or a reference. -/
def anchor (c : Cursor) : Option (String × Cursor) :=
  let (name, c) := (c.take 1).takeWhile isAnchorChar
  if name.isEmpty then none else some (String.ofList name, c)

/-! ### Directives -/

/-- A number of a version, of nine digits at most. -/
def versionNumber (c : Cursor) : Option Cursor :=
  let (digits, c) := c.takeWhile Char.isDigit
  if digits.isEmpty || 9 < digits.length then none else some c

/-- The version that a directive names; any will do. -/
def version (c : Cursor) : Option Cursor := do
  let c ← versionNumber (c.pass (c.rest.takeWhile isBlank).length)
  if c.peek == '.' then versionNumber (c.take 1) else none

/-- The prefix that a directive declares. -/
def declaredPrefix (c : Cursor) : Option (List Char × Cursor) :=
  if c.peek == '!' then
    (address isAddressChar (c.take 1)).map fun (cs, c) => ('!' :: cs, c)
  else if isTagChar c.peek then address isAddressChar c
  else none

/-- The handle and prefix that a directive declares. -/
def declaration (c : Cursor) : Option ((String × String) × Cursor) := do
  let (h, c) ← handle (c.pass (c.rest.takeWhile isBlank).length)
  if h.getLast? != some '!' then none
  let (start, c) ← declaredPrefix (c.pass (c.rest.takeWhile isBlank).length)
  if isEdge c.peek then some ((String.ofList h, String.ofList start), c) else none

/-- Read a directive with its line; gives what it declares. Unknown directives are passed over. -/
def directive (c : Cursor) : Option (Option (String × String) × Cursor) := do
  let (name, c) := (c.take 1).takeWhile isNameChar
  if name.isEmpty || !isEdge c.peek then none
  let (declares, c) ←
    if name == "YAML".toList then (version c).map fun c => (none, c)
    else if name == "TAG".toList then (declaration c).map fun (d, c) => (some d, c)
    else some (some ("", ""), c.toLineEnd)
  let passed ← c.passBlanks true
  if isLineEnd passed.cursor.peek then some (declares, passed.cursor.passBreak) else none

end PriceRelay.Yaml.Tag
