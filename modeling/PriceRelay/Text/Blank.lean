/-!
# Blank characters and plain text operations

What counts as white space when a text is trimmed, and the few operations on texts that the rest
of the library is built from. All of them are stated on lists of characters.

* `isBlank` is the Unicode property `White_Space`,
* `trim` takes blanks off both ends,
* `occursIn` says whether a text holds another one.
-/

namespace PriceRelay.Text

/-- The Unicode property `White_Space`. The zero-width space and the byte-order mark lack it. -/
def isBlank (c : Char) : Bool :=
  let n := c.toNat
  (9 ≤ n && n ≤ 13) || n == 0x20 || n == 0x85 || n == 0xA0 || n == 0x1680 ||
    (0x2000 ≤ n && n ≤ 0x200A) || n == 0x2028 || n == 0x2029 || n == 0x202F || n == 0x205F ||
    n == 0x3000

/-- Take off the end every character that `p` holds of. -/
def dropEndWhile (p : Char → Bool) (cs : List Char) : List Char :=
  (cs.reverse.dropWhile p).reverse

/-- Blanks taken off both ends. -/
def trimChars (cs : List Char) : List Char := dropEndWhile isBlank (cs.dropWhile isBlank)

/-- Blanks taken off both ends. -/
def trim (s : String) : String := String.ofList (trimChars s.toList)

/-- Whether a text is nothing but blanks. -/
def isBlankText (s : String) : Bool := s.toList.all isBlank

/-- The text with the ASCII capitals made small, and nothing else changed. -/
def asciiLower (s : String) : String := String.ofList (s.toList.map Char.toLower)

/-- Whether `needle` occurs in a text. -/
def occursIn (needle : List Char) : List Char → Bool
  | [] => needle.isEmpty
  | c :: cs => needle.isPrefixOf (c :: cs) || occursIn needle cs

/-- Whether `needle` occurs in `s`. -/
def contains (s needle : String) : Bool := occursIn needle.toList s.toList

/-- Whether `s` begins with `start`. -/
def startsWith (s start : String) : Bool := start.toList.isPrefixOf s.toList

/-- What is left of `s` after the opening `start`, if it opens so. -/
def dropStart? (s start : String) : Option String :=
  (start.toList.isPrefixOf? s.toList).map String.ofList

/-- Cut a text at every `sep`; there is always at least one piece. -/
def splitOn (sep : Char) : List Char → List (List Char)
  | [] => [[]]
  | c :: cs =>
    if c = sep then [] :: splitOn sep cs
    else match splitOn sep cs with
      | [] => [[c]]
      | piece :: pieces => (c :: piece) :: pieces

/-- The number of bytes of the text in UTF-8. -/
def byteLength (s : String) : UInt64 := UInt64.ofNat s.utf8ByteSize

end PriceRelay.Text
