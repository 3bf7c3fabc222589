/-!
# Bytes read as text

A body that arrives as bytes is read as UTF-8 whatever it holds: a leading byte-order mark is
dropped, and each longest run of bytes that begins a character without completing one becomes a
single replacement character.

* `decode` reads bytes,
* `strictDecode` reads bytes only if all of them are well-formed.
-/

namespace PriceRelay.Text.Utf8

/-- The character that stands for bytes that are none. -/
def replacement : Char := Char.ofNat 0xFFFD

/-- How a sequence opens: how many bytes follow, the range of the first of them, and the bits that
the opening byte contributes. -/
structure Opening where
  /-- bytes that follow -/
  following : Nat
  /-- least value of the first byte that follows -/
  low : Nat
  /-- greatest value of the first byte that follows -/
  high : Nat
  /-- the bits of the opening byte -/
  bits : Nat

/-- The opening that a byte makes, if it can open a sequence of several bytes. -/
def opening? (b : Nat) : Option Opening :=
  if 0xC2 ≤ b ∧ b ≤ 0xDF then some ⟨1, 0x80, 0xBF, b - 0xC0⟩
  else if b = 0xE0 then some ⟨2, 0xA0, 0xBF, 0⟩
  else if b = 0xED then some ⟨2, 0x80, 0x9F, 0xD⟩
  else if 0xE1 ≤ b ∧ b ≤ 0xEF then some ⟨2, 0x80, 0xBF, b - 0xE0⟩
  else if b = 0xF0 then some ⟨3, 0x90, 0xBF, 0⟩
  else if 0xF1 ≤ b ∧ b ≤ 0xF3 then some ⟨3, 0x80, 0xBF, b - 0xF0⟩
  else if b = 0xF4 then some ⟨3, 0x80, 0x8F, 4⟩
  else none

/-- Take `following` bytes, the first of them between `low` and `high`; what has been read is kept
in `bits`. The rest begins at the first byte that does not belong to the sequence. -/
def complete : (following low high bits : Nat) → List UInt8 → Option Nat × List UInt8
  | 0, _, _, bits, rest => (some bits, rest)
  | _ + 1, _, _, _, [] => (none, [])
  | k + 1, low, high, bits, b :: rest =>
    if low ≤ b.toNat ∧ b.toNat ≤ high then
      complete k 0x80 0xBF (bits * 64 + (b.toNat - 0x80)) rest
    else (none, b :: rest)

/-- The characters of some bytes; `none` stands for a malformed run. -/
def pieces : (fuel : Nat) → List UInt8 → List (Option Char)
  | 0, _ => []
  | _ + 1, [] => []
  | fuel + 1, b :: rest =>
    if b.toNat < 0x80 then some (Char.ofNat b.toNat) :: pieces fuel rest
    else match opening? b.toNat with
      | none => none :: pieces fuel rest
      | some o =>
        match complete o.following o.low o.high o.bits rest with
        | (some n, rest') => some (Char.ofNat n) :: pieces fuel rest'
        | (none, rest') => none :: pieces fuel rest'

/-- The characters of some bytes; `none` stands for a malformed run. -/
def characters (bytes : List UInt8) : List (Option Char) := pieces bytes.length bytes

/-- Drop one leading byte-order mark. -/
def dropMark : List UInt8 → List UInt8
  | 0xEF :: 0xBB :: 0xBF :: rest => rest
  | bytes => bytes

/-- The text of some bytes, malformed runs replaced. -/
def decode (bytes : List UInt8) : String :=
  String.ofList ((characters (dropMark bytes)).map fun c => c.getD replacement)

/-- The text of some bytes, if every byte belongs to a character. -/
def strictDecode (bytes : List UInt8) : Option String :=
  ((characters bytes).mapM id).map String.ofList

end PriceRelay.Text.Utf8
