import PriceRelay.Proofs.Text.Numeral
import PriceRelay.Word
/-!
# Numerals of words

A numeral has a sign, a radix and digits, and low lines may stand among its digits. A word is read
from a text if the text writes a numeral whose value is in range, and then it is that value. No
digit at all is a numeral too, whose value is zero.

* `Word.Numeral` is a numeral taken apart, `Numeral.Unsigned` and `Numeral.Signed` say which texts
  write it,
* `Word.unsigned?_eq_some_iff` and `Word.signed?_eq_some_iff` say what is read from a text,
* `Word.Numeral.Signed.digits_eq_nil_iff` says which texts have no digit,
* `Word.signed?_signedText` and `Word.unsigned?_unsignedText` read a word's own text back.
-/

namespace PriceRelay.Word

open Text.Numeral (IsDigit continueDigits digitIn? digitIn?_eq_some_iff continueDigits_eq_some_iff)

/-! ### Numerals and their texts -/

/-- What may stand before the digits of a numeral, and the radix it tells. -/
inductive Opening : Nat → List Char → Prop
  /-- digits alone are decimal -/
  | decimal : Opening 10 []
  /-- sixteen digits, the letters among them of either case -/
  | hexadecimal {c : Char} (h : c = 'x' ∨ c = 'X') : Opening 16 ['0', c]
  /-- eight digits -/
  | octal {c : Char} (h : c = 'o' ∨ c = 'O') : Opening 8 ['0', c]
  /-- two digits -/
  | binary {c : Char} (h : c = 'b' ∨ c = 'B') : Opening 2 ['0', c]

/-- What may stand before a numeral, and whether it makes the numeral negative. -/
inductive SignText : Bool → List Char → Prop
  /-- no sign -/
  | absent : SignText false []
  /-- a plus sign -/
  | plus : SignText false ['+']
  /-- a minus sign -/
  | minus : SignText true ['-']

/-- A numeral taken apart. -/
structure Numeral where
  /-- whether it has a minus sign -/
  negative : Bool
  /-- its radix -/
  base : Nat
  /-- its digits, the highest first -/
  digits : List Nat
deriving DecidableEq, Repr

namespace Numeral

/-- The value of the digits. -/
def size (n : Numeral) : Nat := Nat.ofDigits n.base n.digits.reverse

/-- The value of a numeral. -/
def value (n : Numeral) : Int := if n.negative then -(n.size : Int) else n.size

/-- The characters `cs` are the radix and the digits of a numeral; low lines may stand anywhere
among the digits. -/
def Spelled (n : Numeral) (cs : List Char) : Prop :=
  ∃ opening body, Opening n.base opening ∧ cs = opening ++ body ∧
    List.Forall₂ (IsDigit n.base) (body.filter (· ≠ '_')) n.digits

/-- A text writes a numeral that may have no sign. -/
def Unsigned (n : Numeral) (text : String) : Prop := n.negative = false ∧ n.Spelled text.toList

/-- A text writes a numeral that may have a sign. -/
def Signed (n : Numeral) (text : String) : Prop :=
  ∃ sign cs, SignText n.negative sign ∧ text.toList = sign ++ cs ∧ n.Spelled cs

end Numeral

/-! ### The radix -/

theorem Opening.base_le {base : Nat} {opening : List Char} (h : Opening base opening) :
    base ≤ 16 := by
  cases h <;> decide

theorem exists_opening (cs : List Char) :
    ∃ opening, Opening (radix cs).1 opening ∧ cs = opening ++ (radix cs).2 := by
  unfold radix
  split
  · exact ⟨_, .hexadecimal (.inl rfl), rfl⟩
  · exact ⟨_, .hexadecimal (.inr rfl), rfl⟩
  · exact ⟨_, .octal (.inl rfl), rfl⟩
  · exact ⟨_, .octal (.inr rfl), rfl⟩
  · exact ⟨_, .binary (.inl rfl), rfl⟩
  · exact ⟨_, .binary (.inr rfl), rfl⟩
  · exact ⟨_, .decimal, rfl⟩

theorem exists_isDigit_of_mem {base : Nat} {cs : List Char} {ds : List Nat}
    (h : List.Forall₂ (IsDigit base) (cs.filter (· ≠ '_')) ds) {c : Char} (hc : c ∈ cs)
    (hline : c ≠ '_') : ∃ d, IsDigit base c d := by
  have hall : List.Forall₂ (fun c d => (∃ d, IsDigit base c d) ∧ IsDigit base c d)
      (cs.filter (· ≠ '_')) ds := h.imp fun c d hd => ⟨⟨d, hd⟩, hd⟩
  exact ((List.forall₂_and_left _ _).mp hall).1 c (List.mem_filter.mpr ⟨hc, by simpa using hline⟩)

/-- A run of decimal digits does not look as if it began with another radix. -/
theorem radix_of_decimal {cs : List Char} {ds : List Nat}
    (h : List.Forall₂ (IsDigit 10) (cs.filter (· ≠ '_')) ds) : radix cs = (10, cs) := by
  have hno (c : Char) (hline : c ≠ '_') (hnone : digitIn? 10 c = none) : c ∉ cs := by
    intro hc
    obtain ⟨d, hd⟩ := exists_isDigit_of_mem h hc hline
    rw [← digitIn?_eq_some_iff (by decide), hnone] at hd
    cases hd
  unfold radix
  split
  · exact absurd (by simp) (hno 'x' (by decide) rfl)
  · exact absurd (by simp) (hno 'X' (by decide) rfl)
  · exact absurd (by simp) (hno 'o' (by decide) rfl)
  · exact absurd (by simp) (hno 'O' (by decide) rfl)
  · exact absurd (by simp) (hno 'b' (by decide) rfl)
  · exact absurd (by simp) (hno 'B' (by decide) rfl)
  · rfl

/-- **The radix of a numeral is the one that is read**, and its digits stand behind it. -/
theorem Numeral.spelled_iff {n : Numeral} {cs : List Char} : n.Spelled cs ↔
    (radix cs).1 = n.base ∧
      List.Forall₂ (IsDigit n.base) ((radix cs).2.filter (· ≠ '_')) n.digits := by
  constructor
  · rintro ⟨opening, body, hopening, rfl, hdigits⟩
    obtain ⟨negative, base, ds⟩ := n
    -- each opening but the empty one is read off; digits alone do not begin with one of the others
    cases hopening with
    | decimal =>
      rw [List.nil_append, radix_of_decimal hdigits]
      exact ⟨rfl, hdigits⟩
    | hexadecimal h => rcases h with rfl | rfl <;> exact ⟨rfl, hdigits⟩
    | octal h => rcases h with rfl | rfl <;> exact ⟨rfl, hdigits⟩
    | binary h => rcases h with rfl | rfl <;> exact ⟨rfl, hdigits⟩
  · rintro ⟨hradix, hdigits⟩
    obtain ⟨opening, hopening, hcs⟩ := exists_opening cs
    exact ⟨opening, (radix cs).2, hradix ▸ hopening, hcs, hdigits⟩

theorem Numeral.Spelled.base_le {n : Numeral} {cs : List Char} (h : n.Spelled cs) :
    n.base ≤ 16 := by
  obtain ⟨opening, body, hopening, -⟩ := h
  exact hopening.base_le

/-- Characters spell one numeral at most, but for its sign. -/
theorem Numeral.Spelled.unique {m n : Numeral} {cs : List Char} (hm : m.Spelled cs)
    (hn : n.Spelled cs) : m.base = n.base ∧ m.digits = n.digits := by
  have hle := hm.base_le
  obtain ⟨hbase, hms⟩ := spelled_iff.mp hm
  obtain ⟨hbase', hns⟩ := spelled_iff.mp hn
  have hsame : m.base = n.base := hbase.symm.trans hbase'
  rw [← hsame] at hns
  exact ⟨hsame, List.right_unique_forall₂' (fun _ _ _ hd he => hd.unique hle he) hms hns⟩

theorem magnitude?_eq_some_iff {cs : List Char} {size : Nat} (negative : Bool) :
    magnitude? cs = some size ↔
      ∃ n : Numeral, n.negative = negative ∧ n.Spelled cs ∧ n.size = size := by
  have hle : (radix cs).1 ≤ 16 := by
    obtain ⟨opening, hopening, -⟩ := exists_opening cs
    exact hopening.base_le
  have hread : magnitude? cs =
      continueDigits (radix cs).1 0 ((radix cs).2.filter (· ≠ '_')) := rfl
  rw [hread, continueDigits_eq_some_iff hle]
  constructor
  · rintro ⟨ds, hds, rfl⟩
    refine ⟨⟨negative, (radix cs).1, ds⟩, rfl, Numeral.spelled_iff.mpr ⟨rfl, hds⟩, ?_⟩
    rw [Nat.zero_mul, Nat.zero_add]
    rfl
  · rintro ⟨n, -, hn, rfl⟩
    obtain ⟨hbase, hds⟩ := Numeral.spelled_iff.mp hn
    refine ⟨n.digits, hbase ▸ hds, ?_⟩
    rw [Nat.zero_mul, Nat.zero_add, hbase]
    rfl

/-! ### Words without sign -/

/-- **A word is read from a text without sign** exactly when the text writes a numeral whose value
it is. -/
theorem unsigned?_eq_some_iff {text : String} {w : Word} : unsigned? text = some w ↔
    ∃ n : Numeral, n.Unsigned text ∧ n.value = w.toNat := by
  have hrange (size : Nat) :
      ((if size < Nat.pow 2 256 then some (BitVec.ofNat 256 size) else none) = some w) ↔
        size = w.toNat := by
    have hw : w.toNat < Nat.pow 2 256 := w.isLt
    constructor
    · intro h
      split at h
      · next hlt =>
        rw [← Option.some.inj h, BitVec.toNat_ofNat]
        exact (Nat.mod_eq_of_lt hlt).symm
      · cases h
    · rintro rfl
      rw [if_pos hw, BitVec.ofNat_toNat, BitVec.setWidth_eq]
  simp only [unsigned?, unsignedChars?, Option.bind_eq_some_iff, hrange,
    magnitude?_eq_some_iff false]
  constructor
  · rintro ⟨size, ⟨n, hsign, hn, rfl⟩, hsize⟩
    refine ⟨n, ⟨hsign, hn⟩, ?_⟩
    rw [Numeral.value, hsign, ← hsize]
    rfl
  · rintro ⟨n, ⟨hsign, hn⟩, hvalue⟩
    rw [Numeral.value, hsign] at hvalue
    exact ⟨n.size, ⟨n, hsign, hn, rfl⟩, Int.ofNat.inj hvalue⟩

theorem isSome_unsigned?_iff {text : String} : (unsigned? text).isSome = true ↔
    ∃ n : Numeral, n.Unsigned text ∧ n.value < 2 ^ 256 := by
  rw [Option.isSome_iff_exists]
  simp only [unsigned?_eq_some_iff]
  constructor
  · rintro ⟨w, n, hn, hvalue⟩
    have hw := w.isLt
    exact ⟨n, hn, by omega⟩
  · rintro ⟨n, hn, hlt⟩
    have hvalue : n.value = n.size := by rw [Numeral.value, hn.1, if_neg Bool.false_ne_true]
    refine ⟨BitVec.ofNat 256 n.size, n, hn, ?_⟩
    rw [BitVec.toNat_ofNat, Nat.mod_eq_of_lt (by omega), hvalue]

/-! ### Words with a sign -/

theorem exists_signText (cs : List Char) :
    ∃ opening, SignText (sign cs).1 opening ∧ cs = opening ++ (sign cs).2 := by
  unfold sign
  split
  · exact ⟨_, .minus, rfl⟩
  · exact ⟨_, .plus, rfl⟩
  · exact ⟨_, .absent, rfl⟩

theorem isBlank_of_isDigit {c : Char} {d : Nat} (h : IsDigit 10 c d) :
    Text.isBlank c = false := by
  obtain ⟨hd, hc⟩ := h
  have hcode := congrArg Char.toNat hc
  rw [Text.Numeral.toNat_digitChar (by omega), Text.Numeral.toNat_toLower] at hcode
  have hrange : 48 ≤ c.toNat ∧ c.toNat ≤ 57 := by
    split at hcode <;> split at hcode <;> omega
  simp only [Text.isBlank, Bool.or_eq_false_iff, Bool.and_eq_false_iff, decide_eq_false_iff_not,
    beq_eq_false_iff_ne]
  omega

/-- What a numeral begins with, if it has no sign: a digit or a low line. -/
theorem Numeral.Spelled.head {n : Numeral} {c : Char} {cs : List Char}
    (h : n.Spelled (c :: cs)) : c = '_' ∨ ∃ d, IsDigit 10 c d := by
  obtain ⟨opening, body, hopening, hcs, hdigits⟩ := h
  obtain ⟨negative, base, ds⟩ := n
  have hzero : IsDigit 10 '0' 0 := ⟨by decide, by decide⟩
  cases hopening with
  | decimal =>
    obtain rfl : c :: cs = body := hcs
    by_cases hline : c = '_'
    · exact .inl hline
    · exact .inr (exists_isDigit_of_mem hdigits List.mem_cons_self hline)
  | hexadecimal =>
    obtain ⟨rfl, -⟩ := List.cons.inj hcs
    exact .inr ⟨0, hzero⟩
  | octal =>
    obtain ⟨rfl, -⟩ := List.cons.inj hcs
    exact .inr ⟨0, hzero⟩
  | binary =>
    obtain ⟨rfl, -⟩ := List.cons.inj hcs
    exact .inr ⟨0, hzero⟩

theorem Numeral.Spelled.not_head {n : Numeral} {c : Char} {cs : List Char}
    (h : n.Spelled (c :: cs)) (hnone : digitIn? 10 c = none) : c = '_' := by
  rcases h.head with hline | ⟨d, hd⟩
  · exact hline
  · rw [← digitIn?_eq_some_iff (by decide), hnone] at hd
    cases hd

theorem sign_append {n : Numeral} {opening cs : List Char} (hsign : SignText n.negative opening)
    (hn : n.Spelled cs) : sign (opening ++ cs) = (n.negative, cs) := by
  obtain ⟨negative, base, ds⟩ := n
  cases hsign with
  | plus => rfl
  | minus => rfl
  | absent =>
    rw [List.nil_append]
    unfold sign
    split
    · cases hn.not_head rfl
    · cases hn.not_head rfl
    · rfl

theorem ofSize?_eq_some_iff {negative : Bool} {size : Nat} {w : Word} :
    ofSize? negative size = some w ↔ (if negative then -(size : Int) else size) = w.toInt := by
  have hlow : -(2 ^ 255 : Int) ≤ w.toInt := by simpa using BitVec.le_toInt w
  have hhigh : w.toInt < 2 ^ 255 := by simpa using BitVec.toInt_lt (x := w)
  cases negative with
  | true =>
    simp only [ofSize?, if_true, Nat.pow_eq]
    constructor
    · intro h
      split at h
      · next hle =>
        rw [← Option.some.inj h, BitVec.toInt_ofInt, Int.bmod_eq_of_le]
        · omega
        · omega
      · cases h
    · intro h
      rw [if_pos (by omega), h, BitVec.ofInt_toInt]
  | false =>
    simp only [ofSize?, Bool.false_eq_true, if_false, Nat.pow_eq]
    constructor
    · intro h
      split at h
      · next hlt =>
        rw [← Option.some.inj h, ← BitVec.ofInt_natCast, BitVec.toInt_ofInt, Int.bmod_eq_of_le]
        · omega
        · omega
      · cases h
    · intro h
      rw [if_pos (by omega), ← BitVec.ofInt_natCast, h, BitVec.ofInt_toInt]

/-- A text that writes a numeral does not begin with a blank. -/
theorem Numeral.Signed.isBlank_head {n : Numeral} {text : String} (h : n.Signed text) {c : Char}
    {rest : List Char} (htext : text.toList = c :: rest) : Text.isBlank c = false := by
  obtain ⟨opening, cs, hsign, hcs, hn⟩ := h
  obtain ⟨negative, base, ds⟩ := n
  rw [htext] at hcs
  cases hsign with
  | plus =>
    obtain ⟨rfl, -⟩ := List.cons.inj hcs
    rfl
  | minus =>
    obtain ⟨rfl, -⟩ := List.cons.inj hcs
    rfl
  | absent =>
    obtain rfl : c :: rest = cs := hcs
    rcases hn.head with rfl | ⟨d, hd⟩
    · rfl
    · exact isBlank_of_isDigit hd

/-- Of the texts that write a numeral, the empty one alone is refused as blank. -/
theorem Numeral.Signed.isBlankText_iff {n : Numeral} {text : String} (h : n.Signed text) :
    Text.isBlankText text = true ↔ text = "" := by
  constructor
  · intro hblank
    cases htext : text.toList with
    | nil => exact String.toList_eq_nil_iff.mp htext
    | cons c rest =>
      have hc : Text.isBlank c = true := by
        rw [Text.isBlankText, htext] at hblank
        exact List.all_eq_true.mp hblank c List.mem_cons_self
      rw [h.isBlank_head htext] at hc
      cases hc
  · rintro rfl
    rfl

theorem signedChars?_eq_some_iff {text : String} {w : Word} :
    signedChars? text.toList = some w ↔ ∃ n : Numeral, n.Signed text ∧ n.value = w.toInt := by
  simp only [signedChars?, Option.bind_eq_some_iff, ofSize?_eq_some_iff,
    magnitude?_eq_some_iff (sign text.toList).1]
  constructor
  · rintro ⟨size, ⟨n, hsign, hn, rfl⟩, hvalue⟩
    obtain ⟨opening, hopening, htext⟩ := exists_signText text.toList
    refine ⟨n, ⟨opening, _, hsign ▸ hopening, htext, hn⟩, ?_⟩
    rw [Numeral.value, hsign, hvalue]
  · rintro ⟨n, ⟨opening, cs, hsign, htext, hn⟩, hvalue⟩
    rw [htext, sign_append hsign hn]
    exact ⟨n.size, ⟨n, rfl, hn, rfl⟩, hvalue⟩

/-- **A word is read from a text with a sign** exactly when the text is not empty and writes a
numeral whose value it is. -/
theorem signed?_eq_some_iff {text : String} {w : Word} : signed? text = some w ↔
    text ≠ "" ∧ ∃ n : Numeral, n.Signed text ∧ n.value = w.toInt := by
  rw [← signedChars?_eq_some_iff, signed?]
  constructor
  · intro h
    split at h
    · cases h
    · next hblank =>
      refine ⟨?_, h⟩
      rintro rfl
      exact hblank rfl
  · rintro ⟨hne, h⟩
    obtain ⟨n, hn, -⟩ := signedChars?_eq_some_iff.mp h
    rw [if_neg (mt hn.isBlankText_iff.mp hne), h]

theorem isSome_signed?_iff {text : String} : (signed? text).isSome = true ↔
    text ≠ "" ∧ ∃ n : Numeral, n.Signed text ∧ -(2 ^ 255) ≤ n.value ∧ n.value < 2 ^ 255 := by
  rw [Option.isSome_iff_exists]
  simp only [signed?_eq_some_iff]
  constructor
  · rintro ⟨w, hne, n, hn, hvalue⟩
    have hlow : -(2 ^ 255 : Int) ≤ w.toInt := by simpa using BitVec.le_toInt w
    have hhigh : w.toInt < 2 ^ 255 := by simpa using BitVec.toInt_lt (x := w)
    exact ⟨hne, n, hn, by omega, by omega⟩
  · rintro ⟨hne, n, hn, hlow, hhigh⟩
    refine ⟨BitVec.ofInt 256 n.value, hne, n, hn, ?_⟩
    rw [BitVec.toInt_ofInt, Int.bmod_eq_of_le]
    · omega
    · omega

/-! ### Numerals without digits -/

theorem Numeral.Signed.unique {m n : Numeral} {text : String} (hm : m.Signed text)
    (hn : n.Signed text) : m = n := by
  obtain ⟨opening, cs, hsign, htext, hms⟩ := hm
  obtain ⟨opening', cs', hsign', htext', hns⟩ := hn
  have hread := sign_append hsign hms
  rw [← htext, htext', sign_append hsign' hns] at hread
  obtain ⟨hnegative, rfl⟩ := Prod.mk.inj hread
  obtain ⟨hbase, hdigits⟩ := hms.unique hns
  cases m
  cases n
  simp_all

theorem Numeral.Unsigned.unique {m n : Numeral} {text : String} (hm : m.Unsigned text)
    (hn : n.Unsigned text) : m = n := by
  obtain ⟨hbase, hdigits⟩ := hm.2.unique hn.2
  have hnegative : m.negative = n.negative := hm.1.trans hn.1.symm
  cases m
  cases n
  simp_all

/-- Characters without a digit: nothing but a radix and low lines. -/
def Digitless (cs : List Char) : Prop :=
  ∃ base opening count, Opening base opening ∧ cs = opening ++ List.replicate count '_'

/-- A text that may have no sign, and has no digit. -/
def LacksDigits (text : String) : Prop := Digitless text.toList

/-- A text that may have a sign, and has no digit. -/
def LacksSignedDigits (text : String) : Prop :=
  ∃ negative sign cs, SignText negative sign ∧ text.toList = sign ++ cs ∧ Digitless cs

theorem spelled_of_digitless {cs : List Char} (h : Digitless cs) (negative : Bool) :
    ∃ n : Numeral, n.negative = negative ∧ n.digits = [] ∧ n.Spelled cs := by
  obtain ⟨base, opening, count, hopening, hcs⟩ := h
  refine ⟨⟨negative, base, []⟩, rfl, rfl, opening, _, hopening, hcs, ?_⟩
  rw [List.filter_replicate]
  simp

theorem Numeral.Spelled.digits_eq_nil_iff {n : Numeral} {cs : List Char} (h : n.Spelled cs) :
    n.digits = [] ↔ Digitless cs := by
  constructor
  · intro hnil
    obtain ⟨opening, body, hopening, hcs, hdigits⟩ := h
    rw [hnil, List.forall₂_nil_right_iff, List.filter_eq_nil_iff] at hdigits
    refine ⟨n.base, opening, body.length, hopening, ?_⟩
    rw [hcs, List.append_cancel_left_eq, List.eq_replicate_iff]
    exact ⟨rfl, fun c hc => by simpa using hdigits c hc⟩
  · intro hlacks
    obtain ⟨m, -, hnil, hm⟩ := spelled_of_digitless hlacks n.negative
    rw [(h.unique hm).2, hnil]

/-- **A text without sign has no digit** exactly when nothing but a radix and low lines stand in
it. -/
theorem Numeral.Unsigned.digits_eq_nil_iff {n : Numeral} {text : String} (h : n.Unsigned text) :
    n.digits = [] ↔ LacksDigits text :=
  h.2.digits_eq_nil_iff

/-- **A text with a sign has no digit** exactly when nothing but a sign, a radix and low lines stand
in it. -/
theorem Numeral.Signed.digits_eq_nil_iff {n : Numeral} {text : String} (h : n.Signed text) :
    n.digits = [] ↔ LacksSignedDigits text := by
  constructor
  · intro hnil
    obtain ⟨opening, cs, hsign, htext, hn⟩ := h
    exact ⟨n.negative, opening, cs, hsign, htext, hn.digits_eq_nil_iff.mp hnil⟩
  · rintro ⟨negative, opening, cs, hsign, htext, hlacks⟩
    obtain ⟨m, rfl, hnil, hm⟩ := spelled_of_digitless hlacks negative
    rw [h.unique ⟨opening, cs, hsign, htext, hm⟩, hnil]

theorem digitless_iff {cs : List Char} :
    Digitless cs ↔ (radix cs).2.all (· == '_') = true := by
  constructor
  · intro hlacks
    obtain ⟨n, -, hnil, hn⟩ := spelled_of_digitless hlacks false
    have hdigits := (Numeral.spelled_iff.mp hn).2
    rw [hnil, List.forall₂_nil_right_iff, List.filter_eq_nil_iff] at hdigits
    simpa using hdigits
  · intro hlines
    obtain ⟨opening, hopening, hcs⟩ := exists_opening cs
    have hall : ∀ c ∈ (radix cs).2, c = '_' := by simpa using hlines
    refine ⟨_, opening, (radix cs).2.length, hopening, ?_⟩
    rwa [← List.eq_replicate_length.mpr hall]

theorem lacksSignedDigits_iff {text : String} :
    LacksSignedDigits text ↔ Digitless (sign text.toList).2 := by
  constructor
  · rintro ⟨negative, opening, cs, hsign, htext, hlacks⟩
    obtain ⟨n, rfl, -, hn⟩ := spelled_of_digitless hlacks negative
    rwa [htext, sign_append hsign hn]
  · intro hlacks
    obtain ⟨opening, hsign, htext⟩ := exists_signText text.toList
    exact ⟨_, opening, _, hsign, htext, hlacks⟩

instance (cs : List Char) : Decidable (Digitless cs) := decidable_of_iff _ digitless_iff.symm

instance (text : String) : Decidable (LacksDigits text) :=
  inferInstanceAs (Decidable (Digitless text.toList))

instance (text : String) : Decidable (LacksSignedDigits text) :=
  decidable_of_iff _ lacksSignedDigits_iff.symm

theorem Numeral.value_of_digits_eq_nil {n : Numeral} (h : n.digits = []) : n.value = 0 := by
  have hsize : n.size = 0 := by
    rw [Numeral.size, h]
    rfl
  rw [Numeral.value, hsize]
  simp

/-! ### Decimal texts -/

/-- The decimal digits of a number spell a numeral of its size. -/
theorem exists_spelled_toDigits (negative : Bool) (size : Nat) :
    ∃ n : Numeral, n.negative = negative ∧ n.Spelled (Nat.toDigits 10 size) ∧ n.size = size := by
  rw [← magnitude?_eq_some_iff]
  have hplain : (Nat.toDigits 10 size).filter (· ≠ '_') = Nat.toDigits 10 size := by
    rw [List.filter_eq_self]
    intro c hc
    simp only [decide_eq_true_eq]
    rintro rfl
    exact Nat.underscore_not_in_toDigits hc
  have hread := Text.Numeral.continueDigits_toDigits size
  obtain ⟨ds, hds, -⟩ := (continueDigits_eq_some_iff (by decide)).mp hread
  rw [magnitude?, radix_of_decimal (hplain.symm ▸ hds)]
  exact (congrArg (continueDigits 10 0) hplain).trans hread

/-- **The decimal text of a word is read back.** -/
theorem unsigned?_unsignedText (w : Word) : unsigned? (unsignedText w) = some w := by
  obtain ⟨n, hsign, hn, hsize⟩ := exists_spelled_toDigits false w.toNat
  refine unsigned?_eq_some_iff.mpr ⟨n, ⟨hsign, ?_⟩, ?_⟩
  · rw [unsignedText, Nat.toString_eq_repr, Nat.toList_repr]
    exact hn
  · rw [Numeral.value, hsign, hsize]
    rfl

theorem exists_signed_toString (i : Int) :
    ∃ n : Numeral, n.Signed (toString i) ∧ n.value = i := by
  cases i with
  | ofNat size =>
    obtain ⟨n, hsign, hn, hsize⟩ := exists_spelled_toDigits false size
    refine ⟨n, ⟨[], _, hsign ▸ .absent, ?_, hn⟩, ?_⟩
    · exact Nat.toList_repr
    · rw [Numeral.value, hsign, hsize]
      rfl
  | negSucc size =>
    obtain ⟨n, hsign, hn, hsize⟩ := exists_spelled_toDigits true (size + 1)
    refine ⟨n, ⟨['-'], _, hsign ▸ .minus, ?_, hn⟩, ?_⟩
    · rw [← Nat.toList_repr]
      exact String.toList_append
    · rw [Numeral.value, hsign, hsize]
      rfl

theorem toString_ne_empty (i : Int) : toString i ≠ "" := by
  intro h
  have hnil : (toString i).toList = [] := by rw [h, String.toList_empty]
  cases i with
  | ofNat size => exact Nat.toDigits_ne_nil (Nat.toList_repr.symm.trans hnil)
  | negSucc size =>
    have hcons : (toString (Int.negSucc size)).toList = '-' :: (size + 1).repr.toList :=
      String.toList_append
    rw [hcons] at hnil
    cases hnil

/-- **The decimal text of a word with a sign is read back.** -/
theorem signed?_signedText (w : Word) : signed? (signedText w) = some w := by
  obtain ⟨n, hn, hvalue⟩ := exists_signed_toString w.toInt
  exact signed?_eq_some_iff.mpr ⟨toString_ne_empty _, n, hn, hvalue⟩

end PriceRelay.Word
