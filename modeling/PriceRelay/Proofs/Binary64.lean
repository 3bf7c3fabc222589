import Mathlib.Data.List.TakeWhile
import PriceRelay.Binary64.Text
import PriceRelay.Proofs.Text.Numeral
/-!
# Large whole numbers in double precision

A whole number from `2^63` on that fits in a word has eleven bits more than a mantissa. It is
rounded to a multiple of 2048, and what is read back as a word is that multiple, or the largest word
where the multiple is past it.

* `Binary64.toNat_roundedWord_ofNat` says what such a number comes back as,
* `Binary64.roundedWord_ofNat_eq_iff` which of them come back as they were,
* `Binary64.parse?_toDigits` says that decimal digits stand for their number.
-/

namespace PriceRelay.Binary64

/-! ### Rounding -/

/-- The bound of words, past which a number is put at the largest word. -/
theorem toNat_ofNat_min (n : Nat) :
    (UInt64.ofNat (min n (UInt64.size - 1))).toNat = min n (UInt64.size - 1) :=
  UInt64.toNat_ofNat_of_lt (Nat.lt_of_le_of_lt (Nat.min_le_right _ _) (by decide))

theorem roundHalfUp_one (n : Nat) : roundHalfUp n 1 = n := by
  rw [roundHalfUp]
  omega

/-- A quotient times its divisor is what was divided just if there was nothing to round. -/
theorem mul_roundHalfEven_eq_iff {n den : Nat} (hden : 0 < den) :
    den * roundHalfEven n den = n ↔ den ∣ n := by
  refine ⟨fun h => ⟨_, h.symm⟩, fun h => ?_⟩
  have hrest : n % den = 0 := Nat.mod_eq_zero_of_dvd h
  rw [roundHalfEven, hrest, Nat.mul_zero, if_pos hden, Nat.mul_div_cancel' h]

section Large

variable {n : Nat}

/-- The unit in the last place is 2048. -/
theorem unit_of_large (hlow : 9223372036854775808 ≤ n) (hhigh : n < UInt64.size) :
    unit n 1 = 11 := by
  have hlog : Nat.log2 n = 63 := (Nat.log2_eq_iff (by omega)).mpr ⟨hlow, hhigh⟩
  have hone : Nat.log2 1 = 0 := by decide
  have hguess : ((63 : Nat) : Int) - ((0 : Nat) : Int) - 52 = 11 := by decide
  -- the guess holds, since 2048 goes into the number as often as a mantissa has room for
  have hpast : ¬ n < 1 * Nat.pow 2 11 * Nat.pow 2 52 := Nat.not_lt.mpr hlow
  rw [unit, hlog, hone, hguess, inUnits, if_pos (by decide)]
  change max (if n < 1 * Nat.pow 2 11 * Nat.pow 2 52 then _ else _) _ = _
  rw [if_neg hpast]
  decide

/-- **A large whole number comes back as a multiple of 2048**, or as the largest word. -/
theorem toNat_roundedWord_ofNat (hlow : 9223372036854775808 ≤ n) (hhigh : n < UInt64.size) :
    (ofNat n).roundedWord.toNat = min (2048 * roundHalfEven n 2048) (UInt64.size - 1) := by
  have hunits : inUnits n 1 11 = (n, 2048) := rfl
  rw [ofNat, ofRatio, if_neg (by omega), unit_of_large hlow hhigh]
  simp only [hunits]
  split
  · next hfull =>
    -- the mantissa is full, so the number is the next power of two
    rw [hfull]
    rfl
  · change (UInt64.ofNat (min (roundHalfUp (roundHalfEven n 2048 * 2048) 1) _)).toNat = _
    rw [toNat_ofNat_min, roundHalfUp_one, Nat.mul_comm]

/-- **Those that come back as they were.** -/
theorem roundedWord_ofNat_eq_iff (hlow : 9223372036854775808 ≤ n) (hhigh : n < UInt64.size) :
    (ofNat n).roundedWord.toNat = n ↔ 2048 ∣ n ∨ n = 18446744073709551615 := by
  rw [toNat_roundedWord_ofNat hlow hhigh, ← mul_roundHalfEven_eq_iff (by decide)]
  have hsize : UInt64.size - 1 = 18446744073709551615 := rfl
  have hlast : roundHalfEven 18446744073709551615 2048 = 9007199254740992 := by decide
  constructor
  · intro h
    omega
  · rintro (h | rfl)
    · omega
    · rw [hlast]
      rfl

end Large

/-! ### Digits -/

theorem pointed_of_isDigit {ds : List Char} (h : ∀ c ∈ ds, c.isDigit = true) :
    pointed ds = (Text.Numeral.ofDigits 10 ds).map fun n => (n, 0) := by
  have htake : ds.takeWhile Char.isDigit = ds := List.takeWhile_eq_self_iff.mpr h
  have hdrop : ds.dropWhile Char.isDigit = [] := List.dropWhile_eq_nil_iff.mpr h
  unfold pointed
  rw [htake, hdrop]

theorem opensPower_of_isDigit {c : Char} (h : c.isDigit = true) : opensPower c = false := by
  have he : c ≠ 'e' := by
    rintro rfl
    cases h
  have hE : c ≠ 'E' := by
    rintro rfl
    cases h
  rw [opensPower, beq_false_of_ne he, beq_false_of_ne hE]
  rfl

/-- A run of digits is no word, and has neither a sign nor a point nor a power. -/
theorem parse?_of_isDigit {ds : List Char} (h : ∀ c ∈ ds, c.isDigit = true) :
    parse? ds = (Text.Numeral.ofDigits 10 ds).map fun n => ofDecimal false n 0 := by
  have hlower := Text.Numeral.map_toLower_of_isDigit h
  have hword {w : String} (hw : 'n' ∈ w.toList) : String.ofList ds ≠ w := by
    rintro rfl
    rw [String.toList_ofList] at hw
    cases h 'n' hw
  have hpower : ∀ c ∈ ds, (!opensPower c) = true := fun c hc => by
    rw [opensPower_of_isDigit (h c hc)]
    rfl
  have hunsigned : unsigned? false ds =
      (pointed ds).map fun p => ofDecimal false p.1 (-(p.2 : Int)) := by
    have htake := List.takeWhile_eq_self_iff.mpr hpower
    have hdrop := List.dropWhile_eq_nil_iff.mpr hpower
    have hinf : String.ofList ds ≠ "inf" := hword (by decide)
    have hinfinity : String.ofList ds ≠ "infinity" := hword (by decide)
    have hnan : String.ofList ds ≠ "nan" := hword (by decide)
    unfold unsigned?
    simp only [hlower, htake, hdrop, hinf, hinfinity, hnan, decide_false, Bool.or_false,
      Bool.false_eq_true, if_false]
  have hparse : parse? ds = unsigned? false ds := by
    unfold parse?
    split
    · cases h '-' List.mem_cons_self
    · cases h '+' List.mem_cons_self
    · rfl
  rw [hparse, hunsigned, pointed_of_isDigit h, Option.map_map]
  rfl

/-- **Decimal digits stand for their number.** -/
theorem parse?_toDigits {n : Nat} (h : n ≠ 0) : parse? (Nat.toDigits 10 n) = some (ofNat n) := by
  have hreach : ¬ (0 : Int) + (Nat.log2 n : Int) / 3 < -400 := by omega
  have hdecimal : ofDecimal false n 0 = ofNat n := by
    unfold ofDecimal
    simp only [h, hreach, if_false]
    rw [if_neg (by decide), if_pos (by decide)]
    exact congrArg (fun m => ofRatio false m 1) (Nat.mul_one n)
  rw [parse?_of_isDigit fun c hc => Text.Numeral.isDigit_toDigits hc,
    Text.Numeral.ofDigits_toDigits, Option.map_some, hdecimal]

end PriceRelay.Binary64
