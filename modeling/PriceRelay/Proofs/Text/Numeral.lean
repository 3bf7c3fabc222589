import Mathlib.Data.List.Forall2
import Mathlib.Data.Nat.Digits.Defs
import Mathlib.Tactic.IntervalCases
import Mathlib.Tactic.Ring
import PriceRelay.Text.Numeral
/-!
# What digits stand for

A numeral is read in one pass that keeps a running value. What it comes to is the value of the
digits in their radix, and the decimal text of a number comes to that number.

* `IsDigit` says which characters write a digit,
* `continueDigits_eq_some_iff` is the value of a run of digits,
* `ofDigits_toDigits` reads back the digits of a number.
-/

namespace PriceRelay.Text.Numeral

/-- The character `c` writes the digit `d` of a radix up to sixteen: letters stand for ten and up,
and their case does not matter. -/
def IsDigit (radix : Nat) (c : Char) (d : Nat) : Prop := d < radix ∧ Nat.digitChar d = c.toLower

/-! ### Single digits -/

theorem toNat_toLower (c : Char) :
    c.toLower.toNat = if 65 ≤ c.toNat ∧ c.toNat ≤ 90 then c.toNat + 32 else c.toNat := by
  unfold Char.toLower
  by_cases h : 65 ≤ c.toNat ∧ c.toNat ≤ 90
  · rw [dif_pos (show c.val ≥ 'A'.val ∧ c.val ≤ 'Z'.val from h), if_pos h]
    change (c.val.toNat + 32) % 2 ^ 32 = c.val.toNat + 32
    have hsmall : c.val.toNat ≤ 90 := h.2
    omega
  · rw [dif_neg (show ¬ (c.val ≥ 'A'.val ∧ c.val ≤ 'Z'.val) from h), if_neg h]

theorem toNat_digitChar {d : Nat} (h : d < 16) :
    (Nat.digitChar d).toNat = if d < 10 then 48 + d else 87 + d := by
  interval_cases d <;> rfl

theorem digit?_eq_some_iff {c : Char} {d : Nat} : digit? c = some d ↔
    (48 ≤ c.toNat ∧ c.toNat ≤ 57 ∧ d + 48 = c.toNat) ∨
      (97 ≤ c.toNat ∧ c.toNat ≤ 122 ∧ d + 87 = c.toNat) ∨
      (65 ≤ c.toNat ∧ c.toNat ≤ 90 ∧ d + 55 = c.toNat) := by
  have hle (a b : Char) : a ≤ b ↔ a.toNat ≤ b.toNat := Iff.rfl
  simp only [digit?, Bool.and_eq_true, decide_eq_true_eq, hle, Char.reduceToNat]
  split
  · simp
    omega
  · split
    · simp
      omega
    · split
      · simp
        omega
      · simp
        omega

theorem digitIn?_eq_some_iff {radix : Nat} (hradix : radix ≤ 16) {c : Char} {d : Nat} :
    digitIn? radix c = some d ↔ IsDigit radix c d := by
  have hdigit : digitIn? radix c = some d ↔ d < radix ∧ digit? c = some d := by
    unfold digitIn?
    cases digit? c with
    | none => simp
    | some e =>
      simp only [Option.bind_some]
      split <;> simp <;> omega
  rw [hdigit, IsDigit]
  refine and_congr_right fun hd => ?_
  rw [← Char.toNat_inj, toNat_digitChar (by omega), toNat_toLower, digit?_eq_some_iff]
  split <;> split <;> omega

/-- A character writes one digit at most. -/
theorem IsDigit.unique {radix : Nat} (hradix : radix ≤ 16) {c : Char} {d e : Nat}
    (hd : IsDigit radix c d) (he : IsDigit radix c e) : d = e := by
  rw [← digitIn?_eq_some_iff hradix] at hd he
  exact Option.some.inj (hd.symm.trans he)

/-- A digit is no letter, so it stays as it is. -/
theorem toLower_of_isDigit {c : Char} (h : c.isDigit = true) : c.toLower = c := by
  have hrange : 48 ≤ c.toNat ∧ c.toNat ≤ 57 := by
    simpa [Char.isDigit, UInt32.le_iff_toNat_le] using h
  rw [← Char.toNat_inj, toNat_toLower, if_neg (by omega)]

theorem map_toLower_of_isDigit {cs : List Char} (h : ∀ c ∈ cs, c.isDigit = true) :
    cs.map Char.toLower = cs :=
  (List.map_congr_left fun c hc => toLower_of_isDigit (h c hc)).trans (List.map_id _)

/-! ### Runs of digits -/

/-- **The running value of a numeral is the value of its digits**, behind what was read before. -/
theorem continueDigits_eq_some_iff {radix : Nat} (hradix : radix ≤ 16) {acc n : Nat}
    {cs : List Char} : continueDigits radix acc cs = some n ↔
      ∃ ds, List.Forall₂ (IsDigit radix) cs ds ∧
        acc * radix ^ ds.length + Nat.ofDigits radix ds.reverse = n := by
  induction cs generalizing acc with
  | nil => simp [continueDigits]
  | cons c cs ih =>
    simp only [continueDigits, Option.bind_eq_some_iff, digitIn?_eq_some_iff hradix, ih,
      List.forall₂_cons_left_iff]
    have hvalue (d : Nat) (ds : List Nat) :
        (acc * radix + d) * radix ^ ds.length + Nat.ofDigits radix ds.reverse =
          acc * radix ^ (d :: ds).length + Nat.ofDigits radix (d :: ds).reverse := by
      rw [List.reverse_cons, Nat.ofDigits_append, Nat.ofDigits_singleton, List.length_reverse,
        List.length_cons]
      ring
    constructor
    · rintro ⟨d, hd, ds, hds, rfl⟩
      exact ⟨d :: ds, ⟨d, ds, hd, hds, rfl⟩, (hvalue d ds).symm⟩
    · rintro ⟨_, ⟨d, ds, hd, hds, rfl⟩, rfl⟩
      exact ⟨d, hd, ds, hds, hvalue d ds⟩

theorem digitIn?_of_isDigit {c : Char} (h : c.isDigit = true) :
    digitIn? 10 c = some (c.toNat - 48) := by
  have hrange : 48 ≤ c.toNat ∧ c.toNat ≤ 57 := by
    simpa [Char.isDigit, UInt32.le_iff_toNat_le] using h
  have hdigit : digit? c = some (c.toNat - 48) := digit?_eq_some_iff.mpr (.inl (by omega))
  rw [digitIn?, hdigit, Option.bind_some, if_pos (by omega)]

theorem continueDigits_of_isDigit {cs : List Char} (h : ∀ c ∈ cs, c.isDigit = true) (acc : Nat) :
    continueDigits 10 acc cs = some (Nat.ofDigitChars 10 cs acc) := by
  induction cs generalizing acc with
  | nil => rfl
  | cons c cs ih =>
    have hc : c.isDigit = true := h c List.mem_cons_self
    have hcs : ∀ c ∈ cs, c.isDigit = true := fun c hc => h c (List.mem_cons_of_mem _ hc)
    rw [continueDigits, digitIn?_of_isDigit hc, Option.bind_some, ih hcs, Nat.ofDigitChars_cons,
      Nat.mul_comm]
    rfl

theorem isDigit_toDigits {n : Nat} {c : Char} (h : c ∈ Nat.toDigits 10 n) : c.isDigit = true :=
  Nat.isDigit_of_mem_toDigits (by decide) (by decide) h

/-- No zero stands in front of the digits of a number. -/
theorem head?_toDigits {n : Nat} (h : n ≠ 0) : (Nat.toDigits 10 n).head? ≠ some '0' := by
  induction n using Nat.strong_induction_on with
  | _ n ih =>
    rw [Nat.toDigits_eq_if (by decide)]
    split
    · simpa using h
    · rw [List.head?_append_of_ne_nil _ Nat.toDigits_ne_nil]
      exact ih (n / 10) (by omega) (by omega)

theorem continueDigits_toDigits (n : Nat) :
    continueDigits 10 0 (Nat.toDigits 10 n) = some n := by
  rw [continueDigits_of_isDigit fun c hc => isDigit_toDigits hc,
    Nat.ofDigitChars_toDigits (by decide) (by decide)]

/-- **The decimal digits of a number are read back.** -/
theorem ofDigits_toDigits (n : Nat) : ofDigits 10 (Nat.toDigits 10 n) = some n := by
  have hne : (Nat.toDigits 10 n).isEmpty = false := by
    rw [List.isEmpty_eq_false_iff]
    exact Nat.toDigits_ne_nil
  rw [ofDigits, hne, continueDigits_toDigits]
  rfl

end PriceRelay.Text.Numeral
