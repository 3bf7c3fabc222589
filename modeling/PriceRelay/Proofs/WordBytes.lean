import Mathlib.Data.Nat.Digits.Lemmas
import Mathlib.Tactic.NormNum
import PriceRelay.Word
/-!
# Words as bytes

A word has a form of 32 bytes, the highest first. Read with a sign the bytes are in two's complement,
so a number and the number that is larger by 2 ^ 256 have the same ones.

* `Word.bigEndian` is the value of some bytes, `Word.Holds` says that they are the form of a number,
* `Word.holds_toNat_iff` and `Word.holds_toInt_iff` say that `Word.toBytes` is the form of a word,
* `Word.ofBytes_eq_iff` that `Word.ofBytes` reads it.
-/

namespace PriceRelay.Word

/-- The value of some bytes, the first of them the highest. -/
def bigEndian (bytes : List UInt8) : Nat := Nat.ofDigits 256 (bytes.map UInt8.toNat).reverse

/-- The bytes are the form of a number in 32 bytes, which is in two's complement if it is negative. -/
def Holds (bytes : List UInt8) (i : Int) : Prop :=
  bytes.length = 32 ∧ (bigEndian bytes : Int) = i % 2 ^ 256

/-! ### The value of bytes -/

theorem bigEndian_concat (bytes : List UInt8) (b : UInt8) :
    bigEndian (bytes ++ [b]) = bigEndian bytes * 256 + b.toNat := by
  rw [bigEndian, List.map_append, List.reverse_append, List.map_singleton, List.reverse_singleton,
    List.singleton_append, Nat.ofDigits_cons, bigEndian]
  omega

theorem valueOfBytes_eq_bigEndian (bytes : List UInt8) : valueOfBytes bytes = bigEndian bytes := by
  induction bytes using List.reverseRecOn with
  | nil => rfl
  | append_singleton bytes b ih =>
    rw [bigEndian_concat, ← ih, valueOfBytes, List.foldl_append]
    rfl

theorem bigEndian_lt (bytes : List UInt8) : bigEndian bytes < 256 ^ bytes.length := by
  have hdigits : ∀ d ∈ (bytes.map UInt8.toNat).reverse, d < 256 := by
    intro d hd
    obtain ⟨b, -, rfl⟩ := List.mem_map.mp (List.mem_reverse.mp hd)
    exact b.toNat_lt
  have hlt := Nat.ofDigits_lt_base_pow_length (by decide) hdigits
  rwa [List.length_reverse, List.length_map] at hlt

/-! ### The lowest bytes of a number -/

theorem length_lowBytes (count n : Nat) : (lowBytes count n).length = count := by
  induction count generalizing n with
  | zero => rfl
  | succ count ih => rw [lowBytes, List.length_append, ih, List.length_singleton]

theorem bigEndian_lowBytes (count n : Nat) : bigEndian (lowBytes count n) = n % 256 ^ count := by
  induction count generalizing n with
  | zero => rw [pow_zero, Nat.mod_one]; rfl
  | succ count ih =>
    have hlast : (UInt8.ofNat (n % 256)).toNat = n % 256 := by
      rw [UInt8.toNat_ofNat', Nat.mod_eq_of_lt (Nat.mod_lt _ (by decide))]
    rw [lowBytes, bigEndian_concat, ih, hlast, pow_succ', Nat.mod_mul]
    omega

theorem lowBytes_bigEndian (bytes : List UInt8) :
    lowBytes bytes.length (bigEndian bytes) = bytes := by
  induction bytes using List.reverseRecOn with
  | nil => rfl
  | append_singleton bytes b ih =>
    have hb : b.toNat < 256 := b.toNat_lt
    have hfront : (bigEndian bytes * 256 + b.toNat) / 256 = bigEndian bytes := by omega
    have hlast : (bigEndian bytes * 256 + b.toNat) % 256 = b.toNat := by omega
    rw [List.length_append, List.length_singleton, lowBytes, bigEndian_concat, hfront, hlast, ih,
      UInt8.ofNat_toNat]

/-! ### The bytes of a word -/

theorem two_pow_eq : 2 ^ 256 = 256 ^ 32 := by norm_num

variable {w : Word} {bytes : List UInt8}

theorem length_toBytes (w : Word) : w.toBytes.length = 32 := length_lowBytes ..

theorem bigEndian_toBytes (w : Word) : bigEndian w.toBytes = w.toNat := by
  have hw : w.toNat < 256 ^ 32 := two_pow_eq ▸ w.isLt
  rw [toBytes, bigEndian_lowBytes, Nat.mod_eq_of_lt hw]

theorem eq_toBytes_iff : bytes = w.toBytes ↔ bytes.length = 32 ∧ bigEndian bytes = w.toNat := by
  constructor
  · intro h
    rw [h]
    exact ⟨length_toBytes w, bigEndian_toBytes w⟩
  · rintro ⟨hlength, hvalue⟩
    rw [toBytes, ← hvalue, ← hlength, lowBytes_bigEndian]

/-- **The bytes of a word are its form**, if it is read without sign. -/
theorem holds_toNat_iff : Holds bytes w.toNat ↔ bytes = w.toBytes := by
  have hw : (w.toNat : Int) % 2 ^ 256 = w.toNat :=
    Int.emod_eq_of_lt (Int.natCast_nonneg _) (by exact_mod_cast w.isLt)
  rw [Holds, hw, eq_toBytes_iff, Int.natCast_inj]

/-- **The bytes of a word are its form**, if it is read with a sign. -/
theorem holds_toInt_iff : Holds bytes w.toInt ↔ bytes = w.toBytes := by
  have hsame : w.toInt % 2 ^ 256 = (w.toNat : Int) % 2 ^ 256 := by
    rw [BitVec.toInt_eq_toNat_bmod]
    exact Int.bmod_emod
  rw [← holds_toNat_iff, Holds, Holds, hsame]

theorem ofBytes_eq_iff (hlength : bytes.length = 32) : ofBytes bytes = w ↔ bytes = w.toBytes := by
  have hlt : bigEndian bytes < 2 ^ 256 := by
    have h := bigEndian_lt bytes
    rwa [hlength, ← two_pow_eq] at h
  have hvalue : (ofBytes bytes).toNat = bigEndian bytes := by
    rw [ofBytes, valueOfBytes_eq_bigEndian, BitVec.toNat_ofNat, Nat.mod_eq_of_lt hlt]
  rw [eq_toBytes_iff, ← hvalue, ← BitVec.toNat_inj]
  exact (and_iff_right hlength).symm

end PriceRelay.Word
