import Mathlib.Data.List.DropRight
import PriceRelay.Text.Blank
/-!
# Trimmed texts

To trim is to take blanks off both ends, and what comes of it has none there.

* `Text.trim_trim` says that a trimmed text is trimmed,
* `Text.isBlankText_iff` that nothing is left exactly of a text that is all blanks.
-/

namespace PriceRelay.Text

theorem trimChars_eq_rdropWhile (cs : List Char) :
    trimChars cs = (cs.dropWhile isBlank).rdropWhile isBlank :=
  rfl

/-- What is trimmed does not begin with a blank. -/
theorem dropWhile_trimChars (cs : List Char) :
    (trimChars cs).dropWhile isBlank = trimChars cs := by
  rw [List.dropWhile_eq_self_iff]
  intro hpos
  -- what is kept begins as it does before its end is trimmed
  have hkept : trimChars cs <+: cs.dropWhile isBlank := List.rdropWhile_prefix ..
  rw [hkept.getElem hpos]
  exact List.dropWhile_get_zero_not isBlank cs (Nat.lt_of_lt_of_le hpos hkept.length_le)

theorem trimChars_trimChars (cs : List Char) : trimChars (trimChars cs) = trimChars cs := by
  rw [trimChars_eq_rdropWhile (trimChars cs), dropWhile_trimChars, trimChars_eq_rdropWhile,
    List.rdropWhile_idempotent]

theorem trim_trim (s : String) : trim (trim s) = trim s := by
  rw [trim, trim, String.toList_ofList, trimChars_trimChars]

theorem trimChars_eq_nil_iff {cs : List Char} : trimChars cs = [] ↔ ∀ c ∈ cs, isBlank c := by
  rw [trimChars_eq_rdropWhile, List.rdropWhile_eq_nil_iff]
  refine ⟨fun hrest => ?_, fun hall c hc => hall c ((List.dropWhile_suffix isBlank).subset hc)⟩
  -- what the opening blanks leave does not begin with one, so they leave nothing
  have hnil : cs.dropWhile isBlank = [] := by
    rw [← List.dropWhile_idempotent isBlank cs]
    exact List.dropWhile_eq_nil_iff.mpr hrest
  exact List.dropWhile_eq_nil_iff.mp hnil

/-- **A text is blank exactly if trimming leaves nothing of it.** -/
theorem isBlankText_iff {s : String} : isBlankText s = true ↔ trim s = "" := by
  rw [isBlankText, List.all_eq_true, ← trimChars_eq_nil_iff, trim, String.ofList_eq_empty_iff]

end PriceRelay.Text
