import Mathlib.Data.List.Basic
import Mathlib.Tactic.IntervalCases
import PriceRelay.Json.Reader
import PriceRelay.Json.Writer
import PriceRelay.Proofs.Text.Numeral
/-!
# Written trees are read back

The writer has one text for a tree, and the reader finds the tree in it again. What follows the text
is left alone, which is why trees can stand inside trees.

* `Json.wellFormed` holds of trees whose numbers are written as JSON writes them,
* `Json.Reader.stringBody_write`, `Json.Reader.number_write` and `Json.Reader.value_write` read back
  a string, a number and a tree, whatever follows,
* `Json.parse?_compact` reads back a text.
-/

namespace PriceRelay.Json

/-! ### Well-formed trees -/

/-- A run of one digit at least. -/
def isDigits (ds : List Char) : Bool := !ds.isEmpty && ds.all Char.isDigit

/-- Whether a number can be written: digits everywhere, and no zero in front of others. -/
def Number.wellFormed (n : Number) : Bool :=
  isDigits n.whole && (n.whole == ['0'] || n.whole.head? != some '0') &&
    n.fraction.all isDigits && n.exponent.all fun e => isDigits e.2

mutual

/-- Whether all numbers of a tree can be written. -/
def wellFormed : Json → Bool
  | .number n => n.wellFormed
  | .array items => wellFormedItems items
  | .object members => wellFormedMembers members
  | _ => true

/-- `wellFormed` for every item. -/
def wellFormedItems : List Json → Bool
  | [] => true
  | j :: js => wellFormed j && wellFormedItems js

/-- `wellFormed` for every member. -/
def wellFormedMembers : List (Option String × Json) → Bool
  | [] => true
  | (_, j) :: ms => wellFormed j && wellFormedMembers ms

end

namespace Reader

/-! ### Strings -/

/-- A character is written as four digits, for want of a shorter escape. -/
def isUnit (c : Char) : Bool :=
  c.toNat < 0x20 && !(['\x08', '\x0c', '\n', '\r', '\t'].contains c)

/-- The piece that a written character is read as. -/
def pieceOf (c : Char) : Piece := if isUnit c then .unit c.toNat else .char c

theorem unitOf_encodeByte {n : Nat} (h : n < 0x20) :
    ∃ hi lo, Text.Hex.encodeByte n.toUInt8 = [hi, lo] ∧ unitOf '0' '0' hi lo = some n := by
  refine ⟨_, _, rfl, ?_⟩
  interval_cases n <;> rfl

/-- A character that stands for itself is read as itself. -/
theorem stringBody_cons {c : Char} (hquote : c ≠ '"') (hslash : c ≠ '\\') (hc : 0x20 ≤ c.toNat)
    (rest : List Char) :
    stringBody (c :: rest) = (stringBody rest).map fun r => (.char c :: r.1, r.2) := by
  rw [stringBody.eq_def]
  split
  · next h => cases h
  · next h => exact absurd (List.cons.inj h).1 hquote
  · next h => exact absurd (List.cons.inj h).1 hslash
  · next h => exact absurd (List.cons.inj h).1 hslash
  · next h =>
    obtain ⟨rfl, rfl⟩ := List.cons.inj h
    have hplain : ¬ ((decide (c.toNat < 0x20) || c == '\\') = true) := by
      simp [hslash]
      omega
    rw [if_neg hplain]

/-- A written character is read as its piece, and the rest is left. -/
theorem stringBody_character (c : Char) (rest : List Char) :
    stringBody (Writer.character c ++ rest) =
      (stringBody rest).map fun r => (pieceOf c :: r.1, r.2) := by
  by_cases hunit : isUnit c = true
  · have hc : c.toNat < 0x20 ∧ c ≠ '\x08' ∧ c ≠ '\x0c' ∧ c ≠ '\n' ∧ c ≠ '\r' ∧ c ≠ '\t' := by
      simpa [isUnit] using hunit
    obtain ⟨hsmall, hb, hf, hn, hr, ht⟩ := hc
    have hquote : c ≠ '"' := by
      rintro rfl
      cases hunit
    have hslash : c ≠ '\\' := by
      rintro rfl
      cases hunit
    obtain ⟨hi, lo, hdigits, hvalue⟩ := unitOf_encodeByte hsmall
    have hwritten : Writer.character c = ['\\', 'u', '0', '0', hi, lo] := by
      simp [Writer.character, *]
    have hpiece : pieceOf c = .unit c.toNat := if_pos hunit
    rw [hwritten, hpiece]
    simp only [List.cons_append, List.nil_append, stringBody, hvalue, Option.bind_some]
  · have hpiece : pieceOf c = .char c := if_neg hunit
    rw [hpiece]
    unfold Writer.character
    simp only [beq_iff_eq]
    -- the short escapes, and then a character that stands for itself
    split
    · next h => rw [h]; rfl
    split
    · next h => rw [h]; rfl
    split
    · next h => rw [h]; rfl
    split
    · next h => rw [h]; rfl
    split
    · next h => rw [h]; rfl
    split
    · next h => rw [h]; rfl
    split
    · next h => rw [h]; rfl
    next hquote hslash hb hf hn hr ht =>
      have hc : 0x20 ≤ c.toNat := by
        by_contra hsmall
        apply hunit
        simp [isUnit, *]
        omega
      rw [if_neg (by omega)]
      exact stringBody_cons hquote hslash hc rest

theorem stringBody_write (cs rest : List Char) :
    stringBody (cs.flatMap Writer.character ++ '"' :: rest) = some (cs.map pieceOf, rest) := by
  induction cs with
  | nil => rfl
  | cons c cs ih =>
    rw [List.flatMap_cons, List.append_assoc, stringBody_character, ih]
    rfl

/-- A unit that is no half of a pair stands for its character. -/
theorem assemble_unit {n : Nat} (h : n < 0x20) (rest : List Piece) :
    assemble (.unit n :: rest) = (assemble rest).map (Char.ofNat n :: ·) := by
  rw [assemble.eq_def]
  simp only
  rw [if_neg (by omega), if_neg (by omega)]

theorem assemble_map_pieceOf (cs : List Char) : assemble (cs.map pieceOf) = some cs := by
  induction cs with
  | nil => rfl
  | cons c cs ih =>
    rw [List.map_cons]
    by_cases hunit : isUnit c = true
    · have hsmall : c.toNat < 0x20 := by
        have h := hunit
        simp only [isUnit, Bool.and_eq_true, decide_eq_true_eq] at h
        exact h.1
      have hpiece : pieceOf c = .unit c.toNat := if_pos hunit
      rw [hpiece, assemble_unit hsmall, ih, Char.ofNat_toNat]
      rfl
    · have hpiece : pieceOf c = .char c := if_neg hunit
      rw [hpiece, assemble, ih]
      rfl

theorem string_none : Writer.string none = ['"', '\\', 'u', 'd', '8', '0', '0', '"'] := by
  decide

theorem string_some (s : String) :
    Writer.string (some s) = '"' :: (s.toList.flatMap Writer.character ++ ['"']) :=
  rfl

/-- **A written string is read back**, and what follows its closing quote is left. -/
theorem string_write (s : Option String) (rest : List Char) :
    ∃ body, Writer.string s ++ rest = '"' :: body ∧ string body = some (s, rest) := by
  cases s with
  | none =>
    refine ⟨'\\' :: 'u' :: 'd' :: '8' :: '0' :: '0' :: '"' :: rest, ?_, ?_⟩
    · rw [string_none]
      rfl
    · have hunit : unitOf 'd' '8' '0' '0' = some 0xD800 := rfl
      have hhalf : assemble [.unit 0xD800] = none := rfl
      simp only [string, stringBody, hunit, Option.bind_some, Option.map_some, hhalf,
        Option.map_none]
  | some s =>
    refine ⟨s.toList.flatMap Writer.character ++ '"' :: rest, ?_, ?_⟩
    · rw [string_some, List.cons_append, List.append_assoc, List.singleton_append]
    · rw [string, stringBody_write, Option.map_some, assemble_map_pieceOf, Option.map_some,
        String.ofList_toList]

/-! ### Numbers -/

/-- What follows is not read as more of a number. -/
def Stops (rest : List Char) : Prop := ∀ c ∈ rest.head?, c = ',' ∨ c = ']' ∨ c = '\x7d'

/-- What follows is not read as more digits. -/
def NoDigit (rest : List Char) : Prop := ∀ c ∈ rest.head?, c.isDigit = false

theorem Stops.noDigit {rest : List Char} (h : Stops rest) : NoDigit rest := by
  intro c hc
  rcases h c hc with rfl | rfl | rfl <;> rfl

theorem isDigits_iff {ds : List Char} :
    isDigits ds = true ↔ ds ≠ [] ∧ ∀ c ∈ ds, c.isDigit = true := by
  simp [isDigits]

theorem digits_append {ds rest : List Char} (hds : isDigits ds = true) (hrest : NoDigit rest) :
    digits (ds ++ rest) = some (ds, rest) := by
  obtain ⟨hne, hall⟩ := isDigits_iff.mp hds
  have hstop : rest.takeWhile Char.isDigit = [] ∧ rest.dropWhile Char.isDigit = rest := by
    cases rest with
    | nil => exact ⟨rfl, rfl⟩
    | cons c rest =>
      have hc : c.isDigit = false := hrest c rfl
      simp [hc]
  rw [digits, List.takeWhile_append_of_pos hall, List.dropWhile_append_of_pos hall, hstop.1,
    hstop.2, List.append_nil, if_neg]
  simpa [List.isEmpty_iff] using hne

theorem whole_append {ds rest : List Char} (hds : isDigits ds = true)
    (hzero : ds = ['0'] ∨ ds.head? ≠ some '0') (hrest : NoDigit rest) :
    whole (ds ++ rest) = some (ds, rest) := by
  rcases hzero with rfl | hzero
  · rfl
  · have hread := digits_append hds hrest
    cases ds with
    | nil => cases hds
    | cons c ds =>
      have hc : c ≠ '0' := by simpa using hzero
      rw [List.cons_append] at hread ⊢
      unfold whole
      split
      · next h => exact absurd (List.cons.inj h).1 hc
      · exact hread

/-- What stands for the fraction of a number. -/
def fractionText (ds : Option (List Char)) : List Char :=
  match ds with
  | none => []
  | some ds => '.' :: ds

/-- What stands for the exponent of a number. -/
def exponentText (e : Option (Bool × List Char)) : List Char :=
  match e with
  | none => []
  | some (neg, ds) => 'e' :: (if neg then ['-'] else []) ++ ds

theorem fraction_write {ds : Option (List Char)} {rest : List Char}
    (hds : ds.all isDigits = true) (hrest : NoDigit rest) (hpoint : rest.head? ≠ some '.') :
    fraction (fractionText ds ++ rest) = some (ds, rest) := by
  cases ds with
  | none =>
    rw [fractionText, List.nil_append]
    unfold fraction
    split
    · exact absurd rfl hpoint
    · rfl
  | some ds =>
    rw [fractionText, List.cons_append, fraction, digits_append hds hrest, Option.map_some]

/-- Digits have no sign in front. -/
theorem head_of_isDigits {ds : List Char} (hds : isDigits ds = true) :
    ∃ c cs, ds = c :: cs ∧ c.isDigit = true := by
  obtain ⟨hne, hall⟩ := isDigits_iff.mp hds
  obtain ⟨c, ds, rfl⟩ := List.exists_cons_of_ne_nil hne
  exact ⟨c, ds, rfl, hall c List.mem_cons_self⟩

theorem exponent_write {e : Option (Bool × List Char)} {rest : List Char}
    (he : (e.all fun e => isDigits e.2) = true) (hrest : Stops rest) :
    exponent (exponentText e ++ rest) = some (e, rest) := by
  rcases e with _ | ⟨neg, ds⟩
  · rw [exponentText, List.nil_append]
    cases rest with
    | nil => rfl
    | cons c rest => rcases hrest c rfl with rfl | rfl | rfl <;> rfl
  · have hds : isDigits ds = true := he
    have hread := digits_append hds hrest.noDigit
    cases neg with
    | true => simp [exponentText, exponent, hread]
    | false =>
      obtain ⟨c, cs, rfl, hdigit⟩ := head_of_isDigits hds
      have htext : exponentText (some (false, c :: cs)) ++ rest = 'e' :: c :: (cs ++ rest) := rfl
      rw [List.cons_append] at hread
      rw [htext]
      unfold exponent
      simp only [beq_self_eq_true, Bool.true_or, if_true]
      split
      · next h =>
        obtain ⟨rfl, -⟩ := List.cons.inj h
        cases hdigit
      · next h =>
        obtain ⟨rfl, -⟩ := List.cons.inj h
        cases hdigit
      · rw [hread, Option.map_some]

/-- What stands behind the fraction of a number does not go on with it. -/
theorem exponentText_append_stops (e : Option (Bool × List Char)) {rest : List Char}
    (hrest : Stops rest) :
    NoDigit (exponentText e ++ rest) ∧ (exponentText e ++ rest).head? ≠ some '.' := by
  cases e with
  | some e => exact ⟨fun c hc => by obtain rfl := Option.some.inj hc; rfl, by simp [exponentText]⟩
  | none =>
    rw [exponentText, List.nil_append]
    refine ⟨hrest.noDigit, fun hpoint => ?_⟩
    rcases hrest '.' hpoint with h | h | h <;> cases h

theorem fractionText_append_noDigit (ds : Option (List Char)) {rest : List Char}
    (hrest : NoDigit rest) : NoDigit (fractionText ds ++ rest) := by
  cases ds with
  | none => exact hrest
  | some ds =>
    intro c hc
    obtain rfl := Option.some.inj hc
    rfl

/-- **A written number is read back**, if what follows does not go on with it. -/
theorem number_write {n : Number} {rest : List Char} (hn : n.wellFormed = true)
    (hrest : Stops rest) : number (Writer.number n ++ rest) = some (n, rest) := by
  obtain ⟨negative, ws, f, e⟩ := n
  simp only [Number.wellFormed, Bool.and_eq_true, Bool.or_eq_true, beq_iff_eq, bne_iff_ne] at hn
  obtain ⟨⟨⟨hwhole, hzero⟩, hfraction⟩, hexponent⟩ := hn
  obtain ⟨hdigit, hpoint⟩ := exponentText_append_stops e hrest
  have hread (negative : Bool) :
      unsigned negative (ws ++ (fractionText f ++ (exponentText e ++ rest))) =
        some (⟨negative, ws, f, e⟩, rest) := by
    rw [unsigned, whole_append hwhole hzero (fractionText_append_noDigit f hdigit),
      Option.bind_some, fraction_write hfraction hdigit hpoint, Option.bind_some,
      exponent_write hexponent hrest, Option.map_some]
  have htext : Writer.number ⟨negative, ws, f, e⟩ ++ rest =
      (if negative then ['-'] else []) ++
        (ws ++ (fractionText f ++ (exponentText e ++ rest))) := by
    rw [← List.append_assoc ws, ← List.append_assoc, ← List.append_assoc, ← List.append_assoc]
    rfl
  rw [htext]
  cases negative with
  | true => exact hread true
  | false =>
    obtain ⟨c, cs, rfl, hc⟩ := head_of_isDigits hwhole
    rw [if_neg Bool.false_ne_true, List.nil_append]
    rw [List.cons_append] at hread ⊢
    unfold number
    split
    · next h =>
      obtain ⟨rfl, -⟩ := List.cons.inj h
      cases hc
    · exact hread false

/-! ### Trees -/

/-- A number begins with a digit or a minus sign. -/
theorem number_head {n : Number} (hn : n.wellFormed = true) :
    ∃ c cs, Writer.number n = c :: cs ∧ (c = '-' ∨ c.isDigit = true) := by
  obtain ⟨negative, ws, f, e⟩ := n
  simp only [Number.wellFormed, Bool.and_eq_true] at hn
  obtain ⟨c, cs, rfl, hc⟩ := head_of_isDigits hn.1.1.1
  cases negative with
  | true => exact ⟨'-', _, rfl, .inl rfl⟩
  | false => exact ⟨c, _, rfl, .inr hc⟩

theorem value_number {c : Char} (hc : c = '-' ∨ c.isDigit = true) (fuel : Nat) (cs : List Char) :
    value (fuel + 1) (c :: cs) = (number (c :: cs)).map fun r => (.number r.1, r.2) := by
  have hne (d : Char) (hd : d ≠ '-' ∧ d.isDigit = false) : c ≠ d := by
    rintro rfl
    rcases hc with rfl | hc
    · exact hd.1 rfl
    · rw [hd.2] at hc
      cases hc
  rw [value.eq_def]
  simp only
  split
  · next h => exact absurd (List.cons.inj h).1 (hne 'n' (by decide))
  · next h => exact absurd (List.cons.inj h).1 (hne 't' (by decide))
  · next h => exact absurd (List.cons.inj h).1 (hne 'f' (by decide))
  · next h => exact absurd (List.cons.inj h).1 (hne '"' (by decide))
  · next h => exact absurd (List.cons.inj h).1 (hne '[' (by decide))
  · next h => exact absurd (List.cons.inj h).1 (hne '\x7b' (by decide))
  · rfl

/-- No text of a tree begins with a blank or a closing bracket. -/
theorem write_head {j : Json} (hj : j.wellFormed = true) :
    ∃ c cs, j.write = c :: cs ∧ isSpace c = false ∧ c ≠ ']' := by
  cases j with
  | null => exact ⟨'n', _, rfl, rfl, by decide⟩
  | bool b =>
    cases b with
    | true => exact ⟨'t', _, rfl, rfl, by decide⟩
    | false => exact ⟨'f', _, rfl, rfl, by decide⟩
  | number n =>
    obtain ⟨c, cs, hcs, hc⟩ := number_head hj
    refine ⟨c, cs, hcs, ?_, ?_⟩
    · by_contra hspace
      simp only [isSpace, Bool.not_eq_false, Bool.or_eq_true, beq_iff_eq] at hspace
      rcases hspace with ((rfl | rfl) | rfl) | rfl <;> revert hc <;> decide
    · rintro rfl
      revert hc
      decide
  | text s =>
    obtain ⟨body, hbody, -⟩ := string_write s []
    rw [List.append_nil] at hbody
    exact ⟨'"', body, hbody, rfl, by decide⟩
  | array items => cases items <;> exact ⟨'[', _, rfl, rfl, by decide⟩
  | object members =>
    rcases members with _ | ⟨⟨name, j⟩, ms⟩ <;> exact ⟨'\x7b', _, rfl, rfl, by decide⟩

theorem skipSpace_cons {c : Char} (hc : isSpace c = false) (cs : List Char) :
    skipSpace (c :: cs) = c :: cs := by
  rw [skipSpace, List.dropWhile_cons_of_neg]
  rw [hc]
  exact Bool.false_ne_true

theorem stops_writeItems (js : List Json) (rest : List Char) : Stops (writeItems js ++ rest) := by
  cases js <;> intro c hc <;> obtain rfl := Option.some.inj hc <;> simp

theorem stops_writeMembers (ms : List (Option String × Json)) (rest : List Char) :
    Stops (writeMembers ms ++ rest) := by
  cases ms <;> intro c hc <;> obtain rfl := Option.some.inj hc <;> simp

/-- Blanks in front of a written tree are none. -/
theorem skipSpace_write {j : Json} (hj : j.wellFormed = true) (rest : List Char) :
    skipSpace (j.write ++ rest) = j.write ++ rest := by
  obtain ⟨c, cs, hcs, hspace, -⟩ := write_head hj
  rw [hcs, List.cons_append, skipSpace_cons hspace]

/-- A list that is not empty is read item by item. -/
theorem value_array {j : Json} (hj : j.wellFormed = true) (fuel : Nat) (rest : List Char) :
    value (fuel + 1) ('[' :: (j.write ++ rest)) =
      (elements fuel (j.write ++ rest)).map fun r => (.array r.1, r.2) := by
  obtain ⟨c, cs, hcs, hspace, hc⟩ := write_head hj
  rw [value, skipSpace_write hj, hcs, List.cons_append]
  split
  · next h => exact absurd (List.cons.inj h).1 hc
  · rfl

/-- An object that is not empty is read member by member. -/
theorem value_object (name : Option String) (fuel : Nat) (rest : List Char) :
    value (fuel + 1) ('\x7b' :: (Writer.string name ++ rest)) =
      (members fuel (Writer.string name ++ rest)).map fun r => (.object r.1, r.2) := by
  obtain ⟨body, hbody, -⟩ := string_write name rest
  rw [hbody]
  rfl

mutual

/-- **A written tree is read back**, and what follows is left, with any fuel that its length
allows. -/
theorem value_write : (j : Json) → j.wellFormed = true → (fuel : Nat) → j.write.length ≤ fuel →
    (rest : List Char) → Stops rest → value fuel (j.write ++ rest) = some (j, rest)
  | .null, _, fuel + 1, _, rest, _ => rfl
  | .bool true, _, fuel + 1, _, rest, _ => rfl
  | .bool false, _, fuel + 1, _, rest, _ => rfl
  | .number n, hn, fuel + 1, _, rest, hrest => by
    have hread := number_write hn hrest
    obtain ⟨c, cs, hcs, hc⟩ := number_head hn
    rw [hcs] at hread
    rw [write, hcs, List.cons_append, value_number hc, ← List.cons_append, hread, Option.map_some]
  | .text s, _, fuel + 1, _, rest, _ => by
    obtain ⟨body, hbody, hread⟩ := string_write s rest
    rw [write, hbody, value, hread, Option.map_some]
  | .array [], _, fuel + 1, _, rest, _ => rfl
  | .array (j :: js), hjs, fuel + 1, hfuel, rest, _ => by
    have hj : j.wellFormed = true := by
      simp only [wellFormed, wellFormedItems, Bool.and_eq_true] at hjs
      exact hjs.1
    have hlength : j.write.length + (writeItems js).length ≤ fuel := by
      simp only [write, List.length_append, List.length_cons] at hfuel
      omega
    have hread := elements_write (j :: js) hjs fuel j js rfl hlength rest
    rw [write, List.append_assoc, List.cons_append, value_array hj, hread, Option.map_some]
  | .object [], _, fuel + 1, _, rest, _ => rfl
  | .object ((name, j) :: ms), hms, fuel + 1, hfuel, rest, _ => by
    have hlength : j.write.length + (writeMembers ms).length ≤ fuel := by
      simp only [write, List.length_append, List.length_cons] at hfuel
      omega
    have hread := members_write ((name, j) :: ms) hms fuel name j ms rfl hlength rest
    rw [write, List.append_assoc, List.append_assoc, List.cons_append, value_object, hread,
      Option.map_some]
  | j, hj, 0, hfuel, _, _ => by
    obtain ⟨c, cs, hcs, -⟩ := write_head hj
    rw [hcs] at hfuel
    cases hfuel

/-- Written items are read back to the closing bracket. -/
theorem elements_write : (items : List Json) → wellFormedItems items = true → (fuel : Nat) →
    (j : Json) → (js : List Json) → items = j :: js →
    j.write.length + (writeItems js).length ≤ fuel → (rest : List Char) →
    elements fuel (j.write ++ (writeItems js ++ rest)) = some (items, rest)
  | j :: js, hjs, fuel + 1, _, _, rfl, hfuel, rest => by
    obtain ⟨hj, hjs⟩ : j.wellFormed = true ∧ wellFormedItems js = true := by
      simpa only [wellFormedItems, Bool.and_eq_true] using hjs
    have hclose : 1 ≤ (writeItems js).length := by cases js <;> simp [writeItems]
    have hread := value_write j hj fuel (by omega) _ (stops_writeItems js rest)
    rw [elements, hread, Option.bind_some]
    cases js with
    | nil => rfl
    | cons k js =>
      have hk : k.wellFormed = true := by
        simp only [wellFormedItems, Bool.and_eq_true] at hjs
        exact hjs.1
      have hlength : k.write.length + (writeItems js).length ≤ fuel := by
        simp only [writeItems, List.length_append, List.length_cons] at hfuel
        omega
      have hrest := elements_write (k :: js) hjs fuel k js rfl hlength rest
      rw [writeItems, List.append_assoc, List.cons_append, skipSpace_cons rfl]
      simp only [skipSpace_write hk, hrest, Option.map_some]
  | j :: js, hjs, 0, _, _, rfl, hfuel, _ => by
    have hclose : 1 ≤ (writeItems js).length := by cases js <;> simp [writeItems]
    omega

/-- Written members are read back to the closing brace. -/
theorem members_write : (all : List (Option String × Json)) → wellFormedMembers all = true →
    (fuel : Nat) → (name : Option String) → (j : Json) → (ms : List (Option String × Json)) →
    all = (name, j) :: ms → j.write.length + (writeMembers ms).length ≤ fuel →
    (rest : List Char) →
    members fuel (Writer.string name ++ (':' :: j.write ++ (writeMembers ms ++ rest))) =
      some (all, rest)
  | (name, j) :: ms, hms, fuel + 1, _, _, _, rfl, hfuel, rest => by
    obtain ⟨hj, hms⟩ : j.wellFormed = true ∧ wellFormedMembers ms = true := by
      simpa only [wellFormedMembers, Bool.and_eq_true] using hms
    have hclose : 1 ≤ (writeMembers ms).length := by
      rcases ms with _ | ⟨⟨next, k⟩, ms⟩ <;> simp [writeMembers]
    have hread := value_write j hj fuel (by omega) _ (stops_writeMembers ms rest)
    obtain ⟨body, hbody, hname⟩ :=
      string_write name (':' :: j.write ++ (writeMembers ms ++ rest))
    rw [hbody, members, hname, Option.bind_some, List.cons_append, skipSpace_cons rfl]
    simp only [skipSpace_write hj, hread, Option.bind_some]
    rcases ms with _ | ⟨⟨next, k⟩, ms⟩
    · rfl
    · have hlength : k.write.length + (writeMembers ms).length ≤ fuel := by
        simp only [writeMembers, List.length_append, List.length_cons] at hfuel
        omega
      have hrest := members_write ((next, k) :: ms) hms fuel next k ms rfl hlength rest
      obtain ⟨body', hbody', -⟩ :=
        string_write next (':' :: k.write ++ (writeMembers ms ++ rest))
      rw [writeMembers, List.append_assoc, List.append_assoc, List.cons_append,
        skipSpace_cons rfl]
      rw [hbody'] at hrest ⊢
      simp only [skipSpace_cons (show isSpace '"' = false from rfl), hrest, Option.map_some]
  | (name, j) :: ms, hms, 0, _, _, _, rfl, hfuel, _ => by
    have hclose : 1 ≤ (writeMembers ms).length := by
      rcases ms with _ | ⟨⟨next, k⟩, ms⟩ <;> simp [writeMembers]
    omega

end

end Reader

/-- **The text of a tree is read back as that tree.** -/
theorem parse?_compact {j : Json} (hj : j.wellFormed = true) : parse? j.compact = some j := by
  have hread := Reader.value_write j hj (j.write.length + 1) (by omega) [] nofun
  rw [List.append_nil] at hread
  have hspace := Reader.skipSpace_write hj []
  rw [List.append_nil] at hspace
  rw [parse?, compact, String.toList_ofList, Reader.document, hspace, hread]
  rfl

/-- A whole number can be written. -/
theorem wellFormed_int (i : Int) : (int i).wellFormed = true := by
  have hdigits : isDigits (Nat.toDigits 10 i.natAbs) = true :=
    Reader.isDigits_iff.mpr ⟨Nat.toDigits_ne_nil, fun c hc => Text.Numeral.isDigit_toDigits hc⟩
  rw [int, wellFormed, Nat.toString_eq_repr, Nat.toList_repr, Number.wellFormed, hdigits]
  by_cases hzero : i.natAbs = 0
  · rw [hzero]
    rfl
  · simpa using .inr (Text.Numeral.head?_toDigits hzero)

end PriceRelay.Json
