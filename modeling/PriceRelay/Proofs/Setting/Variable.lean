import PriceRelay.Proofs.Binary64
import PriceRelay.Setting.Layers
/-!
# What a variable gives

The text of a variable is taken for what it looks like, and read as what is wanted afterwards. So
a value that is written to a variable does not always come back: a whole number from `2^63` on is
taken in double precision, and a text that looks like a truth value or a number is spelled anew.

* `Setting.Kind` is what may be wanted,
* `Setting.Kind.ReadBack` says which values come back, `Setting.Kind.read_written_iff` that it does,
* `Setting.keepsSpelling_of_mem` says that a text keeps its spelling if it has a character that no
  number has.
-/

namespace PriceRelay.Setting

/-- What a scalar is wanted as. -/
inductive Kind
  /-- a number of 64 bits without sign -/
  | word64
  /-- a number of 32 bits without sign -/
  | word32
  /-- a text -/
  | text

/-- A text that looks like a truth value or a number is spelled like what it is taken for. -/
structure KeepsSpelling (s : String) : Prop where
  /-- as a truth value it is in small letters -/
  truth : ∀ w, w = "true" ∨ w = "false" → Text.asciiLower s = w → s = w
  /-- as a whole number it has no plus sign and no zero in front -/
  whole : ∀ i, Text.Numeral.integer? 10 s.toList = some i → s = toString i
  /-- as any other number it is in the fewest digits -/
  real : Text.Numeral.integer? 10 s.toList = none →
    ∀ x, Binary64.parse? s.toList = some x → s = x.plain

namespace Kind

/-- The values of a kind. -/
@[reducible]
def Value : Kind → Type
  | word64 => UInt64
  | word32 => UInt32
  | text => String

/-- Read a value. -/
def read : (k : Kind) → Setting → Option k.Value
  | word64 => format.word64
  | word32 => format.word32
  | text => format.text

/-- A value as plain text. -/
def written : (k : Kind) → k.Value → String
  | word64, v => toString v.toNat
  | word32, v => toString v.toNat
  | text, s => s

/-- The values that come back from a variable. -/
def ReadBack : (k : Kind) → k.Value → Prop
  | word64, v => v.toNat < 9223372036854775808 ∨ 2048 ∣ v.toNat ∨ v.toNat = 18446744073709551615
  | word32, _ => True
  | text, s => KeepsSpelling s

end Kind

/-! ### Numbers -/

theorem integer?_toDigits (n : Nat) : Text.Numeral.integer? 10 (Nat.toDigits 10 n) =
    if n < 9223372036854775808 then some (n : Int) else none := by
  have hsigns : Text.Numeral.integer? 10 (Nat.toDigits 10 n) =
      ((Text.Numeral.ofDigits 10 (Nat.toDigits 10 n)).bind
        (Text.Numeral.upTo (Nat.pow 2 63 - 1))).map Int.ofNat := by
    have hdigit {c : Char} {cs : List Char} (h : Nat.toDigits 10 n = c :: cs) : c.isDigit = true :=
      Text.Numeral.isDigit_toDigits (h ▸ List.mem_cons_self)
    unfold Text.Numeral.integer?
    split
    · next h => cases hdigit h
    · next h => cases hdigit h
    · rfl
  rw [hsigns, Text.Numeral.ofDigits_toDigits, Option.bind_some, Text.Numeral.upTo]
  split
  · next h =>
    rw [if_pos (Nat.lt_succ_of_le h)]
    rfl
  · next h =>
    rw [if_neg fun hlt => h (Nat.le_of_lt_succ hlt)]
    rfl

/-- Digits are in small letters, and no word. -/
theorem asciiLower_toString (n : Nat) : Text.asciiLower (toString n) = toString n := by
  have hlist : (toString n).toList = Nat.toDigits 10 n := Nat.toList_repr
  have hlower : (Nat.toDigits 10 n).map Char.toLower = Nat.toDigits 10 n :=
    Text.Numeral.map_toLower_of_isDigit fun c hc => Text.Numeral.isDigit_toDigits hc
  rw [Text.asciiLower, hlist, hlower, ← hlist, String.ofList_toList]

/-- **A number is taken as it is below `2^63`**, and in double precision from there on. -/
theorem ofVariable_toString (n : Nat) : ofVariable (toString n) =
    if n < 9223372036854775808 then .int n else .real (.ofNat n) := by
  have hlist : (toString n).toList = Nat.toDigits 10 n := Nat.toList_repr
  have hword {w : String} (hw : 'e' ∈ w.toList) : toString n ≠ w := by
    rintro rfl
    rw [hlist] at hw
    cases Text.Numeral.isDigit_toDigits hw
  rw [ofVariable]
  simp only [asciiLower_toString, if_neg (hword (w := "true") (by decide)),
    if_neg (hword (w := "false") (by decide)), hlist, integer?_toDigits]
  by_cases hn : n < 9223372036854775808
  · simp only [if_pos hn]
  · simp only [if_neg hn, Binary64.parse?_toDigits (show n ≠ 0 by omega)]

theorem natural_eq (bound : Nat) (v : Setting) :
    format.natural bound v = v.word?.bind fun n => if n ≤ bound then some n else none := rfl

/-- A whole number is read as itself up to a bound. -/
theorem natural_int {bound n : Nat} (h : n ≤ bound) :
    format.natural bound (.int (n : Int)) = some n := by
  rw [natural_eq, word?, if_pos (Int.natCast_nonneg n), Option.bind_some, Int.toNat_natCast,
    if_pos h]

theorem word64_int (v : UInt64) : format.word64 (.int (v.toNat : Int)) = some v := by
  have hle : v.toNat ≤ UInt64.size - 1 := Nat.le_pred_of_lt v.toNat_lt
  rw [Format.word64, natural_int hle, Option.map_some, UInt64.ofNat_toNat]

theorem word32_int (v : UInt32) : format.word32 (.int (v.toNat : Int)) = some v := by
  have hle : v.toNat ≤ UInt32.size - 1 := Nat.le_pred_of_lt v.toNat_lt
  rw [Format.word32, natural_int hle, Option.map_some, UInt32.ofNat_toNat]

theorem word64_real (x : Binary64) : format.word64 (.real x) = some x.roundedWord := by
  have hle : x.roundedWord.toNat ≤ UInt64.size - 1 := Nat.le_pred_of_lt x.roundedWord.toNat_lt
  rw [Format.word64, natural_eq, word?, Option.bind_some, if_pos hle, Option.map_some,
    UInt64.ofNat_toNat]

theorem word64_written_iff (v : UInt64) :
    format.word64 (ofVariable (toString v.toNat)) = some v ↔ Kind.word64.ReadBack v := by
  rw [ofVariable_toString, Kind.ReadBack]
  split
  · next hsmall => exact iff_of_true (word64_int v) (.inl hsmall)
  · next hlarge =>
    rw [word64_real, Option.some_inj, ← UInt64.toNat_inj,
      Binary64.roundedWord_ofNat_eq_iff (Nat.not_lt.mp hlarge) v.toNat_lt, or_iff_right hlarge]

theorem word32_written (v : UInt32) :
    format.word32 (ofVariable (toString v.toNat)) = some v := by
  have hsmall : v.toNat < 9223372036854775808 := Nat.lt_trans v.toNat_lt (by decide)
  rw [ofVariable_toString, if_pos hsmall, word32_int]

/-! ### Texts -/

/-- A truth word in small letters is no number, so it stays. -/
theorem keepsSpelling_truth {w : String} (hw : w = "true" ∨ w = "false") : KeepsSpelling w := by
  obtain rfl | rfl := hw
  · exact ⟨fun w hw h => h, by decide, by decide⟩
  · exact ⟨fun w hw h => h, by decide, by decide⟩

theorem text?_of_truth {s w : String} (hw : w = "true" ∨ w = "false")
    (h : Text.asciiLower s = w) : text? (ofVariable s) = some w := by
  rw [ofVariable, h]
  obtain rfl | rfl := hw
  · rfl
  · rfl

theorem ofVariable_of_other {s : String}
    (h : ∀ w, w = "true" ∨ w = "false" → Text.asciiLower s ≠ w) :
    ofVariable s = match Text.Numeral.integer? 10 s.toList with
      | some i => .int i
      | none => match Binary64.parse? s.toList with
        | some x => .real x
        | none => .text s :=
  (if_neg (h _ (.inl rfl))).trans (if_neg (h _ (.inr rfl)))

/-- A text comes back if it keeps its spelling. -/
theorem text_ofVariable_iff (s : String) :
    format.text (ofVariable s) = some s ↔ KeepsSpelling s := by
  change text? (ofVariable s) = some s ↔ _
  by_cases hword : ∃ w, (w = "true" ∨ w = "false") ∧ Text.asciiLower s = w
  · obtain ⟨w, hw, h⟩ := hword
    rw [text?_of_truth hw h, Option.some_inj]
    refine ⟨?_, fun hkeeps => (hkeeps.truth w hw h).symm⟩
    rintro rfl
    exact keepsSpelling_truth hw
  · have hother : ∀ w, w = "true" ∨ w = "false" → Text.asciiLower s ≠ w :=
      fun w hw h => hword ⟨w, hw, h⟩
    have htruth : ∀ w, w = "true" ∨ w = "false" → Text.asciiLower s = w → s = w :=
      fun w hw h => absurd h (hother w hw)
    rw [ofVariable_of_other hother]
    cases hint : Text.Numeral.integer? 10 s.toList with
    | some i =>
      refine ⟨fun h => ⟨htruth, ?_, ?_⟩, fun h => congrArg some (h.whole i hint).symm⟩
      · intro j hj
        obtain rfl := Option.some.inj (hint.symm.trans hj)
        exact (Option.some.inj h).symm
      · intro hnone
        cases hint.symm.trans hnone
    | none =>
      have hwhole : ∀ i, Text.Numeral.integer? 10 s.toList = some i → s = toString i :=
        fun i hi => nomatch hint.symm.trans hi
      cases hreal : Binary64.parse? s.toList with
      | some x =>
        refine ⟨fun h => ⟨htruth, hwhole, fun _ y hy => ?_⟩,
          fun h => congrArg some (h.real hint x hreal).symm⟩
        obtain rfl := Option.some.inj (hreal.symm.trans hy)
        exact (Option.some.inj h).symm
      | none => exact iff_of_true rfl ⟨htruth, hwhole, fun _ y hy => nomatch hreal.symm.trans hy⟩

/-- **Which values come back from a variable.** -/
theorem Kind.read_written_iff (k : Kind) (v : k.Value) :
    k.read (ofVariable (k.written v)) = some v ↔ k.ReadBack v := by
  cases k with
  | word64 => exact word64_written_iff v
  | word32 => exact iff_of_true (word32_written v) trivial
  | text => exact text_ofVariable_iff v

/-! ### Characters that no number has -/

/-- A character that a truth value or a number may have. -/
def isNumberChar (c : Char) : Bool := c.isAlphanum || c == '+' || c == '-' || c == '.'

theorem isNumberChar_of_isDigit {c : Char} (h : c.isDigit = true) : isNumberChar c = true := by
  rw [isNumberChar, Char.isAlphanum, h, Bool.or_true]
  rfl

theorem isDigit_of_digitIn? {c : Char} {d : Nat} (h : Text.Numeral.digitIn? 10 c = some d) :
    c.isDigit = true := by
  obtain ⟨e, he, hd⟩ := Option.bind_eq_some_iff.mp h
  split at hd
  · have hrange := Text.Numeral.digit?_eq_some_iff.mp he
    have hlow : 48 ≤ c.toNat ∧ c.toNat ≤ 57 := by omega
    simpa [Char.isDigit, UInt32.le_iff_toNat_le] using hlow
  · cases hd

theorem isDigit_of_continueDigits {acc n : Nat} {ds : List Char}
    (h : Text.Numeral.continueDigits 10 acc ds = some n) : ∀ c ∈ ds, c.isDigit = true := by
  induction ds generalizing acc with
  | nil => exact fun c hc => nomatch hc
  | cons first ds ih =>
    obtain ⟨d, hd, hrest⟩ := Option.bind_eq_some_iff.mp h
    exact List.forall_mem_cons.mpr ⟨isDigit_of_digitIn? hd, ih hrest⟩

theorem isNumberChar_of_ofDigits {ds : List Char} (h : Text.Numeral.ofDigits 10 ds ≠ none) :
    ∀ c ∈ ds, isNumberChar c = true := by
  obtain ⟨n, hn⟩ := Option.ne_none_iff_exists'.mp h
  rw [Text.Numeral.ofDigits] at hn
  split at hn
  · cases hn
  · exact fun c hc => isNumberChar_of_isDigit (isDigit_of_continueDigits hn c hc)

theorem isLower_iff {c : Char} : c.isLower = true ↔ 97 ≤ c.toNat ∧ c.toNat ≤ 122 :=
  Bool.and_eq_true_iff.trans (and_congr decide_eq_true_iff decide_eq_true_iff)

theorem isUpper_iff {c : Char} : c.isUpper = true ↔ 65 ≤ c.toNat ∧ c.toNat ≤ 90 :=
  decide_eq_true_iff

theorem isNumberChar_of_toLower {c : Char} (h : c.toLower.isLower = true) :
    isNumberChar c = true := by
  have hletter : c.isUpper = true ∨ c.isLower = true := by
    rw [isLower_iff, Text.Numeral.toNat_toLower] at h
    rw [isUpper_iff, isLower_iff]
    split at h
    · next hupper => exact .inl hupper
    · exact .inr h
  have halpha : c.isAlpha = true := Bool.or_eq_true_iff.mpr hletter
  rw [isNumberChar, Char.isAlphanum, halpha]
  rfl

/-- The characters of a word in letters of either case. -/
theorem isNumberChar_of_word {cs : List Char} {w : String}
    (h : String.ofList (cs.map Char.toLower) = w) (hw : w.toList.all Char.isLower = true) :
    ∀ c ∈ cs, isNumberChar c = true := by
  intro c hc
  refine isNumberChar_of_toLower (List.all_eq_true.mp hw _ ?_)
  rw [← h, String.toList_ofList]
  exact List.mem_map_of_mem hc

/-- Digits with an optional sign. -/
theorem isNumberChar_of_signed {cs : List Char} (ds : List Char)
    (hds : Text.Numeral.ofDigits 10 ds ≠ none)
    (h : cs = '-' :: ds ∨ cs = '+' :: ds ∨ cs = ds) : ∀ c ∈ cs, isNumberChar c = true := by
  have hdigits := isNumberChar_of_ofDigits hds
  obtain rfl | rfl | rfl := h
  · exact List.forall_mem_cons.mpr ⟨rfl, hdigits⟩
  · exact List.forall_mem_cons.mpr ⟨rfl, hdigits⟩
  · exact hdigits

theorem isNumberChar_of_integer? {cs : List Char} {i : Int}
    (h : Text.Numeral.integer? 10 cs = some i) : ∀ c ∈ cs, isNumberChar c = true := by
  rw [Text.Numeral.integer?.eq_def] at h
  split at h
  · next ds =>
    refine isNumberChar_of_signed ds (fun hnone => ?_) (.inl rfl)
    rw [hnone] at h
    cases h
  · next ds =>
    refine isNumberChar_of_signed ds (fun hnone => ?_) (.inr (.inl rfl))
    rw [hnone] at h
    cases h
  · refine isNumberChar_of_signed _ (fun hnone => ?_) (.inr (.inr rfl))
    rw [hnone] at h
    cases h

theorem isNumberChar_of_pointed {cs : List Char} {p : Nat × Nat}
    (h : Binary64.pointed cs = some p) : ∀ c ∈ cs, isNumberChar c = true := by
  have hbefore : ∀ c ∈ cs.takeWhile Char.isDigit, isNumberChar c = true :=
    fun c hc => isNumberChar_of_isDigit (List.mem_takeWhile_imp hc)
  rw [← List.takeWhile_append_dropWhile (p := Char.isDigit) (l := cs)]
  refine List.forall_mem_append.mpr ⟨hbefore, ?_⟩
  rw [Binary64.pointed] at h
  split at h
  · next hnil => simp [hnil]
  · next after hpoint =>
    split at h
    · next hafter =>
      rw [hpoint]
      exact List.forall_mem_cons.mpr ⟨rfl, fun c hc =>
        isNumberChar_of_isDigit (List.all_eq_true.mp hafter c hc)⟩
    · cases h
  · cases h

theorem isNumberChar_of_power? {cs : List Char} {e : Int} (h : Binary64.power? cs = some e) :
    ∀ c ∈ cs, isNumberChar c = true := by
  rw [Binary64.power?.eq_def] at h
  split at h
  · next ds =>
    refine isNumberChar_of_signed ds (fun hnone => ?_) (.inl rfl)
    rw [hnone] at h
    cases h
  · next ds =>
    refine isNumberChar_of_signed ds (fun hnone => ?_) (.inr (.inl rfl))
    rw [hnone] at h
    cases h
  · refine isNumberChar_of_signed _ (fun hnone => ?_) (.inr (.inr rfl))
    rw [hnone] at h
    cases h

theorem isNumberChar_of_opensPower {c : Char} (h : Binary64.opensPower c = true) :
    isNumberChar c = true := by
  obtain rfl | rfl : c = 'e' ∨ c = 'E' := by simpa [Binary64.opensPower] using h
  · rfl
  · rfl

theorem isNumberChar_of_unsigned? {negative : Bool} {cs : List Char} {x : Binary64}
    (h : Binary64.unsigned? negative cs = some x) : ∀ c ∈ cs, isNumberChar c = true := by
  rw [Binary64.unsigned?] at h
  split at h
  · next hword =>
    rw [Bool.or_eq_true, decide_eq_true_eq, decide_eq_true_eq] at hword
    obtain hword | hword := hword
    · exact isNumberChar_of_word hword (by decide)
    · exact isNumberChar_of_word hword (by decide)
  · split at h
    · next hword => exact isNumberChar_of_word hword (by decide)
    · dsimp only at h
      rw [← List.takeWhile_append_dropWhile (p := fun c => !Binary64.opensPower c) (l := cs)]
      refine List.forall_mem_append.mpr ?_
      split at h
      · next hnil =>
        obtain ⟨p, hp, -⟩ := Option.map_eq_some_iff.mp h
        rw [hnil]
        exact ⟨isNumberChar_of_pointed hp, fun c hc => nomatch hc⟩
      · next mark power hcons =>
        obtain ⟨p, hp, hrest⟩ := Option.bind_eq_some_iff.mp h
        obtain ⟨e, he, -⟩ := Option.map_eq_some_iff.mp hrest
        have hmark : Binary64.opensPower mark = true := by
          have hhead := List.head?_dropWhile_not (fun c => !Binary64.opensPower c) cs
          rw [hcons] at hhead
          simpa using hhead
        rw [hcons]
        exact ⟨isNumberChar_of_pointed hp,
          List.forall_mem_cons.mpr ⟨isNumberChar_of_opensPower hmark, isNumberChar_of_power? he⟩⟩

theorem isNumberChar_of_parse? {cs : List Char} {x : Binary64} (h : Binary64.parse? cs = some x) :
    ∀ c ∈ cs, isNumberChar c = true := by
  rw [Binary64.parse?.eq_def] at h
  split at h
  · exact List.forall_mem_cons.mpr ⟨rfl, isNumberChar_of_unsigned? h⟩
  · exact List.forall_mem_cons.mpr ⟨rfl, isNumberChar_of_unsigned? h⟩
  · exact isNumberChar_of_unsigned? h

/-- **A text keeps its spelling if it has a character that no number has.** -/
theorem keepsSpelling_of_mem {s : String} {c : Char} (hc : c ∈ s.toList)
    (hnot : isNumberChar c = false) : KeepsSpelling s := by
  have hother (h : ∀ c ∈ s.toList, isNumberChar c = true) : False := by
    rw [h c hc] at hnot
    cases hnot
  refine ⟨fun w hw h => ?_, fun i h => ?_, fun _ x h => ?_⟩
  · refine (hother (isNumberChar_of_word h ?_)).elim
    obtain rfl | rfl := hw
    · decide
    · decide
  · exact (hother (isNumberChar_of_integer? h)).elim
  · exact (hother (isNumberChar_of_parse? h)).elim

/-- The address of a server keeps its spelling, for its colon. -/
example : KeepsSpelling "https://hermes.pyth.network" :=
  keepsSpelling_of_mem (c := ':') (by decide) (by decide)

end PriceRelay.Setting
