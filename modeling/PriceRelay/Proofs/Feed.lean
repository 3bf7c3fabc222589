import Mathlib.Data.List.Basic
import PriceRelay.Cache.Basic
import PriceRelay.Proofs.List
/-!
# Keys tell feeds apart

A feed is filed under its network and its key, and the key runs the source and the identifier
together. Nothing is lost by that: the openings of two sources are never the beginnings of one text,
whatever an embedder's source is called, because an escaped name holds no colon and the opening ends
with one. Nor is anything lost where a feed is displayed: the number of its network stands behind the
last at sign.

* `Source.escape_eq_replaceChar` says that a name is escaped in two rounds, and which comes first,
* `Source.openingChars_append_inj` is the statement on lists of characters,
* `Source.keyOf_inj`, `Source.identifierOf?_keyOf` and `Feed.address_inj` are what the cache uses,
* `Feed.told_apart` says it all of keys, openings and displayed feeds.
-/

namespace PriceRelay

namespace Source

/-! ### Escaped names -/

/-- The three ways in which a character is written. -/
theorem escapeChar_cases (c : Char) :
    (c = '%' ∧ escapeChar c = ['%', '2', '5']) ∨ (c = ':' ∧ escapeChar c = ['%', '3', 'A']) ∨
      (c ≠ '%' ∧ c ≠ ':' ∧ escapeChar c = [c]) := by
  by_cases hp : c = '%'
  · exact .inl ⟨hp, by rw [escapeChar, if_pos hp]⟩
  · by_cases hc : c = ':'
    · exact .inr (.inl ⟨hc, by rw [escapeChar, if_neg hp, if_pos hc]⟩)
    · exact .inr (.inr ⟨hp, hc, by rw [escapeChar, if_neg hp, if_neg hc]⟩)

/-- An escaped character and what follows it determine both. -/
theorem escapeChar_append_inj {c d : Char} {x y : List Char}
    (h : escapeChar c ++ x = escapeChar d ++ y) : c = d ∧ x = y := by
  rcases escapeChar_cases c with ⟨hc, ec⟩ | ⟨hc, ec⟩ | ⟨hp, -, ec⟩ <;>
    rcases escapeChar_cases d with ⟨hd, ed⟩ | ⟨hd, ed⟩ | ⟨hp', -, ed⟩ <;>
    rw [ec, ed] at h <;> grind

/-- No escaped character begins with a colon. -/
theorem cons_colon_ne_escapeChar_append (c : Char) (x y : List Char) :
    ':' :: x ≠ escapeChar c ++ y := by
  intro h
  rcases escapeChar_cases c with ⟨-, hc⟩ | ⟨-, hc⟩ | ⟨-, hk, hc⟩ <;> rw [hc] at h
  · simp at h
  · simp at h
  · exact hk (List.cons.inj h).1.symm

/-- An escaped name ends at the first colon, so the name and what follows the colon can be read
off. -/
theorem escape_append_colon_inj :
    ∀ {a b x y : List Char}, escape a ++ ':' :: x = escape b ++ ':' :: y → a = b ∧ x = y := by
  intro a
  induction a with
  | nil =>
    intro b x y h
    cases b with
    | nil => exact ⟨rfl, (List.cons.inj h).2⟩
    | cons d b =>
      rw [escape, escape, List.flatMap_cons, List.append_assoc] at h
      exact absurd h (cons_colon_ne_escapeChar_append d _ _)
  | cons c a ih =>
    intro b x y h
    -- one name is longer: its next character would have to begin with the colon of the other
    cases b with
    | nil =>
      rw [escape, escape, List.flatMap_cons, List.append_assoc] at h
      exact absurd h.symm (cons_colon_ne_escapeChar_append c _ _)
    | cons d b =>
      rw [escape, escape, List.flatMap_cons, List.flatMap_cons, List.append_assoc,
        List.append_assoc] at h
      obtain ⟨rfl, hrest⟩ := escapeChar_append_inj h
      obtain ⟨rfl, hxy⟩ := ih hrest
      exact ⟨rfl, hxy⟩

/-- A text in which each `c` is written as some other characters. -/
def replaceChar (c : Char) (written text : List Char) : List Char :=
  text.flatMap fun d => if d = c then written else [d]

/-- **A name is escaped in two rounds**, the percent signs first. In the other order those that the
colons are written with would be escaped as well. -/
theorem escape_eq_replaceChar (name : List Char) :
    escape name = replaceChar ':' ['%', '3', 'A'] (replaceChar '%' ['%', '2', '5'] name) := by
  simp only [escape, replaceChar, List.flatMap_assoc]
  refine List.flatMap_congr fun c _ => ?_
  rcases escapeChar_cases c with ⟨rfl, h⟩ | ⟨rfl, h⟩ | ⟨hp, hc, h⟩ <;> simp [*]

/-! ### Openings -/

theorem openingChars_chainlink :
    chainlink.openingChars = ['c', 'h', 'a', 'i', 'n', 'l', 'i', 'n', 'k', ':'] :=
  rfl

theorem openingChars_pyth : pyth.openingChars = ['p', 'y', 't', 'h', ':'] := rfl

theorem openingChars_custom (name : String) :
    (custom name).openingChars =
      ['c', 'u', 's', 't', 'o', 'm', ':'] ++ (escape name.toList ++ [':']) :=
  rfl

/-- **No opening begins another source's key**: the source and the rest can be read off. -/
theorem openingChars_append_inj {s t : Source} {x y : List Char}
    (h : s.openingChars ++ x = t.openingChars ++ y) : s = t ∧ x = y := by
  cases s with
  | chainlink =>
    cases t with
    | chainlink => exact ⟨rfl, List.append_cancel_left h⟩
    | pyth => simp [openingChars_chainlink, openingChars_pyth] at h
    | custom b => simp [openingChars_chainlink, openingChars_custom] at h
  | pyth =>
    cases t with
    | chainlink => simp [openingChars_chainlink, openingChars_pyth] at h
    | pyth => exact ⟨rfl, List.append_cancel_left h⟩
    | custom b => simp [openingChars_pyth, openingChars_custom] at h
  | custom a =>
    cases t with
    | chainlink => simp [openingChars_chainlink, openingChars_custom] at h
    | pyth => simp [openingChars_pyth, openingChars_custom] at h
    | custom b =>
      simp only [openingChars_custom, List.append_assoc, List.append_cancel_left_eq,
        List.singleton_append] at h
      obtain ⟨hname, hrest⟩ := escape_append_colon_inj h
      exact ⟨congrArg custom (String.toList_inj.mp hname), hrest⟩

theorem keyOf_inj {s t : Source} {i j : String} (h : s.keyOf i = t.keyOf j) : s = t ∧ i = j := by
  obtain ⟨hs, hi⟩ := openingChars_append_inj (String.ofList_inj.mp h)
  exact ⟨hs, String.toList_inj.mp hi⟩

theorem keyOf_of_identifierOf? {s : Source} {k i : String} (h : s.identifierOf? k = some i) :
    s.keyOf i = k := by
  obtain ⟨rest, hrest, rfl⟩ := Option.map_eq_some_iff.mp h
  have happ := List.isPrefixOf?_eq_some_iff_append_eq.mp hrest
  rw [keyOf, String.toList_ofList, happ, String.ofList_toList]

/-- Taking an opening off a key works for the key's own source only, and gives the identifier. -/
theorem identifierOf?_keyOf {s t : Source} {i j : String} :
    s.identifierOf? (t.keyOf j) = some i ↔ s = t ∧ i = j := by
  rw [identifierOf?, keyOf, String.toList_ofList, Option.map_eq_some_iff]
  constructor
  · rintro ⟨rest, hrest, rfl⟩
    obtain ⟨hs, hr⟩ := openingChars_append_inj (List.isPrefixOf?_eq_some_iff_append_eq.mp hrest)
    exact ⟨hs, by rw [hr, String.ofList_toList]⟩
  · rintro ⟨rfl, rfl⟩
    exact ⟨i.toList, List.isPrefixOf?_eq_some_iff_append_eq.mpr rfl, String.ofList_toList⟩

theorem opening_append (s : Source) (i : String) : s.opening ++ i = s.keyOf i := by
  rw [opening, keyOf, String.ofList_append, String.ofList_toList]

/-- To take an opening off a text is to find what stands behind it. -/
theorem identifierOf?_eq_some_iff {s : Source} {k i : String} :
    s.identifierOf? k = some i ↔ s.opening ++ i = k := by
  rw [opening_append]
  constructor
  · exact keyOf_of_identifierOf?
  · rintro rfl
    exact identifierOf?_keyOf.mpr ⟨rfl, rfl⟩

/-- Of all sources only its own has an opening that a key begins with. -/
theorem opening_prefix_keyOf_iff {s t : Source} {j : String} :
    s.opening.toList <+: (t.keyOf j).toList ↔ s = t := by
  rw [opening, keyOf, String.toList_ofList, String.toList_ofList]
  constructor
  · rintro ⟨rest, hrest⟩
    exact (openingChars_append_inj hrest).1
  · rintro rfl
    exact List.prefix_append _ _

end Source

namespace Feed

theorem key_inj {f g : Feed} (hn : f.network = g.network) (hk : f.key = g.key) : f = g := by
  obtain ⟨hs, hi⟩ := Source.keyOf_inj hk
  cases f
  cases g
  simp_all

/-- **Two feeds are never filed under one address.** -/
theorem address_inj {f g : Feed} : f.address = g.address ↔ f = g := by
  constructor
  · intro h
    exact key_inj (congrArg Address.network h) (congrArg Address.key h)
  · rintro rfl
    rfl

/-! ### Displayed feeds -/

theorem repr_inj {m n : Nat} (h : m.repr.toList = n.repr.toList) : m = n := by
  have hdigits := congrArg (Nat.ofDigitChars 10 · 0) h
  simpa [Nat.ofDigitChars_toDigits] using hdigits

theorem at_notMem_repr (n : Nat) : '@' ∉ n.repr.toList := by
  intro h
  rw [Nat.toList_repr] at h
  have hdigit : '@'.isDigit = true := Nat.isDigit_of_mem_toDigits (by decide) (by decide) h
  revert hdigit
  decide

/-- **A displayed feed can be read back**, though an identifier may hold at signs and digits. -/
theorem display_inj {f g : Feed} (h : f.display = g.display) : f = g := by
  have hchars := congrArg String.toList h
  simp only [display, String.toList_append, List.append_assoc] at hchars
  obtain ⟨hkey, hnetwork⟩ :=
    append_cons_inj_of_notMem_right (at_notMem_repr _) (at_notMem_repr _) hchars
  have hsame : f.network = g.network := UInt64.toNat_inj.mp (repr_inj hnetwork)
  exact key_inj hsame (String.toList_inj.mp hkey)

/-- **Texts tell feeds apart**, whatever the sources and the identifiers are called. Two keys are the
same only if their sources and identifiers are; the opening of a source is the beginning of its own
keys and of no others, and to take it off gives the identifier; and no two feeds are displayed
alike. -/
theorem told_apart (s t : Source) (i j : String) (f g : Feed) :
    (s.keyOf i = t.keyOf j ↔ s = t ∧ i = j) ∧
    (s.opening.toList <+: (t.keyOf j).toList ↔ s = t) ∧
    (∀ k, s.identifierOf? k = some i ↔ s.opening ++ i = k) ∧
    (s.identifierOf? (t.keyOf j) = if s = t then some j else none) ∧
    (f.display = g.display ↔ f = g) := by
  refine ⟨⟨Source.keyOf_inj, ?_⟩, Source.opening_prefix_keyOf_iff,
    fun k => Source.identifierOf?_eq_some_iff, ?_, display_inj, congrArg display⟩
  · rintro ⟨rfl, rfl⟩
    rfl
  · split
    · next h => exact Source.identifierOf?_keyOf.mpr ⟨h, rfl⟩
    · next h =>
      apply Option.eq_none_iff_forall_ne_some.mpr
      intro k hk
      exact h (Source.identifierOf?_keyOf.mp hk).1

end Feed

/-! ### The order of addresses -/

namespace Address

instance : Std.Irrefl (α := Address) (· < ·) where
  irrefl a h := by
    rcases h with h | ⟨-, h⟩
    · exact UInt64.lt_irrefl _ h
    · exact String.lt_irrefl _ h

instance : Trans (α := Address) (· < ·) (· < ·) (· < ·) where
  trans := by
    intro a b c hab hbc
    rcases hab with hab | ⟨hab, hk⟩
    · rcases hbc with hbc | ⟨hbc, -⟩
      · exact .inl (UInt64.lt_trans hab hbc)
      · exact .inl (hbc ▸ hab)
    · rcases hbc with hbc | ⟨hbc, hk'⟩
      · exact .inl (hab ▸ hbc)
      · exact .inr ⟨hab.trans hbc, String.lt_trans hk hk'⟩

instance : Std.Trichotomous (α := Address) (· < ·) where
  trichotomous a b hab hba := by
    have hn : a.network = b.network := by
      apply UInt64.le_antisymm
      · exact UInt64.not_lt.mp fun h => hba (.inl h)
      · exact UInt64.not_lt.mp fun h => hab (.inl h)
    have hk : a.key = b.key := by
      apply String.le_antisymm
      · exact String.not_lt.mp fun h => hba (.inr ⟨hn.symm, h⟩)
      · exact String.not_lt.mp fun h => hab (.inr ⟨hn, h⟩)
    cases a
    cases b
    simp_all

end Address

end PriceRelay
