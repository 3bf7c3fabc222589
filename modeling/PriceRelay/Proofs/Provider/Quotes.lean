import PriceRelay.Proofs.List
import PriceRelay.Proofs.Provider.FeedForm
import PriceRelay.Proofs.Word
/-!
# What becomes of an answer

An answer of the quote service is a list of feeds. Each feed that is legible gives one quote, under
the id by which it was asked for, and the others give none.

* `QuoteReply.FeedText.Legible` says which feeds have numerals that can be read,
* `QuoteReply.answered_iff` says which of the ids that were asked for are given a quote,
* `QuoteReply.digits_iff` says when all numerals that quotes are made of have a digit,
* `QuoteReply.othersKept_iff` says when a change of one feed leaves the quotes of the others alone.
-/

namespace PriceRelay.QuoteReply

variable (unread : Wording)

/-! ### Feeds and their quotes -/

/-- A price text whose two numerals are in range. -/
structure PriceText.Legible (p : PriceText) : Prop where
  /-- the price is not left empty -/
  nonempty : p.price ≠ ""
  /-- the price has a value in the range of words with a sign -/
  price : ∃ n : Word.Numeral, n.Signed p.price ∧ -(2 ^ 255) ≤ n.value ∧ n.value < 2 ^ 255
  /-- the confidence has a value in the range of words without -/
  confidence : ∃ n : Word.Numeral, n.Unsigned p.confidence ∧ n.value < 2 ^ 256

/-- The price texts of a feed: its price, and its moving average if it has one. -/
def FeedText.prices (f : FeedText) : List PriceText := f.price :: f.ema.toList

/-- A feed whose numerals are all in range. -/
def FeedText.Legible (f : FeedText) : Prop := ∀ p ∈ f.prices, p.Legible

/-- The quote of a feed whose texts stand for some words. -/
def FeedText.quoteOf (requested : List String) (f : FeedText) (price : Word × Word)
    (ema : Option (Word × Word)) : Quote where
  identifier := requestedId requested f.id
  magnitude := price.1
  confidence := price.2
  scale := f.price.exponent
  publishTime := f.price.publishTime
  slot := f.slot.getD 0
  ema := ema.map Prod.fst
  emaConfidence := ema.map Prod.snd

theorem PriceText.values?_eq_some_iff {p : PriceText} {w : Word × Word} :
    p.values? = some w ↔
      Word.signed? p.price = some w.1 ∧ Word.unsigned? p.confidence = some w.2 := by
  unfold values?
  cases Word.signed? p.price with
  | none => simp
  | some price =>
    cases Word.unsigned? p.confidence with
    | none => simp
    | some confidence => simp [Prod.ext_iff]

theorem PriceText.isSome_values?_iff {p : PriceText} :
    p.values?.isSome = true ↔ p.Legible := by
  have hboth : p.values?.isSome = true ↔
      (Word.signed? p.price).isSome = true ∧ (Word.unsigned? p.confidence).isSome = true := by
    unfold values?
    cases Word.signed? p.price <;> cases Word.unsigned? p.confidence <;> simp
  rw [hboth, Word.isSome_signed?_iff, Word.isSome_unsigned?_iff]
  constructor
  · rintro ⟨⟨hne, hprice⟩, hconfidence⟩
    exact ⟨hne, hprice, hconfidence⟩
  · rintro ⟨hne, hprice, hconfidence⟩
    exact ⟨⟨hne, hprice⟩, hconfidence⟩

/-- A feed is quoted with the words that its texts stand for. -/
theorem FeedText.quote?_eq_some_iff {requested : List String} {f : FeedText} {q : Quote} :
    f.quote? requested = some q ↔ ∃ price ema, f.price.values? = some price ∧
      f.ema? = some ema ∧ f.quoteOf requested price ema = q := by
  unfold quote?
  cases f.price.values? with
  | none => simp
  | some price =>
    cases f.ema? with
    | none => simp
    | some ema =>
      simp
      rfl

theorem FeedText.isSome_ema?_iff {f : FeedText} :
    f.ema?.isSome = true ↔ ∀ p ∈ f.ema, p.Legible := by
  unfold ema?
  cases f.ema with
  | none => simp
  | some p => simp [PriceText.isSome_values?_iff]

/-- **A feed gives a quote exactly when it is legible.** -/
theorem FeedText.isSome_quote?_iff {requested : List String} {f : FeedText} :
    (f.quote? requested).isSome = true ↔ f.Legible := by
  have hboth : (f.quote? requested).isSome = true ↔
      f.price.values?.isSome = true ∧ f.ema?.isSome = true := by
    unfold quote?
    cases f.price.values? <;> cases f.ema? <;> simp
  rw [hboth, PriceText.isSome_values?_iff, isSome_ema?_iff]
  simp [Legible, prices]

theorem FeedText.identifier_of_quote? {requested : List String} {f : FeedText} {q : Quote}
    (h : f.quote? requested = some q) : q.identifier = requestedId requested f.id := by
  obtain ⟨price, ema, -, -, rfl⟩ := quote?_eq_some_iff.mp h
  rfl

theorem read_of_feeds (requested : List String) {text : String} {feeds : List FeedText}
    (h : (Json.parse? text).bind feeds? = some feeds) :
    read unread requested text = .ok (feeds.filterMap (FeedText.quote? requested)) := by
  rw [read, h]

/-! ### Ids and their spellings -/

/-- An id is the last one requested of its normal form. -/
def IsLast (requested : List String) (id : String) : Prop :=
  ∃ before after, requested = before ++ id :: after ∧ ∀ s ∈ after, normalId s ≠ normalId id

/-- An id without what spellings may differ in: one opening `0x`, and the case of its letters. -/
def bare (id : String) : List Char :=
  match id.toList.map Char.toLower with
  | '0' :: 'x' :: rest => rest
  | cs => cs

/-- Two ids are the same up to the case of letters and an opening `0x`. -/
def SameId (a b : String) : Prop := bare a = bare b

/-- Characters that begin with a zero and a capital `X`, behind small openings or at once. -/
inductive OpensWithCapital : List Char → Prop
  /-- a zero and a capital `X` -/
  | here (rest : List Char) : OpensWithCapital ('0' :: 'X' :: rest)
  /-- one small opening more -/
  | behind {cs : List Char} (h : OpensWithCapital cs) : OpensWithCapital ('0' :: 'x' :: cs)

/-- An id has no opening with a capital letter. -/
def IsPlain (id : String) : Prop := ¬ OpensWithCapital id.toList

/-- Of the ids requested in one normal form, the last one is what quotes are given under. -/
theorem requestedId_eq_iff {requested : List String} {r id : String} (hr : r ∈ requested) :
    requestedId requested id = r ↔ IsLast requested r ∧ normalId id = normalId r := by
  have hfind : requested.reverse.find? (fun s => normalId s = normalId id) = some r ↔
      IsLast requested r ∧ normalId id = normalId r := by
    simp only [find?_reverse_eq_some_iff, IsLast, decide_eq_true_eq, decide_eq_false_iff_not]
    constructor
    · rintro ⟨hid, hlast⟩
      exact ⟨hid ▸ hlast, hid.symm⟩
    · rintro ⟨hlast, hid⟩
      exact ⟨hid.symm, hid ▸ hlast⟩
  rw [← hfind, requestedId]
  cases hfound : requested.reverse.find? (fun s => normalId s = normalId id) with
  | some s => simp
  | none =>
    -- then the id itself is not requested either
    have hne := List.find?_eq_none.mp hfound r (List.mem_reverse.mpr hr)
    simp only [Option.getD_none, reduceCtorEq, iff_false]
    rintro rfl
    simp at hne

theorem toLower_eq_zero_iff {c : Char} : c.toLower = '0' ↔ c = '0' := by
  simp only [← Char.toNat_inj, Text.Numeral.toNat_toLower, Char.reduceToNat]
  split <;> omega

theorem toLower_eq_x_iff {c : Char} : c.toLower = 'x' ↔ c = 'x' ∨ c = 'X' := by
  simp only [← Char.toNat_inj, Text.Numeral.toNat_toLower, Char.reduceToNat]
  split <;> omega

theorem toLower_toLower (c : Char) : c.toLower.toLower = c.toLower := by
  rw [← Char.toNat_inj, Text.Numeral.toNat_toLower c.toLower, Text.Numeral.toNat_toLower c]
  split
  · rw [if_neg (by omega)]
  · rfl

theorem normalChars_of_not_opening {cs : List Char} (h : ¬ ['0', 'x'] <+: cs) :
    normalChars cs = cs.map Char.toLower := by
  unfold normalChars
  split
  · exact absurd ⟨_, rfl⟩ h
  · rfl

/-- A capital letter in an opening is made small after the openings have been taken off. -/
theorem opening_normalChars_iff {cs : List Char} :
    ['0', 'x'] <+: normalChars cs ↔ OpensWithCapital cs := by
  fun_induction normalChars cs with
  | case1 rest ih =>
    rw [ih]
    constructor
    · exact .behind
    · rintro (_ | h)
      exact h
  | case2 cs hopening =>
    constructor
    · intro hprefix
      rcases cs with _ | ⟨c, _ | ⟨d, rest⟩⟩
      · simp at hprefix
      · simp at hprefix
      · simp only [List.map_cons, List.cons_prefix_cons, List.nil_prefix, and_true,
          eq_comm (a := '0'), eq_comm (a := 'x'), toLower_eq_zero_iff, toLower_eq_x_iff] at hprefix
        obtain ⟨rfl, rfl | rfl⟩ := hprefix
        · exact absurd rfl (hopening rest)
        · exact .here rest
    · rintro (rest | h)
      · exact ⟨_, rfl⟩
      · exact absurd rfl (hopening _)

instance (cs : List Char) : Decidable (OpensWithCapital cs) :=
  decidable_of_iff _ opening_normalChars_iff

instance (id : String) : Decidable (IsPlain id) :=
  inferInstanceAs (Decidable (¬ OpensWithCapital id.toList))

/-- The order of taking openings off and of making letters small does not matter to a plain id. -/
theorem normalChars_map_toLower {cs : List Char} (h : ¬ OpensWithCapital cs) :
    normalChars (cs.map Char.toLower) = normalChars cs := by
  rw [← opening_normalChars_iff] at h
  fun_induction normalChars cs with
  | case1 rest ih => exact ih h
  | case2 cs hopening =>
    rw [normalChars_of_not_opening h, List.map_map]
    exact List.map_congr_left fun c _ => toLower_toLower c

theorem normalChars_bare (id : String) :
    normalChars (bare id) = normalChars (id.toList.map Char.toLower) := by
  unfold bare
  split
  · next rest h => rw [h, normalChars]
  · rfl

/-- Plain ids that are the same have one normal form. -/
theorem SameId.normalId_eq {a b : String} (h : SameId a b) (ha : IsPlain a) (hb : IsPlain b) :
    normalId a = normalId b := by
  rw [normalId, normalId, ← normalChars_map_toLower ha, ← normalChars_map_toLower hb,
    ← normalChars_bare, ← normalChars_bare, h]

theorem exists_identifier_iff {requested : List String} {feeds : List FeedText} {r : String}
    (hr : r ∈ requested) :
    (∃ q ∈ feeds.filterMap (FeedText.quote? requested), q.identifier = r) ↔
      IsLast requested r ∧ ∃ f ∈ feeds, f.Legible ∧ normalId f.id = normalId r := by
  simp only [List.mem_filterMap]
  constructor
  · rintro ⟨q, ⟨f, hf, hq⟩, rfl⟩
    obtain ⟨hlast, hid⟩ := (requestedId_eq_iff hr).mp (f.identifier_of_quote? hq).symm
    have hlegible : f.Legible := FeedText.isSome_quote?_iff.mp (Option.isSome_of_eq_some hq)
    exact ⟨hlast, f, hf, hlegible, hid⟩
  · rintro ⟨hlast, f, hf, hlegible, hid⟩
    have hsome : (f.quote? requested).isSome = true := FeedText.isSome_quote?_iff.mpr hlegible
    obtain ⟨q, hq⟩ := Option.isSome_iff_exists.mp hsome
    refine ⟨q, ⟨f, hf, hq⟩, ?_⟩
    rw [f.identifier_of_quote? hq]
    exact (requestedId_eq_iff hr).mpr ⟨hlast, hid⟩

/-- **An id that was requested is given a quote** exactly when it is the last of its normal form and
a legible feed has that form. A plain id has the form of every feed whose plain id is the same. -/
theorem answered_iff (requested : List String) {text : String} {feeds : List FeedText}
    (h : (Json.parse? text).bind feeds? = some feeds) :
    ∃ quotes, read unread requested text = .ok quotes ∧ ∀ r ∈ requested,
      ((∃ q ∈ quotes, q.identifier = r) ↔
        IsLast requested r ∧ ∃ f ∈ feeds, f.Legible ∧ normalId f.id = normalId r) ∧
      (IsLast requested r → IsPlain r → (∃ f ∈ feeds, f.Legible ∧ IsPlain f.id ∧ SameId f.id r) →
        ∃ q ∈ quotes, q.identifier = r) := by
  refine ⟨_, read_of_feeds unread requested h, fun r hr => ⟨exists_identifier_iff hr, ?_⟩⟩
  rintro hlast hplain ⟨f, hf, hlegible, hfplain, hsame⟩
  exact (exists_identifier_iff hr).mpr
    ⟨hlast, f, hf, hlegible, hsame.normalId_eq hfplain hplain⟩

/-- What is said of a list that has the number five in place of its first feed. -/
def numberUnread : Wording := fun _ =>
  "invalid type: integer `5`, expected struct HermesPriceFeed at line 1 column 12"

/-- A feed with a price and nothing else. -/
def bareFeed (id price confidence : String) : FeedText :=
  ⟨id, ⟨price, confidence, -8, 1⟩, none, none⟩

theorem legible_bareFeed_iff {id price confidence : String} :
    (bareFeed id price confidence).Legible ↔
      (PriceText.values? ⟨price, confidence, -8, 1⟩).isSome = true := by
  rw [PriceText.isSome_values?_iff]
  simp [FeedText.Legible, FeedText.prices, bareFeed]

theorem answered_under_last_spelling :
    ∃ quotes, read numberUnread ["aa", "0xAA"]
        (listing ([bareFeed "Aa" "5" "1"].map FeedText.json)) = .ok quotes ∧
      ∃ q ∈ quotes, q.identifier = "0xAA" := by
  obtain ⟨quotes, hread, hanswered⟩ :=
    answered_iff numberUnread ["aa", "0xAA"] (feeds_listing [bareFeed "Aa" "5" "1"])
  refine ⟨quotes, hread, (hanswered "0xAA" (by simp)).2 ?_ ?_ ?_⟩
  · exact ⟨["aa"], [], rfl, by simp⟩
  · decide
  · exact ⟨bareFeed "Aa" "5" "1", by simp, legible_bareFeed_iff.mpr (by decide), by decide, rfl⟩

/-- An opening with a capital letter stays where it is, and of two spellings only the last one is
given a quote, though there is a feed for all three ids. -/
theorem unanswered_spellings :
    ∃ quotes, read numberUnread ["0XAA", "bb", "0xBB"]
        (listing ([bareFeed "aa" "5" "1", bareFeed "bb" "5" "1"].map FeedText.json)) = .ok quotes ∧
      ((bareFeed "aa" "5" "1").Legible ∧ SameId "aa" "0XAA" ∧
        ¬ ∃ q ∈ quotes, q.identifier = "0XAA") ∧
      (bareFeed "bb" "5" "1").Legible ∧ SameId "bb" "bb" ∧ ¬ ∃ q ∈ quotes, q.identifier = "bb" := by
  refine ⟨_, read_of_feeds _ _ (feeds_listing _), ⟨legible_bareFeed_iff.mpr (by decide), rfl, ?_⟩,
    legible_bareFeed_iff.mpr (by decide), rfl, ?_⟩
  · decide
  · decide

/-! ### What the numerals stand for -/

/-- Two numerals are written as the price and as the confidence. -/
def PriceText.Writes (p : PriceText) (price confidence : Word.Numeral) : Prop :=
  price.Signed p.price ∧ confidence.Unsigned p.confidence

/-- Two words are what the price and the confidence stand for. -/
def PriceText.Denotes (p : PriceText) (w : Word × Word) : Prop :=
  ∃ price confidence, p.Writes price confidence ∧ price.value = w.1.toInt ∧
    confidence.value = w.2.toNat

/-- The numerals that are written have a digit each. -/
def PriceText.HasDigits (p : PriceText) : Prop :=
  ∀ price confidence, p.Writes price confidence → price.digits ≠ [] ∧ confidence.digits ≠ []

/-- A quote has the words that the texts of a feed stand for. -/
structure FeedText.Backs (f : FeedText) (q : Quote) : Prop where
  /-- its price is the one of the feed -/
  price : f.price.Denotes (q.magnitude, q.confidence)
  /-- its moving average is the one of the feed -/
  ema : ∀ p ∈ f.ema, ∃ w : Word × Word, p.Denotes w ∧ q.ema = some w.1 ∧ q.emaConfidence = some w.2
  /-- without one of the feed it has none -/
  ema_none : f.ema = none → q.ema = none ∧ q.emaConfidence = none

theorem PriceText.denotes_of_values? {p : PriceText} {w : Word × Word} (h : p.values? = some w) :
    p.Denotes w := by
  obtain ⟨hprice, hconfidence⟩ := values?_eq_some_iff.mp h
  obtain ⟨-, m, hm, hmvalue⟩ := Word.signed?_eq_some_iff.mp hprice
  obtain ⟨n, hn, hnvalue⟩ := Word.unsigned?_eq_some_iff.mp hconfidence
  exact ⟨m, n, ⟨hm, hn⟩, hmvalue, hnvalue⟩

theorem PriceText.hasDigits_iff {p : PriceText} (h : p.Legible) :
    p.HasDigits ↔ ¬ Word.LacksSignedDigits p.price ∧ ¬ Word.LacksDigits p.confidence := by
  obtain ⟨m, hm, -⟩ := h.price
  obtain ⟨n, hn, -⟩ := h.confidence
  rw [← hm.digits_eq_nil_iff, ← hn.digits_eq_nil_iff]
  constructor
  · intro hdigits
    exact hdigits m n ⟨hm, hn⟩
  · rintro hdigits m' n' ⟨hm', hn'⟩
    rw [hm'.unique hm, hn'.unique hn]
    exact hdigits

/-- Without digits a price or a confidence stands for zero. -/
theorem PriceText.Denotes.eq_zero {p : PriceText} {w : Word × Word} (h : p.Denotes w) :
    (Word.LacksSignedDigits p.price → w.1 = 0) ∧ (Word.LacksDigits p.confidence → w.2 = 0) := by
  obtain ⟨m, n, ⟨hm, hn⟩, hmvalue, hnvalue⟩ := h
  constructor
  · intro hlacks
    rw [Word.Numeral.value_of_digits_eq_nil (hm.digits_eq_nil_iff.mpr hlacks)] at hmvalue
    exact BitVec.toInt_inj.mp (by simpa using hmvalue.symm)
  · intro hlacks
    rw [Word.Numeral.value_of_digits_eq_nil (hn.digits_eq_nil_iff.mpr hlacks)] at hnvalue
    exact BitVec.eq_of_toNat_eq (by simpa using hnvalue.symm)

theorem FeedText.backs_of_quote? {requested : List String} {f : FeedText} {q : Quote}
    (h : f.quote? requested = some q) : f.Backs q := by
  obtain ⟨price, ema, hprice, hema, rfl⟩ := quote?_eq_some_iff.mp h
  refine ⟨PriceText.denotes_of_values? hprice, ?_, ?_⟩
  · intro p hp
    rw [ema?, Option.mem_def.mp hp] at hema
    obtain ⟨w, hw, rfl⟩ := Option.map_eq_some_iff.mp hema
    exact ⟨w, PriceText.denotes_of_values? hw, rfl, rfl⟩
  · intro hnone
    rw [ema?, hnone] at hema
    obtain rfl := Option.some.inj hema
    exact ⟨rfl, rfl⟩

/-- **The quotes are those of the legible feeds, and have the values of their numerals.** All these
numerals have a digit exactly when no text of a legible feed is a sign, a radix and low lines only;
one that is stands for zero. -/
theorem digits_iff (requested : List String) {text : String} {feeds : List FeedText}
    (h : (Json.parse? text).bind feeds? = some feeds) :
    read unread requested text = .ok (feeds.filterMap (FeedText.quote? requested)) ∧
      (∀ f ∈ feeds, (f.quote? requested).isSome = true ↔ f.Legible) ∧
      (∀ f ∈ feeds, ∀ q, f.quote? requested = some q → f.Backs q ∧
        (Word.LacksSignedDigits f.price.price → q.magnitude = 0) ∧
        (Word.LacksDigits f.price.confidence → q.confidence = 0)) ∧
      ((∀ f ∈ feeds, (f.quote? requested).isSome = true → ∀ p ∈ f.prices, p.HasDigits) ↔
        ∀ f ∈ feeds, f.Legible → ∀ p ∈ f.prices,
          ¬ Word.LacksSignedDigits p.price ∧ ¬ Word.LacksDigits p.confidence) := by
  refine ⟨read_of_feeds unread requested h, fun f _ => FeedText.isSome_quote?_iff, ?_, ?_⟩
  · intro f _ q hq
    have hbacks := FeedText.backs_of_quote? hq
    exact ⟨hbacks, hbacks.price.eq_zero⟩
  · simp only [FeedText.isSome_quote?_iff]
    constructor
    · intro hall f hf hlegible p hp
      exact (PriceText.hasDigits_iff (hlegible p hp)).mp (hall f hf hlegible p hp)
    · intro hall f hf hlegible p hp
      exact (PriceText.hasDigits_iff (hlegible p hp)).mpr (hall f hf hlegible p hp)

theorem digits_iff_of_decimal :
    read numberUnread ["aa"] (listing ([bareFeed "aa" "-5" "1_0"].map FeedText.json)) =
        .ok [⟨"aa", -5, -8, 10, 1, 0, none, none⟩] ∧
      ∀ p ∈ (bareFeed "aa" "-5" "1_0").prices, p.HasDigits := by
  have hquotes := digits_iff numberUnread ["aa"] (feeds_listing [bareFeed "aa" "-5" "1_0"])
  refine ⟨hquotes.1, hquotes.2.2.2.mpr ?_ _ (by simp) rfl⟩
  intro f hf _ p hp
  obtain rfl := List.mem_singleton.mp hf
  obtain rfl := List.mem_singleton.mp hp
  decide

/-- A confidence without a digit is published as one of zero. -/
theorem zero_of_empty_confidence :
    read numberUnread ["aa"] (listing ([bareFeed "aa" "5" ""].map FeedText.json)) =
        .ok [⟨"aa", 5, -8, 0, 1, 0, none, none⟩] ∧
      ¬ (bareFeed "aa" "5" "").price.HasDigits := by
  have hlegible : (bareFeed "aa" "5" "").price.Legible :=
    PriceText.isSome_values?_iff.mp (by decide)
  refine ⟨read_of_feeds _ _ (feeds_listing _), ?_⟩
  rw [PriceText.hasDigits_iff hlegible]
  decide

/-! ### Trees of another form -/

/-- A tree has the form of a feed. -/
def IsFeed (item : Json) : Prop := (feedText? item).isSome = true

instance (item : Json) : Decidable (IsFeed item) := inferInstanceAs (Decidable (_ = true))

/-- The quote that a tree gives by itself. -/
def itemQuote (requested : List String) (item : Json) : Option Quote :=
  (feedText? item).bind (FeedText.quote? requested)

/-- **One tree that is no feed spoils the whole list.** Else each gives the quote that it gives by
itself. -/
theorem read_of_lists (requested : List String) {text : String} {items : List Json}
    (h : Lists text items) : read unread requested text =
      if ∀ item ∈ items, IsFeed item then .ok (items.filterMap (itemQuote requested))
      else .error (malformed unread text) := by
  have hfeeds := feeds_of_lists h
  rw [mapM_eq_ite] at hfeeds
  split at hfeeds
  · next hall =>
    rw [if_pos (show ∀ item ∈ items, IsFeed item from hall), read_of_feeds unread requested hfeeds,
      List.filterMap_filterMap]
    rfl
  · next hall =>
    rw [if_neg (show ¬ ∀ item ∈ items, IsFeed item from hall), read, hfeeds]

/-- The quotes of all items but one, in their order, and at the place of that one a quote or
none. -/
def KeepsOthers (requested : List String) (items : List Json) (i : Nat) (quotes : List Quote) :
    Prop :=
  ∃ own : Option Quote, quotes = (items.take i).filterMap (itemQuote requested) ++ own.toList ++
    (items.drop (i + 1)).filterMap (itemQuote requested)

theorem keepsOthers_set (requested : List String) {items : List Json} {i : Nat}
    (hi : i < items.length) (v : Json) :
    KeepsOthers requested items i ((items.set i v).filterMap (itemQuote requested)) := by
  refine ⟨itemQuote requested v, ?_⟩
  rw [List.set_eq_take_append_cons_drop, if_pos hi, List.filterMap_append, List.append_assoc]
  cases hv : itemQuote requested v with
  | none => rw [List.filterMap_cons_none hv]; rfl
  | some q => rw [List.filterMap_cons_some hv]; rfl

theorem forall_mem_set_iff {p : Json → Prop} {items : List Json} {i : Nat} (hi : i < items.length)
    (v : Json) : (∀ item ∈ items.set i v, p item) ↔
      p v ∧ ∀ item ∈ items.take i ++ items.drop (i + 1), p item := by
  rw [List.set_eq_take_append_cons_drop, if_pos hi]
  simp only [List.mem_append, List.mem_cons]
  grind

/-- **An item is changed and the quotes of the others are kept** exactly when all items have the
form of a feed, the new one and the others. If one has not, there is no quote of any. -/
theorem othersKept_iff (requested : List String) {text text' : String} {items : List Json} {i : Nat}
    {v : Json} (hi : i < items.length) (h : Lists text items) (h' : Lists text' (items.set i v)) :
    (∀ quotes, read unread requested text = .ok quotes → KeepsOthers requested items i quotes) ∧
      ((∃ quotes, read unread requested text' = .ok quotes ∧
          KeepsOthers requested items i quotes) ↔
        IsFeed v ∧ ∀ item ∈ items.take i ++ items.drop (i + 1), IsFeed item) ∧
      (¬ (IsFeed v ∧ ∀ item ∈ items.take i ++ items.drop (i + 1), IsFeed item) →
        read unread requested text' =
          .error (.remote ("invalid Hermes response: " ++ unread text'))) := by
  rw [read_of_lists unread requested h, read_of_lists unread requested h', ← forall_mem_set_iff hi]
  refine ⟨?_, ?_, fun hform => if_neg hform⟩
  · intro quotes hread
    split at hread
    · obtain rfl := Except.ok.inj hread
      have hkept := keepsOthers_set requested hi items[i]
      rwa [List.set_getElem_self] at hkept
    · cases hread
  · constructor
    · rintro ⟨quotes, hread, -⟩
      split at hread
      · assumption
      · cases hread
    · intro hform
      rw [if_pos hform]
      exact ⟨_, rfl, keepsOthers_set requested hi v⟩

theorem othersKept_iff_illegible :
    ∃ quotes, read numberUnread ["bb"]
        (listing [(bareFeed "aa" "x" "1").json, (bareFeed "bb" "5" "1").json]) = .ok quotes ∧
      KeepsOthers ["bb"] [(bareFeed "aa" "5" "1").json, (bareFeed "bb" "5" "1").json] 0 quotes := by
  have hwell (f g : FeedText) : Json.wellFormedItems [f.json, g.json] = true := by
    simp [Json.wellFormedItems, FeedText.wellFormed_json]
  have hform (f : FeedText) : IsFeed f.json := by
    rw [IsFeed, feedText?_of_written f.written_json]
    rfl
  refine (othersKept_iff numberUnread ["bb"] (i := 0) (by simp) (lists_listing (hwell _ _))
    (lists_listing (hwell (bareFeed "aa" "x" "1") _))).2.1.mpr ⟨hform _, ?_⟩
  simpa using hform _

/-- A number among the feeds, and none of them is given a quote. -/
theorem others_lost_with_number :
    (∃ quotes, read numberUnread ["bb"]
        (listing [(bareFeed "aa" "5" "1").json, (bareFeed "bb" "5" "1").json]) = .ok quotes ∧
          quotes.length = 2) ∧
      Lists (listing ([(bareFeed "aa" "5" "1").json, (bareFeed "bb" "5" "1").json].set 0 (.int 5)))
        ([(bareFeed "aa" "5" "1").json, (bareFeed "bb" "5" "1").json].set 0 (.int 5)) ∧
      ¬ ∃ quotes, read numberUnread ["bb"]
        (listing ([(bareFeed "aa" "5" "1").json, (bareFeed "bb" "5" "1").json].set 0 (.int 5))) =
          .ok quotes := by
  have hlists : Lists (listing [.int 5, (bareFeed "bb" "5" "1").json])
      [.int 5, (bareFeed "bb" "5" "1").json] := by
    apply lists_listing
    simp [Json.wellFormedItems, FeedText.wellFormed_json, Json.wellFormed_int]
  refine ⟨⟨_, read_of_feeds _ _ (feeds_listing [bareFeed "aa" "5" "1", bareFeed "bb" "5" "1"]), ?_⟩,
    hlists, ?_⟩
  · decide
  · have hform : ¬ IsFeed (.int 5) := by decide
    rw [List.set_cons_zero, read_of_lists _ _ hlists, if_neg (by simp [hform])]
    simp

end PriceRelay.QuoteReply
