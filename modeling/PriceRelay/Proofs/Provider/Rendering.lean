import PriceRelay.Proofs.Provider.Quotes
/-!
# Quotes that are written and read back

Quotes can be told as a list of feeds: integers as decimal texts, the slot left out where it is
zero, each id in any spelling. What is read from such a list are the quotes, in their order, and
under the ids as they were requested.

* `QuoteReply.FeedText.Renders` says which feeds tell a quote,
* `QuoteReply.quote?_of_renders` is the quote of such a feed, and `QuoteReply.exists_rendered` finds
  one for every quote,
* `QuoteReply.read_rendered` reads back a whole list.
-/

namespace PriceRelay.QuoteReply

/-- A moving average and its confidence are told, or neither of them is. -/
inductive RendersAverage : Option PriceText → Option Word → Option Word → Prop
  /-- there is none -/
  | absent : RendersAverage none none none
  /-- both are told as decimal texts -/
  | told {p : PriceText} {average confidence : Word} (price : p.price = Word.signedText average)
      (conf : p.confidence = Word.unsignedText confidence) :
      RendersAverage (some p) (some average) (some confidence)

/-- A feed tells a quote, under any spelling of its id. -/
structure FeedText.Renders (f : FeedText) (q : Quote) : Prop where
  /-- the ids have one normal form -/
  id : normalId f.id = normalId q.identifier
  /-- the price is a decimal text -/
  price : f.price.price = Word.signedText q.magnitude
  /-- so is the confidence -/
  confidence : f.price.confidence = Word.unsignedText q.confidence
  /-- the power of ten is that of the quote -/
  exponent : f.price.exponent = q.scale
  /-- so is the time -/
  publishTime : f.price.publishTime = q.publishTime
  /-- slot zero may be left out -/
  slot : f.slot = some q.slot ∨ f.slot = none ∧ q.slot = 0
  /-- the moving average is told if there is one -/
  ema : RendersAverage f.ema q.ema q.emaConfidence

theorem values?_of_texts {p : PriceText} {price confidence : Word}
    (hprice : p.price = Word.signedText price)
    (hconfidence : p.confidence = Word.unsignedText confidence) :
    p.values? = some (price, confidence) := by
  rw [PriceText.values?_eq_some_iff, hprice, hconfidence]
  exact ⟨Word.signed?_signedText price, Word.unsigned?_unsignedText confidence⟩

theorem RendersAverage.exists_ema? {f : FeedText} {average confidence : Option Word}
    (h : RendersAverage f.ema average confidence) :
    ∃ ema, f.ema? = some ema ∧ ema.map Prod.fst = average ∧ ema.map Prod.snd = confidence := by
  rw [FeedText.ema?]
  generalize f.ema = texts at h
  cases h with
  | absent => exact ⟨none, rfl, rfl, rfl⟩
  | @told p average confidence hprice hconfidence =>
    refine ⟨some (average, confidence), ?_, rfl, rfl⟩
    simp only [values?_of_texts hprice hconfidence, Option.map_some]

variable (unread : Wording) {requested : List String}

/-- Where no two ids requested have one normal form, a feed is quoted under the one of its own. -/
theorem requestedId_of_nodup (hforms : (requested.map normalId).Nodup) {r id : String}
    (hr : r ∈ requested) (hid : normalId id = normalId r) : requestedId requested id = r := by
  refine (requestedId_eq_iff hr).mpr ⟨?_, hid⟩
  obtain ⟨before, after, rfl⟩ := List.append_of_mem hr
  refine ⟨before, after, rfl, ?_⟩
  intro s hs hsame
  rw [List.map_append, List.map_cons] at hforms
  have hnotMem := (List.nodup_cons.mp (List.nodup_append.mp hforms).2.1).1
  exact hnotMem (hsame ▸ List.mem_map_of_mem hs)

/-- **The quote of a feed that tells it.** -/
theorem quote?_of_renders (hforms : (requested.map normalId).Nodup) {f : FeedText} {q : Quote}
    (hid : q.identifier ∈ requested) (h : f.Renders q) : f.quote? requested = some q := by
  obtain ⟨ema, hema, haverage, hconfidence⟩ := h.ema.exists_ema?
  refine FeedText.quote?_eq_some_iff.mpr
    ⟨_, ema, values?_of_texts h.price h.confidence, hema, ?_⟩
  have hslot : f.slot.getD 0 = q.slot := by
    rcases h.slot with hslot | ⟨hslot, hzero⟩
    · rw [hslot, Option.getD_some]
    · rw [hslot, Option.getD_none, hzero]
  rw [FeedText.quoteOf, requestedId_of_nodup hforms hid h.id, h.exponent, h.publishTime, hslot,
    haverage, hconfidence]

/-- A tree is a feed that tells a quote. -/
def Rendered (q : Quote) (item : Json) : Prop := ∃ f : FeedText, f.Renders q ∧ f.Written item

/-- A quote as a feed, with its moving average as it is told. -/
def feedOf (q : Quote) (ema : Option PriceText) : FeedText where
  id := q.identifier
  price := ⟨Word.signedText q.magnitude, Word.unsignedText q.confidence, q.scale, q.publishTime⟩
  ema := ema
  slot := some q.slot

theorem renders_feedOf {q : Quote} {ema : Option PriceText}
    (h : RendersAverage ema q.ema q.emaConfidence) : (feedOf q ema).Renders q :=
  ⟨rfl, rfl, rfl, rfl, rfl, .inl rfl, h⟩

/-- **Every quote is told by some tree**, if it has a moving average with a confidence, or
neither. -/
theorem exists_rendered {q : Quote} (h : q.ema.isSome = q.emaConfidence.isSome) :
    ∃ item, Rendered q item ∧ item.wellFormed = true := by
  have haverage : ∃ texts, RendersAverage texts q.ema q.emaConfidence := by
    cases hema : q.ema with
    | none =>
      have hconfidence : q.emaConfidence = none := by simpa [hema] using h.symm
      exact ⟨none, hconfidence ▸ .absent⟩
    | some average =>
      obtain ⟨confidence, hconfidence⟩ : ∃ c, q.emaConfidence = some c := by
        simpa [hema, Option.isSome_iff_exists] using h.symm
      rw [hconfidence]
      exact ⟨some ⟨Word.signedText average, Word.unsignedText confidence, 0, 0⟩, .told rfl rfl⟩
  obtain ⟨texts, htexts⟩ := haverage
  exact ⟨(feedOf q texts).json, ⟨_, renders_feedOf htexts, (feedOf q texts).written_json⟩,
    (feedOf q texts).wellFormed_json⟩

theorem Rendered.quoted (hforms : (requested.map normalId).Nodup) {q : Quote} {item : Json}
    (hid : q.identifier ∈ requested) (h : Rendered q item) :
    IsFeed item ∧ itemQuote requested item = some q := by
  obtain ⟨f, hrenders, hwritten⟩ := h
  have hform := feedText?_of_written hwritten
  constructor
  · rw [IsFeed, hform]
    rfl
  · rw [itemQuote, hform, Option.bind_some]
    exact quote?_of_renders hforms hid hrenders

theorem itemQuotes_of_rendered (hforms : (requested.map normalId).Nodup) {quotes : List Quote}
    {items : List Json} (hids : ∀ q ∈ quotes, q.identifier ∈ requested)
    (h : List.Forall₂ Rendered quotes items) :
    (∀ item ∈ items, IsFeed item) ∧ items.filterMap (itemQuote requested) = quotes := by
  induction h with
  | nil => simp
  | cons hq _ ih =>
    obtain ⟨hid, hrest⟩ := List.forall_mem_cons.mp hids
    obtain ⟨hfeed, hquote⟩ := hq.quoted hforms hid
    obtain ⟨hfeeds, hquotes⟩ := ih hrest
    refine ⟨List.forall_mem_cons.mpr ⟨hfeed, hfeeds⟩, ?_⟩
    rw [List.filterMap_cons_some hquote, hquotes]

/-- **Quotes that are told as feeds are read back**, from every text of a tree that lists the feeds;
and if the tree can be written, from the text that it is written as. -/
theorem read_rendered {quotes : List Quote} {items : List Json} {j : Json}
    (hforms : (requested.map normalId).Nodup) (hids : ∀ q ∈ quotes, q.identifier ∈ requested)
    (hitems : List.Forall₂ Rendered quotes items)
    (hj : j.Gives ["parsed"] [("parsed", .array items)]) :
    (∀ text, Json.parse? text = some j → read unread requested text = .ok quotes) ∧
      (j.wellFormed = true → read unread requested j.compact = .ok quotes) := by
  have hread (text : String) (hparse : Json.parse? text = some j) :
      read unread requested text = .ok quotes := by
    obtain ⟨hall, hquotes⟩ := itemQuotes_of_rendered hforms hids hitems
    rw [read_of_lists unread requested ⟨j, hparse, hj⟩, if_pos hall, hquotes]
  exact ⟨hread, fun hwell => hread _ (Json.parse?_compact hwell)⟩

/-- A quote with the least price, and the widest interval around it. -/
def extremeQuote : Quote :=
  ⟨"0xAA", BitVec.intMin 256, Int32.minValue, BitVec.allOnes 256, Int64.minValue, 0,
    some (BitVec.intMax 256), some 0⟩

/-- The quote as a feed: another spelling of its id, and no slot. -/
def extremeFeed : FeedText :=
  ⟨"aa", ⟨Word.signedText (BitVec.intMin 256), Word.unsignedText (BitVec.allOnes 256),
      Int32.minValue, Int64.minValue⟩,
    some ⟨Word.signedText (BitVec.intMax 256), Word.unsignedText 0, 0, 0⟩, none⟩

/-- A small quote of another id. -/
def smallQuote : Quote := ⟨"bb", 7, -8, 0, 1700000000, 12, none, none⟩

/-- Two quotes, told in another order than their ids are requested in, and the first of them under
another spelling. -/
theorem read_rendered_extremes :
    read id ["bb", "cc", "0xAA"]
        (Json.obj [("binary", .null),
          ("parsed", .array [extremeFeed.json, (feedOf smallQuote none).json])]).compact =
      .ok [extremeQuote, smallQuote] := by
  have hextreme : Rendered extremeQuote extremeFeed.json :=
    ⟨extremeFeed, ⟨by decide, rfl, rfl, rfl, rfl, .inr ⟨rfl, rfl⟩, .told rfl rfl⟩,
      extremeFeed.written_json⟩
  have hsmall : Rendered smallQuote (feedOf smallQuote none).json :=
    ⟨_, renders_feedOf .absent, (feedOf smallQuote none).written_json⟩
  have hitems : List.Forall₂ Rendered [extremeQuote, smallQuote]
      [extremeFeed.json, (feedOf smallQuote none).json] := .cons hextreme (.cons hsmall .nil)
  refine (read_rendered id (by decide) (by decide) hitems ⟨_, rfl, by simp⟩).2 ?_
  simp [Json.obj, Json.wellFormed, Json.wellFormedMembers, Json.wellFormedItems,
    FeedText.wellFormed_json]

end PriceRelay.QuoteReply
