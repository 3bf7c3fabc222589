import PriceRelay.Proofs.Json.Record
import PriceRelay.Proofs.Json.RoundTrip
import PriceRelay.Provider.Quotes
/-!
# How feeds are written

A feed is written as an object. Its moving average and its slot may be left out or be `null` where
there are none, its members stand in any order, and other ones among them are passed over. Whichever
way it is written, the same feed is read.

* `QuoteReply.FeedText.Written` says which trees are a feed,
* `QuoteReply.feedText?_of_written` reads the feed from any of them,
* `QuoteReply.Lists` says which texts are a list of trees,
* `QuoteReply.FeedText.json` writes a feed, and `QuoteReply.lists_listing` lists them.
-/

namespace PriceRelay.QuoteReply

/-! ### Members that may be missing -/

/-- The member of some name, if there is one: where nothing is to be told it is left out or is
`null`. -/
inductive OptionalMember {α : Type} (name : String) (written : α → Json → Prop) :
    Option α → List (String × Json) → Prop
  /-- nothing is told, and the member is left out -/
  | absent : OptionalMember name written none []
  /-- nothing is told, and the member says so -/
  | null : OptionalMember name written none [(name, .null)]
  /-- something is told -/
  | given {a : α} {j : Json} (h : written a j) : OptionalMember name written (some a) [(name, j)]

namespace OptionalMember

variable {α : Type} {name : String} {written : α → Json → Prop} {o : Option α}
  {ms : List (String × Json)}

theorem names_sublist (h : OptionalMember name written o ms) :
    (ms.map Prod.fst).Sublist [name] := by
  cases h <;> simp

theorem lookup_of_ne (h : OptionalMember name written o ms) {other : String} (hne : other ≠ name) :
    ms.lookup other = none := by
  have hbeq : (other == name) = false := by simpa using hne
  cases h <;> simp [List.lookup_cons, hbeq]

/-- **What may be missing is read from its member**, if whatever is written can be read. -/
theorem optional_lookup (h : OptionalMember name written o ms) {read : Json → Option α}
    (hread : ∀ a j, written a j → j.isNull = false ∧ read j = some a) :
    optional read (ms.lookup name) = some o := by
  cases h with
  | absent => rfl
  | null =>
    rw [List.lookup_cons_self]
    rfl
  | given h =>
    obtain ⟨hnull, hsome⟩ := hread _ _ h
    rw [List.lookup_cons_self, optional, hnull, hsome]
    rfl

end OptionalMember

theorem isNull_of_gives {names : List String} {given : List (String × Json)} {j : Json}
    (h : j.Gives names given) : j.isNull = false := by
  obtain ⟨ms, rfl, -⟩ := h
  rfl

/-! ### Prices and slots -/

theorem within_int {bits : Nat} {i : Int} (hbits : bits ≤ 63) (hlow : -(2 ^ bits) ≤ i)
    (hhigh : i < 2 ^ bits) : within (Nat.pow 2 bits) (.int i) = some i := by
  have hbound : ((Nat.pow 2 bits : Nat) : Int) = 2 ^ bits := Nat.cast_pow 2 bits
  have hle : (2 : Int) ^ bits ≤ 2 ^ 63 := pow_le_pow_right₀ (by decide) hbits
  rw [within, Json.integer?_int (by omega) (by omega), Option.bind_some, hbound,
    if_pos ⟨hlow, hhigh⟩]

theorem within_exponent (e : Int32) :
    (within (Nat.pow 2 31) (.int e.toInt)).map Int32.ofInt = some e := by
  rw [within_int (by decide) (Int32.le_toInt e) (Int32.toInt_lt e), Option.map_some,
    Int32.ofInt_toInt]

theorem within_time (t : Int64) :
    (within (Nat.pow 2 63) (.int t.toInt)).map Int64.ofInt = some t := by
  rw [within_int (by decide) (Int64.le_toInt t) (Int64.toInt_lt t), Option.map_some,
    Int64.ofInt_toInt]

/-- The members of a price. -/
def PriceText.members (p : PriceText) : List (String × Json) :=
  [("price", .str p.price), ("conf", .str p.confidence), ("expo", .int p.exponent.toInt),
    ("publish_time", .int p.publishTime.toInt)]

/-- A tree is a price. -/
def PriceText.Written (p : PriceText) (j : Json) : Prop :=
  j.Gives ["price", "conf", "expo", "publish_time"] p.members

theorem priceText?_of_written {p : PriceText} {j : Json} (h : p.Written j) :
    priceText? j = some p := by
  have hfields := Json.fields_of_gives h (by simp [PriceText.members])
  have hgiven : (["price", "conf", "expo", "publish_time"].map fun name => p.members.lookup name) =
      [some (.str p.price), some (.str p.confidence), some (.int p.exponent.toInt),
        some (.int p.publishTime.toInt)] := rfl
  obtain ⟨exponent, hexponent, he⟩ := Option.map_eq_some_iff.mp (within_exponent p.exponent)
  obtain ⟨time, htime, ht⟩ := Option.map_eq_some_iff.mp (within_time p.publishTime)
  rw [priceText?, hfields, hgiven]
  simp only [Json.text?, Json.str, hexponent, htime, Option.bind_eq_bind, Option.bind_some, he, ht]

/-- A tree tells a slot, or that there is none. -/
def SlotWritten (slot : Option Int64) (j : Json) : Prop :=
  ∃ ms, OptionalMember "slot" (fun s j => j = .int s.toInt) slot ms ∧ j.Gives ["slot"] ms

theorem slot?_of_written {slot : Option Int64} {j : Json} (h : SlotWritten slot j) :
    slot? j = some slot := by
  obtain ⟨ms, hslot, hj⟩ := h
  have hfields := Json.fields_of_gives hj (hslot.names_sublist.nodup (by simp))
  rw [slot?, hfields]
  simp only [List.map_cons, List.map_nil, Option.bind_some]
  refine hslot.optional_lookup ?_
  rintro s j rfl
  exact ⟨rfl, within_time s⟩

/-! ### Feeds -/

/-- A tree is a feed. Its slot is told in a member of its own, which may be missing as well. -/
def FeedText.Written (f : FeedText) (j : Json) : Prop :=
  ∃ price ema metadata told, f.price.Written price ∧
    OptionalMember "ema_price" PriceText.Written f.ema ema ∧
    OptionalMember "metadata" SlotWritten told metadata ∧ told.join = f.slot ∧
    j.Gives ["id", "price", "ema_price", "metadata"]
      (("id", .str f.id) :: ("price", price) :: (ema ++ metadata))

/-- **A feed is read from every tree that is one.** -/
theorem feedText?_of_written {f : FeedText} {j : Json} (h : f.Written j) :
    feedText? j = some f := by
  obtain ⟨price, ema, metadata, told, hprice, hema, hmetadata, hslot, hj⟩ := h
  have hnodup : ((("id", Json.str f.id) :: ("price", price) :: (ema ++ metadata)).map
      Prod.fst).Nodup := by
    have hnames : ["id", "price", "ema_price", "metadata"].Nodup := by decide
    refine List.Sublist.nodup ?_ hnames
    rw [List.map_cons, List.map_cons, List.map_append]
    exact ((hema.names_sublist.append hmetadata.names_sublist).cons_cons _).cons_cons _
  have hfields := Json.fields_of_gives hj hnodup
  have hgiven : (["id", "price", "ema_price", "metadata"].map fun name =>
      (("id", Json.str f.id) :: ("price", price) :: (ema ++ metadata)).lookup name) =
        [some (.str f.id), some price, ema.lookup "ema_price", metadata.lookup "metadata"] := by
    have hema' : ema.lookup "metadata" = none := hema.lookup_of_ne (by decide)
    have hmetadata' : metadata.lookup "ema_price" = none := hmetadata.lookup_of_ne (by decide)
    simp [List.lookup_cons, List.lookup_append, hema', hmetadata']
  have hprices : ∀ p j, PriceText.Written p j → j.isNull = false ∧ priceText? j = some p :=
    fun p j hp => ⟨isNull_of_gives hp, priceText?_of_written hp⟩
  have hslots : ∀ s j, SlotWritten s j → j.isNull = false ∧ slot? j = some s := by
    rintro s j ⟨ms, hms, hgives⟩
    exact ⟨isNull_of_gives hgives, slot?_of_written ⟨ms, hms, hgives⟩⟩
  rw [feedText?, hfields, hgiven, Option.bind_some]
  simp only [Json.str, Json.text?, priceText?_of_written hprice, hema.optional_lookup hprices,
    hmetadata.optional_lookup hslots, Option.bind_eq_bind, Option.bind_some, hslot]

/-! ### Lists of feeds -/

/-- A text is a list of trees: an object that gives them in one member, whatever else it has. -/
def Lists (text : String) (items : List Json) : Prop :=
  ∃ j, Json.parse? text = some j ∧ j.Gives ["parsed"] [("parsed", .array items)]

/-- **What is read from a list of trees** is a feed for each of them, or nothing at all. -/
theorem feeds_of_lists {text : String} {items : List Json} (h : Lists text items) :
    (Json.parse? text).bind feeds? = items.mapM feedText? := by
  obtain ⟨j, hparse, hj⟩ := h
  have hfields := Json.fields_of_gives hj (by simp)
  have hgiven : (["parsed"].map fun name => [("parsed", Json.array items)].lookup name) =
      [some (.array items)] := rfl
  rw [hparse, Option.bind_some, feeds?, hfields, hgiven]
  rfl

/-- The text that lists some trees, and nothing else. -/
def listing (items : List Json) : String := (Json.obj [("parsed", .array items)]).compact

theorem lists_listing {items : List Json} (h : Json.wellFormedItems items = true) :
    Lists (listing items) items := by
  refine ⟨.obj [("parsed", .array items)], Json.parse?_compact ?_, _, rfl, ?_⟩
  · simpa [Json.obj, Json.wellFormed, Json.wellFormedMembers] using h
  · simp

/-- A price as a tree. -/
def PriceText.json (p : PriceText) : Json := .obj p.members

/-- A slot as a tree. -/
def slotJson (s : Int64) : Json := .obj [("slot", .int s.toInt)]

/-- A feed as a tree; what there is not is left out. -/
def FeedText.json (f : FeedText) : Json :=
  .obj (("id", .str f.id) :: ("price", f.price.json) ::
    ((f.ema.map fun p => ("ema_price", p.json)).toList ++
      (f.slot.map fun s => ("metadata", slotJson s)).toList))

theorem PriceText.written_json (p : PriceText) : p.Written p.json :=
  ⟨p.members, rfl, by simp [members]⟩

theorem slotWritten_slotJson (s : Int64) : SlotWritten (some s) (slotJson s) :=
  ⟨[("slot", .int s.toInt)], .given rfl, _, rfl, by simp⟩

theorem FeedText.written_json (f : FeedText) : f.Written f.json := by
  obtain ⟨id, price, ema, slot⟩ := f
  have hema : OptionalMember "ema_price" PriceText.Written ema
      (ema.map fun p => ("ema_price", p.json)).toList := by
    cases ema with
    | none => exact .absent
    | some p => exact .given p.written_json
  have hslot : OptionalMember "metadata" SlotWritten (slot.map some)
      (slot.map fun s => ("metadata", slotJson s)).toList := by
    cases slot with
    | none => exact .absent
    | some s => exact .given (slotWritten_slotJson s)
  refine ⟨price.json, _, _, slot.map some, price.written_json, hema, hslot, ?_, _, rfl, ?_⟩
  · cases slot <;> rfl
  · cases ema <;> cases slot <;> simp

theorem PriceText.wellFormed_json (p : PriceText) : p.json.wellFormed = true := by
  simp [json, members, Json.obj, Json.wellFormed, Json.wellFormedMembers, Json.wellFormed_int,
    Json.str]

theorem FeedText.wellFormed_json (f : FeedText) : f.json.wellFormed = true := by
  obtain ⟨id, price, ema, slot⟩ := f
  cases ema <;> cases slot <;>
    simp [json, slotJson, Json.obj, Json.wellFormed, Json.wellFormedMembers, Json.wellFormed_int,
      Json.str, PriceText.wellFormed_json]

/-- **Every list of feeds is read from some text.** -/
theorem feeds_listing (feeds : List FeedText) :
    (Json.parse? (listing (feeds.map FeedText.json))).bind feeds? = some feeds := by
  have hwell : Json.wellFormedItems (feeds.map FeedText.json) = true := by
    induction feeds with
    | nil => rfl
    | cons f feeds ih => rw [List.map_cons, Json.wellFormedItems, f.wellFormed_json, ih]; rfl
  rw [feeds_of_lists (lists_listing hwell), mapM_eq_some_iff, List.map_map]
  exact List.map_congr_left fun f _ => feedText?_of_written f.written_json

end PriceRelay.QuoteReply
