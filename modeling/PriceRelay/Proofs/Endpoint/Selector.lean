import PriceRelay.Endpoint.Selector
import PriceRelay.Proofs.Endpoint.Selection
/-!
# What the table of endpoints tells

Endpoints get into the table by `Selector.publish` alone, which takes the handle that is there if it
leads to the same address, and a new one otherwise. So what the table tells of an endpoint is true
of the handle beside it.

* `ActiveEndpoint.Serves` is what an entry tells truly, `Selector.Coherent` says it of all entries,
* `Selector.Coherent.settle_eq_some` says what handle a choice gives,
* `Selector.handle_eq` says when a handle is made for it, and `Selector.settle_eq` that a choice
  publishes one endpoint or does nothing,
* `Selector.Numbered.serial_accept_iff` says that a handle is kept exactly when the address is.
-/

namespace PriceRelay

/-- The entry is one of network `n`, and its handle leads to the address it tells. -/
structure ActiveEndpoint.Serves (a : ActiveEndpoint) (n : NetworkId) : Prop where
  /-- the network it tells -/
  record_network : a.record.network = n
  /-- the network of the handle -/
  transport_network : a.transport.network = n
  /-- the address -/
  transport_url : a.transport.url = a.record.url

namespace Selector

/-- Every entry serves the network it stands under. -/
structure Coherent (s : Selector) : Prop where
  /-- the entry of a network serves it -/
  serves : ∀ {n a}, s.table.get? n = some a → a.Serves n

/-- A selector that has chosen nothing yet. -/
def unsettled (listed : Table NetworkId (List String)) : Selector where
  listed := listed

theorem coherent_unsettled (listed : Table NetworkId (List String)) :
    (unsettled listed).Coherent where
  serves h := by cases h

variable {s : Selector}

theorem handle_table (s : Selector) (n : NetworkId) (url : String) :
    (s.handle n url).2.table = s.table := by
  rw [handle]
  split
  · split <;> rfl
  · rfl

theorem handle_listed (s : Selector) (n : NetworkId) (url : String) :
    (s.handle n url).2.listed = s.listed := by
  rw [handle]
  split
  · split <;> rfl
  · rfl

/-- The handle in the table is taken if it leads to the address, else one is made. -/
theorem handle_eq (s : Selector) (n : NetworkId) (url : String) :
    (∃ a, s.table.get? n = some a ∧ a.record.url = url ∧ s.handle n url = (a.transport, s)) ∨
      ((∀ a, s.table.get? n = some a → a.record.url ≠ url) ∧ s.handle n url = s.connect n url) := by
  rw [handle]
  cases hget : s.table.get? n with
  | none => exact .inr ⟨fun a ha => (nomatch ha), rfl⟩
  | some active =>
    by_cases hurl : active.record.url = url
    · exact .inl ⟨active, rfl, hurl, if_pos hurl⟩
    · exact .inr ⟨fun a ha => Option.some.inj ha ▸ hurl, if_neg hurl⟩

/-- A choice publishes the best of the probed endpoints, or does nothing. -/
theorem settle_eq (s : Selector) (n : NetworkId) (avoid : Option String) (probes : List Probe)
    (now : Moment) : (s.settle n avoid probes now).2 =
      match Probe.bestAvoiding avoid probes with
      | none => s
      | some p => (s.publish n p.url (p.latency.getD 0) now).2 := by
  rw [settle]
  cases Probe.bestAvoiding avoid probes <;> rfl

/-- A choice has no part in the candidates. -/
theorem listed_settle (s : Selector) (n : NetworkId) (avoid : Option String)
    (probes : List Probe) (now : Moment) : (s.settle n avoid probes now).2.listed = s.listed := by
  rw [settle]
  split
  · rfl
  · exact handle_listed s n _

/-- The handle to an address leads there, if what the table tells of the network is true. -/
theorem handle_serves {n : NetworkId} (h : ∀ a, s.table.get? n = some a → a.Serves n)
    (url : String) : (s.handle n url).1.network = n ∧ (s.handle n url).1.url = url := by
  rcases s.handle_eq n url with ⟨a, ha, hurl, hhandle⟩ | ⟨-, hhandle⟩
  · rw [hhandle]
    exact ⟨(h a ha).transport_network, (h a ha).transport_url.trans hurl⟩
  · rw [hhandle]
    exact ⟨rfl, rfl⟩

theorem Coherent.handle (h : s.Coherent) (n : NetworkId) (url : String) :
    (s.handle n url).1.network = n ∧ (s.handle n url).1.url = url :=
  handle_serves (fun _ => h.serves) url

theorem get?_publish (s : Selector) (n : NetworkId) (url : String) (latency : Duration)
    (now : Moment) (n' : NetworkId) :
    (s.publish n url latency now).2.table.get? n' =
      if n = n' then some ⟨⟨url, n, latency, now⟩, (s.handle n url).1⟩ else s.table.get? n' := by
  rw [publish, Table.get?_insert, handle_table]

/-- **Publishing keeps the table true.** -/
theorem Coherent.publish (h : s.Coherent) (n : NetworkId) (url : String) (latency : Duration)
    (now : Moment) : (s.publish n url latency now).2.Coherent where
  serves {n' a} ha := by
    rw [get?_publish] at ha
    split at ha
    · next hn =>
      obtain ⟨hnetwork, hurl⟩ := h.handle n url
      rw [← Option.some.inj ha]
      exact ⟨hn, hnetwork.trans hn, hurl⟩
    · exact h.serves ha

theorem Coherent.settle (h : s.Coherent) (n : NetworkId) (avoid : Option String)
    (probes : List Probe) (now : Moment) : (s.settle n avoid probes now).2.Coherent := by
  rw [Selector.settle]
  split
  · exact h
  · exact h.publish n _ _ now

/-- Where a probe is of use, the choice gives a handle to the address of the best one, and the table
holds it. -/
theorem settle_of_some {n : NetworkId} (h : ∀ a, s.table.get? n = some a → a.Serves n)
    {avoid : Option String} {probes : List Probe} {p : Probe}
    (hp : Probe.bestAvoiding avoid probes = some p) (now : Moment) :
    ∃ a s', s.settle n avoid probes now = (some a.transport, s') ∧ s'.listed = s.listed ∧
      s'.table.get? n = some a ∧ a.Serves n ∧ a.transport.url = p.url := by
  obtain ⟨hnetwork, hurl⟩ := handle_serves h p.url
  refine ⟨⟨⟨p.url, n, p.latency.getD 0, now⟩, (s.handle n p.url).1⟩,
    (s.publish n p.url (p.latency.getD 0) now).2, ?_, handle_listed s n p.url, ?_,
    ⟨rfl, hnetwork, hurl⟩, hurl⟩
  · simp only [settle, hp, publish]
  · rw [get?_publish, if_pos rfl]

/-- A choice gives a handle that leads to the address of the best probe. -/
theorem Coherent.settle_eq_some (h : s.Coherent) {n : NetworkId} {avoid : Option String}
    {probes : List Probe} {p : Probe} (hp : Probe.bestAvoiding avoid probes = some p)
    (now : Moment) :
    ∃ t, (s.settle n avoid probes now).1 = some t ∧ t.network = n ∧ t.url = p.url := by
  obtain ⟨a, s', hsettle, -, -, hserves, hurl⟩ := settle_of_some (fun _ => h.serves) hp now
  exact ⟨a.transport, congrArg Prod.fst hsettle, hserves.transport_network, hurl⟩

theorem settle_of_none (s : Selector) (n : NetworkId) {avoid : Option String}
    {probes : List Probe} (hnone : Probe.bestAvoiding avoid probes = none) (now : Moment) :
    s.settle n avoid probes now = (none, s) := by
  simp only [settle, hnone]

/-! ### Handles and their numbers -/

/-- Publish what a record tells. -/
def accept (s : Selector) (r : EndpointRecord) : Selector :=
  (s.publish r.network r.url r.latency r.updated).2

theorem get?_accept (s : Selector) (r : EndpointRecord) (n : NetworkId) :
    (s.accept r).table.get? n =
      if r.network = n then some ⟨r, (s.handle r.network r.url).1⟩ else s.table.get? n :=
  get?_publish s r.network r.url r.latency r.updated n

theorem opened_accept (s : Selector) (r : EndpointRecord) :
    (s.accept r).opened = (s.handle r.network r.url).2.opened :=
  rfl

theorem listed_accept (s : Selector) (r : EndpointRecord) : (s.accept r).listed = s.listed :=
  handle_listed s r.network r.url

/-- The handles in the table were made before. -/
structure Numbered (s : Selector) : Prop where
  /-- their numbers are below the next one -/
  serial_lt : ∀ {n a}, s.table.get? n = some a → a.transport.serial < s.opened

theorem numbered_unsettled (listed : Table NetworkId (List String)) :
    (unsettled listed).Numbered where
  serial_lt h := by cases h

theorem opened_le_accept (s : Selector) (r : EndpointRecord) : s.opened ≤ (s.accept r).opened := by
  rw [opened_accept]
  rcases s.handle_eq r.network r.url with ⟨a, -, -, h⟩ | ⟨-, h⟩
  · exact Nat.le_of_eq (congrArg (fun p => p.2.opened) h).symm
  · rw [h]
    exact Nat.le_succ _

theorem Numbered.accept (h : s.Numbered) (r : EndpointRecord) : (s.accept r).Numbered where
  serial_lt {n a} ha := by
    rw [get?_accept] at ha
    split at ha
    · rw [← Option.some.inj ha, opened_accept]
      rcases s.handle_eq r.network r.url with ⟨b, hb, -, hhandle⟩ | ⟨-, hhandle⟩
      · have hlt : b.transport.serial < s.opened := h.serial_lt hb
        rw [hhandle]
        exact hlt
      · rw [hhandle]
        exact Nat.lt_succ_self _
    · exact Nat.lt_of_lt_of_le (h.serial_lt ha) (opened_le_accept s r)

theorem Coherent.accept (h : s.Coherent) (r : EndpointRecord) : (s.accept r).Coherent :=
  h.publish r.network r.url r.latency r.updated

/-- **A handle is kept exactly when the address is.** -/
theorem Numbered.serial_accept_iff (h : s.Numbered) {r : EndpointRecord} {a a' : ActiveEndpoint}
    (ha : s.table.get? r.network = some a) (ha' : (s.accept r).table.get? r.network = some a') :
    a'.transport.serial = a.transport.serial ↔ r.url = a.record.url := by
  rw [get?_accept, if_pos rfl] at ha'
  obtain rfl := Option.some.inj ha'
  rcases s.handle_eq r.network r.url with ⟨b, hb, hurl, hhandle⟩ | ⟨hne, hhandle⟩
  · obtain rfl := Option.some.inj (hb.symm.trans ha)
    rw [hhandle]
    exact iff_of_true rfl hurl.symm
  · rw [hhandle]
    exact iff_of_false (Nat.ne_of_gt (h.serial_lt ha)) fun hurl => hne a ha hurl.symm

/-- An address that the table does not hold gets a handle with the next number. -/
theorem serial_accept {r : EndpointRecord} {a' : ActiveEndpoint}
    (hne : ∀ a, s.table.get? r.network = some a → a.record.url ≠ r.url)
    (ha' : (s.accept r).table.get? r.network = some a') : a'.transport.serial = s.opened := by
  rw [get?_accept, if_pos rfl] at ha'
  obtain rfl := Option.some.inj ha'
  rcases s.handle_eq r.network r.url with ⟨b, hb, hurl, -⟩ | ⟨-, hhandle⟩
  · exact absurd hurl (hne b hb)
  · rw [hhandle]
    rfl

end Selector

end PriceRelay
