import Mathlib.Data.List.Induction
import Mathlib.Data.List.Infix
import Mathlib.Order.Monotone.Basic
import PriceRelay.Proofs.Endpoint.Selector
/-!
# What becomes of the table of endpoints

Endpoints are published and chosen for many networks at once, and while the candidates of a choice
are probed anything may happen to the table. Still the table is easy to foresee: what stands under a
network is what the moves about that network make of it, in their order.

* `Switchboard` is a selector at work, `Switchboard.move` is what may happen next,
* `Switchboard.selector_move` says that a move publishes one endpoint or none,
* `Switchboard.Sound` is what holds after any moves, `Switchboard.Heeds` what one more move keeps,
* `Switchboard.Mirrors` relates a network among others to the same network by itself, where its
  handles have other numbers,
* `Switchboard.run_table` is what follows for every run.
-/

namespace PriceRelay

namespace Selector

/-- The probes of the candidates of a network, given how long each of them took. -/
def probes (s : Selector) (n : NetworkId) (answers : Nat → Option Duration) : List Probe :=
  (s.candidates n).mapIdx fun i url => ⟨n, url, answers i⟩

/-- The address is that of a candidate which answered, and took this long and not no time. -/
def Answered (s : Selector) (n : NetworkId) (answers : Nat → Option Duration) (url : String)
    (d : Duration) : Prop :=
  d ≠ 0 ∧ ∃ i, (s.candidates n)[i]? = some url ∧ answers i = some d

end Selector

/-- A selector at work. -/
structure Switchboard where
  /-- the selector -/
  selector : Selector
  /-- what each choice under way avoids; the choices for a network go by numbers -/
  underway : NetworkId → Nat → Option (Option String) := fun _ _ => none
  /-- how many requests were sent over each handle -/
  counts : RequestCounts := {}
  /-- the requests sent, by the serial number of the handle, with their own numbers -/
  sent : List (Nat × UInt64) := []

namespace Switchboard

/-- What may happen next. -/
inductive Move
  /-- somebody publishes an address -/
  | publish (n : NetworkId) (url : String) (latency : Duration) (now : Moment)
  /-- a choice begins that avoids an address, or nothing -/
  | refresh (n : NetworkId) (choice : Nat) (avoid : Option String)
  /-- a choice begins that avoids the address in the table -/
  | switch (n : NetworkId) (choice : Nat)
  /-- the candidates of a choice have been probed, and it is settled -/
  | probed (n : NetworkId) (choice : Nat) (answers : Nat → Option Duration) (now : Moment)
  /-- a request is sent over a handle -/
  | request (t : Transport)

/-- Whether a move is about a network. -/
def Move.isOn (n : NetworkId) : Move → Bool
  | publish m _ _ _ => m = n
  | refresh m _ _ => m = n
  | switch m _ => m = n
  | probed m _ _ _ => m = n
  | request _ => false

/-- The board on which one choice has got another entry. -/
def mark (b : Switchboard) (n : NetworkId) (choice : Nat) (entry : Option (Option String)) :
    Switchboard :=
  { b with underway := fun m i => if m = n ∧ i = choice then entry else b.underway m i }

/-- Begin a choice, if there is anything to choose from. -/
def begin (b : Switchboard) (n : NetworkId) (choice : Nat) (avoid : Option String) : Switchboard :=
  match b.selector.toProbe n with
  | .ok _ => b.mark n choice (some avoid)
  | .error _ => b

/-- Send a request over a handle. -/
def send (b : Switchboard) (t : Transport) : Switchboard :=
  { b with
    counts := (b.counts.next t).2
    sent := b.sent ++ [(t.serial, (b.counts.next t).1)] }

/-- Make a move. A choice that is not under way cannot be settled, and nothing can be sent over a
handle that was not made yet. -/
def move (b : Switchboard) : Move → Switchboard
  | .publish n url latency now => { b with selector := (b.selector.publish n url latency now).2 }
  | .refresh n choice avoid => b.begin n choice avoid
  | .switch n choice => b.begin n choice (b.selector.currentUrl n)
  | .probed n choice answers now =>
    match b.underway n choice with
    | none => b
    | some avoid =>
      { b.mark n choice none with
        selector := (b.selector.settle n avoid (b.selector.probes n answers) now).2 }
  | .request t => if t.serial < b.selector.opened then b.send t else b

/-- Make some moves, one after another. -/
def run (b : Switchboard) (moves : List Move) : Switchboard := moves.foldl move b

/-- Nothing was chosen, and no request was sent. -/
def idle (listed : Table NetworkId (List String)) : Switchboard where
  selector := .unsettled listed

theorem run_concat (b : Switchboard) (moves : List Move) (m : Move) :
    b.run (moves ++ [m]) = (b.run moves).move m :=
  List.foldl_concat ..

variable {b : Switchboard} {n : NetworkId}

theorem selector_begin (choice : Nat) (avoid : Option String) :
    (b.begin n choice avoid).selector = b.selector := by
  rw [begin]
  split <;> rfl

/-! ### What a move publishes -/

/-- What a move publishes, if anything. -/
def published? (b : Switchboard) : Move → Option EndpointRecord
  | .publish n url latency now => some ⟨url, n, latency, now⟩
  | .probed n choice answers now =>
    (b.underway n choice).bind fun avoid =>
      (Probe.bestAvoiding avoid (b.selector.probes n answers)).map fun p =>
        ⟨p.url, n, p.latency.getD 0, now⟩
  | _ => none

/-- **A move publishes one endpoint, or leaves the selector as it is.** -/
theorem selector_move (b : Switchboard) (m : Move) :
    (b.move m).selector = (b.published? m).elim b.selector b.selector.accept := by
  cases m with
  | publish n url latency now => rfl
  | refresh n choice avoid => exact selector_begin choice avoid
  | switch n choice => exact selector_begin choice _
  | probed n choice answers now =>
    rw [move, published?]
    cases b.underway n choice with
    | none => rfl
    | some avoid =>
      simp only [Selector.settle_eq, Option.bind_some]
      cases Probe.bestAvoiding avoid (b.selector.probes n answers) <;> rfl
  | request t =>
    rw [move]
    split <;> rfl

theorem network_of_published? {m : Move} {r : EndpointRecord} (h : b.published? m = some r) :
    m.isOn r.network = true := by
  cases m with
  | publish n url latency now =>
    rw [← Option.some.inj h]
    exact decide_eq_true rfl
  | probed n choice answers now =>
    obtain ⟨avoid, -, havoid⟩ := Option.bind_eq_some_iff.mp h
    obtain ⟨p, -, rfl⟩ := Option.map_eq_some_iff.mp havoid
    exact decide_eq_true rfl
  | _ => cases h

end Switchboard

namespace Selector

variable {s : Selector}

theorem mem_probes {n : NetworkId} {answers : Nat → Option Duration} {p : Probe} :
    p ∈ s.probes n answers ↔
      ∃ i url, (s.candidates n)[i]? = some url ∧ p = ⟨n, url, answers i⟩ := by
  rw [probes, List.mem_mapIdx]
  constructor
  · rintro ⟨i, hi, rfl⟩
    exact ⟨i, _, List.getElem?_eq_getElem hi, rfl⟩
  · rintro ⟨i, url, hurl, rfl⟩
    obtain ⟨hi, rfl⟩ := List.getElem?_eq_some_iff.mp hurl
    exact ⟨i, hi, rfl⟩

/-- What a choice publishes is a candidate that answered. -/
theorem answered_of_bestAvoiding {n : NetworkId} {answers : Nat → Option Duration}
    {avoid : Option String} {p : Probe}
    (h : Probe.bestAvoiding avoid (s.probes n answers) = some p) :
    s.Answered n answers p.url (p.latency.getD 0) := by
  obtain ⟨hmem, d, hd⟩ := Probe.mem_of_bestAvoiding h
  obtain ⟨hlatency, hne⟩ := Probe.speed_eq_some_iff.mp hd
  obtain ⟨i, url, hurl, rfl⟩ := mem_probes.mp hmem
  rw [hlatency]
  exact ⟨hne, i, hurl, hlatency⟩

/-- A choice publishes nothing only if no candidate answered. -/
theorem not_answered_of_bestAvoiding {n : NetworkId} {answers : Nat → Option Duration}
    {avoid : Option String} (h : Probe.bestAvoiding avoid (s.probes n answers) = none)
    (url : String) (d : Duration) : ¬ s.Answered n answers url d := by
  rintro ⟨hne, i, hurl, hlatency⟩
  have hspeed := Probe.bestAvoiding_eq_none_iff.mp h _ (mem_probes.mpr ⟨i, url, hurl, rfl⟩)
  rw [Probe.speed_eq_some_iff.mpr ⟨hlatency, hne⟩] at hspeed
  cases hspeed

end Selector

namespace Switchboard

variable {b : Switchboard} {n : NetworkId}

/-! ### What holds after any moves -/

/-- The numbers of the requests sent over a handle. -/
def idsOver (b : Switchboard) (serial : Nat) : List UInt64 :=
  (b.sent.filter fun p => p.1 = serial).map Prod.snd

/-- What holds after any moves. -/
structure Sound (b : Switchboard) : Prop where
  /-- what the table tells is true of the handles beside it -/
  coherent : b.selector.Coherent
  /-- the handles in the table were made before -/
  numbered : b.selector.Numbered
  /-- nothing was sent over a handle that was not made yet -/
  sent_lt : ∀ p ∈ b.sent, p.1 < b.selector.opened
  /-- the requests over a handle are counted -/
  counted : ∀ serial,
    (b.counts.sent.get? serial).getD 0 = UInt64.ofNat (b.idsOver serial).length
  /-- and they are numbered one, two, three and so on -/
  ids : ∀ serial, b.idsOver serial =
    (List.range (b.idsOver serial).length).map fun i => UInt64.ofNat (i + 1)

theorem sound_idle (listed : Table NetworkId (List String)) : (idle listed).Sound where
  coherent := Selector.coherent_unsettled listed
  numbered := Selector.numbered_unsettled listed
  sent_lt p hp := by cases hp
  counted _ := rfl
  ids _ := rfl

/-- A move that sends nothing keeps it all, since the selector publishes one endpoint or none. -/
theorem Sound.of_published? (h : b.Sound) {b' : Switchboard} {r? : Option EndpointRecord}
    (hselector : b'.selector = r?.elim b.selector b.selector.accept)
    (hcounts : b'.counts = b.counts) (hsent : b'.sent = b.sent) : b'.Sound := by
  have hids (serial : Nat) : b'.idsOver serial = b.idsOver serial := by
    rw [idsOver, idsOver, hsent]
  have hselected : b'.selector.Coherent ∧ b'.selector.Numbered ∧
      b.selector.opened ≤ b'.selector.opened := by
    rw [hselector]
    cases r? with
    | none => exact ⟨h.coherent, h.numbered, Nat.le_refl _⟩
    | some r => exact ⟨h.coherent.accept r, h.numbered.accept r, Selector.opened_le_accept _ r⟩
  obtain ⟨hcoherent, hnumbered, hopened⟩ := hselected
  refine ⟨hcoherent, hnumbered, fun p hp => ?_, fun serial => ?_, fun serial => ?_⟩
  · rw [hsent] at hp
    exact Nat.lt_of_lt_of_le (h.sent_lt p hp) hopened
  · rw [hcounts, hids]
    exact h.counted serial
  · rw [hids]
    exact h.ids serial

theorem idsOver_send (t : Transport) (serial : Nat) :
    (b.send t).idsOver serial =
      b.idsOver serial ++ if t.serial = serial then [(b.counts.next t).1] else [] := by
  rw [send, idsOver, idsOver, List.filter_append, List.map_append]
  by_cases ht : t.serial = serial
  · simp [ht]
  · simp [ht]

/-- A request gets the next number over its handle. -/
theorem Sound.send (h : b.Sound) {t : Transport} (ht : t.serial < b.selector.opened) :
    (b.send t).Sound where
  coherent := h.coherent
  numbered := h.numbered
  sent_lt p hp := by
    rcases List.mem_append.mp hp with hp | hp
    · exact h.sent_lt p hp
    · rw [List.mem_singleton.mp hp]
      exact ht
  counted serial := by
    rw [idsOver_send, Switchboard.send, RequestCounts.next, Table.get?_insert]
    split
    · next hserial =>
      rw [hserial, Option.getD_some, h.counted, List.length_append, UInt64.ofNat_add]
      rfl
    · rw [List.append_nil]
      exact h.counted serial
  ids serial := by
    rw [idsOver_send]
    split
    · next hserial =>
      have hid : (b.counts.next t).1 = UInt64.ofNat ((b.idsOver serial).length + 1) := by
        rw [RequestCounts.next, hserial, h.counted, UInt64.ofNat_add]
        rfl
      rw [List.length_append, List.length_singleton, List.range_succ, List.map_append,
        ← h.ids serial, hid]
      rfl
    · rw [List.append_nil]
      exact h.ids serial

theorem requests_begin (b : Switchboard) (n : NetworkId) (choice : Nat) (avoid : Option String) :
    (b.begin n choice avoid).counts = b.counts ∧ (b.begin n choice avoid).sent = b.sent := by
  rw [begin]
  split <;> exact ⟨rfl, rfl⟩

theorem Sound.move (h : b.Sound) (m : Move) : (b.move m).Sound := by
  cases m with
  | publish n url latency now => exact h.of_published? (selector_move b _) rfl rfl
  | refresh n choice avoid =>
    obtain ⟨hcounts, hsent⟩ := requests_begin b n choice avoid
    exact h.of_published? (selector_move b (.refresh n choice avoid)) hcounts hsent
  | switch n choice =>
    obtain ⟨hcounts, hsent⟩ := requests_begin b n choice (b.selector.currentUrl n)
    exact h.of_published? (selector_move b (.switch n choice)) hcounts hsent
  | probed n choice answers now =>
    refine h.of_published? (selector_move b (.probed n choice answers now)) ?_ ?_
    · rw [Switchboard.move]
      split <;> rfl
    · rw [Switchboard.move]
      split <;> rfl
  | request t =>
    rw [Switchboard.move]
    split
    · next ht => exact h.send ht
    · exact h

theorem Sound.run (h : b.Sound) (moves : List Move) : (b.run moves).Sound := by
  induction moves using List.reverseRecOn with
  | nil => exact h
  | append_singleton moves m ih =>
    rw [run_concat]
    exact ih.move m

/-! ### What one more move does -/

/-- What a move does to the table. -/
structure Heeds (b : Switchboard) (m : Move) : Prop where
  /-- a network that has an endpoint goes on to have one -/
  present : ∀ n, (b.selector.endpoint? n).isSome → ((b.move m).selector.endpoint? n).isSome
  /-- a network that the move is not about keeps its entry -/
  elsewhere : ∀ n, m.isOn n = false →
    (b.move m).selector.table.get? n = b.selector.table.get? n
  /-- what is published stands in the table -/
  published : ∀ n url latency now, m = .publish n url latency now →
    (b.move m).selector.endpoint? n = some ⟨url, n, latency, now⟩
  /-- a choice publishes a candidate that answered, or does nothing if none did -/
  chosen : ∀ n choice answers now, m = .probed n choice answers now →
    b.underway n choice ≠ none →
      (∃ url d, b.selector.Answered n answers url d ∧
        (b.move m).selector.endpoint? n = some ⟨url, n, d, now⟩) ∨
      ((∀ url d, ¬ b.selector.Answered n answers url d) ∧ (b.move m).selector = b.selector)
  /-- a choice that is not under way does nothing -/
  unbegun : ∀ n choice answers now, m = .probed n choice answers now →
    b.underway n choice = none → b.move m = b
  /-- no choice begins where there is nothing to choose from -/
  unlisted : ∀ n choice, b.selector.candidates n = [] →
    (m = .switch n choice ∨ ∃ avoid, m = .refresh n choice avoid) → b.move m = b
  /-- nothing else changes the selector -/
  steady : (∀ n url latency now, m ≠ .publish n url latency now) →
    (∀ n choice answers now, m ≠ .probed n choice answers now) →
      (b.move m).selector = b.selector
  /-- a handle is kept exactly when the address is -/
  handle : ∀ n a a', b.selector.table.get? n = some a →
    (b.move m).selector.table.get? n = some a' →
      (a'.transport.sharesConnection a.transport = true ↔ a'.record.url = a.record.url)
  /-- over the handle to another address nothing was sent yet -/
  unused : ∀ n a', (b.move m).selector.table.get? n = some a' →
    (∀ a, b.selector.table.get? n = some a → a.record.url ≠ a'.record.url) →
      (b.move m).idsOver a'.transport.serial = []

/-- What a move does to the entry of a network: it stays, or it is published. -/
theorem get?_move (b : Switchboard) (m : Move) (n : NetworkId) :
    (b.move m).selector.table.get? n = b.selector.table.get? n ∨
      ∃ r, r.network = n ∧ b.published? m = some r ∧
        (b.move m).selector.table.get? n = some ⟨r, (b.selector.handle n r.url).1⟩ := by
  rw [selector_move]
  cases hr : b.published? m with
  | none => exact .inl rfl
  | some r =>
    rw [Option.elim_some, Selector.get?_accept]
    split
    · next hn => exact .inr ⟨r, hn, rfl, by rw [hn]⟩
    · exact .inl rfl

theorem get?_move_of_not_isOn {m : Move} (hm : m.isOn n = false) :
    (b.move m).selector.table.get? n = b.selector.table.get? n := by
  rcases get?_move b m n with hget | ⟨r, rfl, hr, -⟩
  · exact hget
  · rw [network_of_published? hr] at hm
    cases hm

theorem begin_of_unlisted {choice : Nat} {avoid : Option String}
    (h : b.selector.candidates n = []) : b.begin n choice avoid = b := by
  rw [begin, Selector.toProbe, h]

theorem record_accept {s : Selector} {r : EndpointRecord} {a : ActiveEndpoint}
    (h : (s.accept r).table.get? r.network = some a) : a.record = r := by
  rw [Selector.get?_accept, if_pos rfl] at h
  rw [← Option.some.inj h]

/-- A move that publishes sends nothing. -/
theorem sent_of_published? {m : Move} {r : EndpointRecord} (h : b.published? m = some r) :
    (b.move m).sent = b.sent := by
  cases m with
  | publish n url latency now => rfl
  | probed n choice answers now =>
    rw [Switchboard.move]
    split <;> rfl
  | _ => cases h

theorem Sound.idsOver_eq_nil (h : b.Sound) {serial : Nat} (hserial : b.selector.opened ≤ serial) :
    b.idsOver serial = [] := by
  have hnone : b.sent.filter (fun p => p.1 = serial) = [] := by
    refine List.filter_eq_nil_iff.mpr fun p hp heq => ?_
    exact Nat.not_le.mpr (h.sent_lt p hp) (of_decide_eq_true heq ▸ hserial)
  rw [idsOver, hnone, List.map_nil]

/-- **Every move heeds the table.** -/
theorem Sound.heeds (h : b.Sound) (m : Move) : b.Heeds m where
  present n hn := by
    rcases get?_move b m n with hget | ⟨r, -, -, hget⟩
    · rw [Selector.endpoint?, hget]
      exact hn
    · rw [Selector.endpoint?, hget]
      rfl
  elsewhere n hm := get?_move_of_not_isOn hm
  published n url latency now hm := by
    rw [hm, selector_move, published?, Option.elim_some, Selector.endpoint?, Selector.get?_accept,
      if_pos rfl]
    rfl
  chosen n choice answers now hm hunderway := by
    obtain ⟨avoid, havoid⟩ := Option.ne_none_iff_exists'.mp hunderway
    rw [hm, selector_move, published?, havoid, Option.bind_some]
    cases hbest : Probe.bestAvoiding avoid (b.selector.probes n answers) with
    | none => exact .inr ⟨Selector.not_answered_of_bestAvoiding hbest, rfl⟩
    | some p =>
      refine .inl ⟨p.url, p.latency.getD 0, Selector.answered_of_bestAvoiding hbest, ?_⟩
      rw [Option.map_some, Option.elim_some, Selector.endpoint?, Selector.get?_accept, if_pos rfl]
      rfl
  unbegun n choice answers now hm hunderway := by
    rw [hm, Switchboard.move, hunderway]
  unlisted n choice hnone hm := by
    rcases hm with rfl | ⟨avoid, rfl⟩
    · exact begin_of_unlisted hnone
    · exact begin_of_unlisted hnone
  steady hpublish hprobed := by
    rw [selector_move]
    cases m with
    | publish n url latency now => exact absurd rfl (hpublish n url latency now)
    | probed n choice answers now => exact absurd rfl (hprobed n choice answers now)
    | _ => rfl
  handle n a a' ha ha' := by
    rw [Transport.sharesConnection, decide_eq_true_iff]
    rcases get?_move b m n with hget | ⟨r, rfl, hr, -⟩
    · obtain rfl := Option.some.inj (ha.symm.trans (hget.symm.trans ha'))
      exact iff_of_true rfl rfl
    · rw [selector_move, hr, Option.elim_some] at ha'
      rw [record_accept ha']
      exact h.numbered.serial_accept_iff ha ha'
  unused n a' ha' hne := by
    rcases get?_move b m n with hget | ⟨r, rfl, hr, -⟩
    · exact absurd rfl (hne a' (hget.symm.trans ha'))
    · rw [selector_move, hr, Option.elim_some] at ha'
      have hrecord : a'.record = r := record_accept ha'
      have hnew : a'.transport.serial = b.selector.opened :=
        Selector.serial_accept (fun a ha => hrecord ▸ hne a ha) ha'
      rw [idsOver, sent_of_published? hr, ← idsOver, hnew]
      exact h.idsOver_eq_nil (Nat.le_refl _)

end Switchboard

/-! ### A network by itself -/

/-- The handle with another number. -/
def Transport.renumbered (rho : Nat → Nat) (t : Transport) : Transport :=
  { t with serial := rho t.serial }

/-- The entry with another number of its handle. -/
def ActiveEndpoint.renumbered (rho : Nat → Nat) (a : ActiveEndpoint) : ActiveEndpoint :=
  { a with transport := a.transport.renumbered rho }

namespace Switchboard

/-- A network stands as it would by itself, with handles numbered otherwise. -/
structure Mirrors (rho : Nat → Nat) (n : NetworkId) (b alone : Switchboard) : Prop where
  /-- different handles have different numbers -/
  strictMono : StrictMono rho
  /-- and all of them were made -/
  lt_opened : ∀ k < alone.selector.opened, rho k < b.selector.opened
  /-- there is the same to choose from -/
  listed : b.selector.listed = alone.selector.listed
  /-- the same choices are under way -/
  underway : b.underway n = alone.underway n
  /-- and the entry is the same -/
  entry : b.selector.table.get? n =
    (alone.selector.table.get? n).map (ActiveEndpoint.renumbered rho)

theorem mirrors_self (b : Switchboard) (n : NetworkId) : Mirrors id n b b where
  strictMono := strictMono_id
  lt_opened _ hk := hk
  listed := rfl
  underway := rfl
  entry := (Option.map_id_apply).symm

variable {b alone : Switchboard} {n : NetworkId} {rho rho' : Nat → Nat}

/-- Only the numbers of handles that were made matter. -/
theorem Mirrors.congr (h : Mirrors rho n b alone) (halone : alone.Sound) (hmono : StrictMono rho')
    (hrho : ∀ k < alone.selector.opened, rho' k = rho k) : Mirrors rho' n b alone where
  strictMono := hmono
  lt_opened k hk := hrho k hk ▸ h.lt_opened k hk
  listed := h.listed
  underway := h.underway
  entry := by
    rw [h.entry]
    refine Option.map_congr fun a ha => ?_
    rw [ActiveEndpoint.renumbered, ActiveEndpoint.renumbered, Transport.renumbered,
      Transport.renumbered, hrho _ (halone.numbered.serial_lt ha)]

theorem Mirrors.endpoint?_eq (h : Mirrors rho n b alone) :
    b.selector.endpoint? n = alone.selector.endpoint? n := by
  rw [Selector.endpoint?, Selector.endpoint?, h.entry, Option.map_map]
  rfl

theorem Mirrors.published?_eq (h : Mirrors rho n b alone) {m : Move} (hm : m.isOn n = true) :
    b.published? m = alone.published? m := by
  cases m with
  | probed n' choice answers now =>
    obtain rfl := of_decide_eq_true hm
    rw [published?, published?, h.underway, Selector.probes, Selector.probes, Selector.candidates,
      Selector.candidates, h.listed]
  | _ => rfl

theorem underway_mark_of_ne {n' : NetworkId} (hn : n' ≠ n) (choice : Nat)
    (entry : Option (Option String)) : (b.mark n' choice entry).underway n = b.underway n :=
  funext fun _ => if_neg fun h => hn h.1.symm

theorem underway_mark_self (choice : Nat) (entry : Option (Option String)) :
    (b.mark n choice entry).underway n = fun i => if i = choice then entry else b.underway n i := by
  funext i
  simp only [mark, true_and]

theorem underway_begin_of_ne {n' : NetworkId} (hn : n' ≠ n) (choice : Nat)
    (avoid : Option String) : (b.begin n' choice avoid).underway n = b.underway n := by
  rw [begin]
  split
  · exact underway_mark_of_ne hn choice _
  · rfl

/-- What others do leaves the choices for a network as they are. -/
theorem underway_move {m : Move} (hm : m.isOn n = false) :
    (b.move m).underway n = b.underway n := by
  cases m with
  | publish n' url latency now => rfl
  | refresh n' choice avoid => exact underway_begin_of_ne (of_decide_eq_false hm) choice avoid
  | switch n' choice => exact underway_begin_of_ne (of_decide_eq_false hm) choice _
  | probed n' choice answers now =>
    rw [move]
    split
    · rfl
    · exact underway_mark_of_ne (of_decide_eq_false hm) choice none
  | request t =>
    rw [move]
    split <;> rfl

theorem Mirrors.underway_begin (h : Mirrors rho n b alone) (choice : Nat)
    (avoid : Option String) :
    (b.begin n choice avoid).underway n = (alone.begin n choice avoid).underway n := by
  have hprobe : b.selector.toProbe n = alone.selector.toProbe n := by
    rw [Selector.toProbe, Selector.toProbe, Selector.candidates, Selector.candidates, h.listed]
  rw [begin, begin, hprobe]
  split
  · rw [underway_mark_self, underway_mark_self, h.underway]
  · exact h.underway

theorem Mirrors.underway_move (h : Mirrors rho n b alone) {m : Move} (hm : m.isOn n = true) :
    (b.move m).underway n = (alone.move m).underway n := by
  cases m with
  | publish n' url latency now => exact h.underway
  | refresh n' choice avoid =>
    obtain rfl := of_decide_eq_true hm
    exact h.underway_begin choice avoid
  | switch n' choice =>
    obtain rfl := of_decide_eq_true hm
    have hurl : b.selector.currentUrl n' = alone.selector.currentUrl n' := by
      rw [Selector.currentUrl, Selector.currentUrl, h.endpoint?_eq]
    rw [Switchboard.move, Switchboard.move, hurl]
    exact h.underway_begin choice _
  | probed n' choice answers now =>
    obtain rfl := of_decide_eq_true hm
    rw [Switchboard.move, Switchboard.move, h.underway]
    split
    · exact h.underway
    · exact (underway_mark_self choice none).trans
        (h.underway ▸ (underway_mark_self choice none).symm)
  | request t => cases hm

theorem listed_move (b : Switchboard) (m : Move) :
    (b.move m).selector.listed = b.selector.listed := by
  rw [selector_move]
  cases b.published? m with
  | none => rfl
  | some r => exact Selector.listed_accept _ r

theorem opened_le_move (b : Switchboard) (m : Move) :
    b.selector.opened ≤ (b.move m).selector.opened := by
  rw [selector_move]
  cases b.published? m with
  | none => exact Nat.le_refl _
  | some r => exact Selector.opened_le_accept _ r

/-- **What others do does not show.** -/
theorem Mirrors.move_elsewhere (h : Mirrors rho n b alone) {m : Move} (hm : m.isOn n = false) :
    Mirrors rho n (b.move m) alone where
  strictMono := h.strictMono
  lt_opened k hk := Nat.lt_of_lt_of_le (h.lt_opened k hk) (opened_le_move b m)
  listed := (listed_move b m).trans h.listed
  underway := (Switchboard.underway_move hm).trans h.underway
  entry := (get?_move_of_not_isOn hm).trans h.entry

/-- The numbers of the handles made so far, and of those that will be made if the next one is
number `k` of the network by itself and number `k'` among all. -/
def numbering (rho : Nat → Nat) (k k' i : Nat) : Nat :=
  if i < k then rho i else k' + (i - k)

theorem strictMono_numbering (hrho : StrictMono rho) {k k' : Nat} (hlt : ∀ i < k, rho i < k') :
    StrictMono (numbering rho k k') := by
  intro i j hij
  rw [numbering, numbering]
  split
  · next hi =>
    split
    · exact hrho hij
    · exact Nat.lt_of_lt_of_le (hlt i hi) (Nat.le_add_right ..)
  · next hi =>
    rw [if_neg (by omega)]
    omega

/-- The handle to an address is the same among others, up to its number. -/
theorem Mirrors.handle (h : Mirrors rho n b alone) (url : String) :
    ∃ rho', StrictMono rho' ∧ (∀ k < alone.selector.opened, rho' k = rho k) ∧
      (∀ k < (alone.selector.handle n url).2.opened, rho' k < (b.selector.handle n url).2.opened) ∧
      (b.selector.handle n url).1 = (alone.selector.handle n url).1.renumbered rho' := by
  have hentry := h.entry
  rcases alone.selector.handle_eq n url with ⟨a, ha, hurl, hhandle⟩ | ⟨hne, hhandle⟩
  · -- the address is in the table on both sides, and so is the handle
    rw [ha, Option.map_some] at hentry
    have hkept : b.selector.handle n url = (a.transport.renumbered rho, b.selector) := by
      rw [Selector.handle, hentry]
      exact if_pos hurl
    rw [hhandle, hkept]
    exact ⟨rho, h.strictMono, fun _ _ => rfl, h.lt_opened, rfl⟩
  · -- a handle is made on both sides, with the next number of each
    have hnew : b.selector.handle n url = b.selector.connect n url := by
      rcases b.selector.handle_eq n url with ⟨b', hb', hurl, -⟩ | ⟨-, hnew⟩
      · obtain ⟨a, ha, rfl⟩ := Option.map_eq_some_iff.mp (hentry.symm.trans hb')
        exact absurd hurl (hne a ha)
      · exact hnew
    rw [hhandle, hnew]
    refine ⟨numbering rho alone.selector.opened b.selector.opened,
      strictMono_numbering h.strictMono h.lt_opened, fun k hk => if_pos hk, fun k hk => ?_, ?_⟩
    · have hlast : numbering rho alone.selector.opened b.selector.opened k ≤ b.selector.opened := by
        rw [numbering]
        split
        · next hlt => exact Nat.le_of_lt (h.lt_opened k hlt)
        · next hge =>
          have hk : k < alone.selector.opened + 1 := hk
          omega
      exact Nat.lt_succ_of_le hlast
    · have hnext : numbering rho alone.selector.opened b.selector.opened alone.selector.opened =
          b.selector.opened := by
        rw [numbering, if_neg (Nat.lt_irrefl _), Nat.sub_self, Nat.add_zero]
      rw [Transport.renumbered, Selector.connect, Selector.connect, hnext]

theorem Move.eq_of_isOn {m : Move} {n' : NetworkId} (hn : m.isOn n = true)
    (hn' : m.isOn n' = true) : n = n' := by
  cases m with
  | request t => cases hn
  | _ => exact (of_decide_eq_true hn).symm.trans (of_decide_eq_true hn')

/-- **A move about a network has the same effect among others**, up to the number of the handle it
makes. -/
theorem Mirrors.move_on (h : Mirrors rho n b alone) {m : Move} (hm : m.isOn n = true) :
    ∃ rho', (∀ k < alone.selector.opened, rho' k = rho k) ∧
      Mirrors rho' n (b.move m) (alone.move m) := by
  have hlisted : (b.move m).selector.listed = (alone.move m).selector.listed := by
    rw [listed_move, listed_move, h.listed]
  have hb := selector_move b m
  have halone := selector_move alone m
  rw [h.published?_eq hm] at hb
  cases hr : alone.published? m with
  | none =>
    rw [hr] at hb halone
    refine ⟨rho, fun _ _ => rfl, h.strictMono, ?_, hlisted, h.underway_move hm, ?_⟩
    · rw [hb, halone]
      exact h.lt_opened
    · rw [hb, halone]
      exact h.entry
  | some r =>
    rw [hr, Option.elim_some] at hb halone
    -- what the move publishes, it publishes on both sides, under the network it is about
    obtain rfl := Move.eq_of_isOn hm (network_of_published? hr)
    obtain ⟨rho', hmono, hrho, hlt, hhandle⟩ := h.handle r.url
    refine ⟨rho', hrho, hmono, ?_, hlisted, h.underway_move hm, ?_⟩
    · rw [hb, halone, Selector.opened_accept, Selector.opened_accept]
      exact hlt
    · rw [hb, halone, Selector.get?_accept, Selector.get?_accept, if_pos rfl, if_pos rfl, hhandle]
      rfl

/-- A whole run, from boards where the network stands the same: one numbering does for all of the
run, since a later move does not change the numbers of the handles that were made before. -/
theorem Mirrors.run (h : Mirrors rho n b alone) (halone : alone.Sound) (moves : List Move) :
    ∃ rho', (∀ k < alone.selector.opened, rho' k = rho k) ∧ ∀ before, before <+: moves →
      Mirrors rho' n (b.run before) (alone.run (before.filter (Move.isOn n))) := by
  induction moves generalizing b alone rho with
  | nil =>
    refine ⟨rho, fun _ _ => rfl, fun before hbefore => ?_⟩
    rw [List.prefix_nil.mp hbefore]
    exact h
  | cons m moves ih =>
    -- the numbering found for the rest of the run does for its beginning, where fewer are made
    have hstart {rho' : Nat → Nat} (hmono : StrictMono rho')
        (hrho : ∀ k < alone.selector.opened, rho' k = rho k) := h.congr halone hmono hrho
    cases hm : m.isOn n with
    | false =>
      obtain ⟨rho', hrho, hrun⟩ := ih (h.move_elsewhere hm) halone
      refine ⟨rho', hrho, fun before hbefore => ?_⟩
      rcases List.prefix_cons_iff.mp hbefore with rfl | ⟨rest, rfl, hrest⟩
      · exact hstart (hrun [] (List.nil_prefix)).strictMono hrho
      · rw [List.filter_cons_of_neg (by rw [hm]; exact Bool.false_ne_true)]
        exact hrun rest hrest
    | true =>
      obtain ⟨rho₁, hrho₁, hmove⟩ := h.move_on hm
      obtain ⟨rho', hrho', hrun⟩ := ih hmove (halone.move m)
      have hrho (k : Nat) (hk : k < alone.selector.opened) : rho' k = rho k :=
        (hrho' k (Nat.lt_of_lt_of_le hk (opened_le_move alone m))).trans (hrho₁ k hk)
      refine ⟨rho', hrho, fun before hbefore => ?_⟩
      rcases List.prefix_cons_iff.mp hbefore with rfl | ⟨rest, rfl, hrest⟩
      · exact hstart (hrun [] (List.nil_prefix)).strictMono hrho
      · rw [List.filter_cons_of_pos hm]
        exact hrun rest hrest

/-- A network that has an endpoint goes on to have one. -/
theorem Sound.present_run (h : b.Sound) (later : List Move)
    (hn : (b.selector.endpoint? n).isSome) : ((b.run later).selector.endpoint? n).isSome := by
  induction later using List.reverseRecOn with
  | nil => exact hn
  | append_singleton later m ih =>
    rw [run_concat]
    exact ((h.run later).heeds m).present n ih

/-- **What stands under a network is what the moves about it make of it.** After any moves the table
is sound, one more move does to it what it should, and no endpoint is lost later; and at every
moment of the run the entry of a network is the one it would have by itself, where its handles have
numbers of their own. An endpoint that is to be published gets its handle, as `Selector.connect`
assumes. -/
theorem run_table (listed : Table NetworkId (List String)) (moves : List Move) :
    ((idle listed).run moves).Sound ∧
    (∀ m, ((idle listed).run moves).Heeds m) ∧
    (∀ later n, (((idle listed).run moves).selector.endpoint? n).isSome →
      ((((idle listed).run moves).run later).selector.endpoint? n).isSome) ∧
    ∀ n, ∃ rho : Nat → Nat, StrictMono rho ∧ ∀ before, before <+: moves →
      ((idle listed).run before).selector.table.get? n =
        (((idle listed).run (before.filter (Move.isOn n))).selector.table.get? n).map
          (ActiveEndpoint.renumbered rho) := by
  have hsound : ((idle listed).run moves).Sound := (sound_idle listed).run moves
  refine ⟨hsound, hsound.heeds, fun later n => hsound.present_run later, fun n => ?_⟩
  obtain ⟨rho, -, hrun⟩ := (mirrors_self (idle listed) n).run (sound_idle listed) moves
  exact ⟨rho, (hrun [] List.nil_prefix).strictMono,
    fun before hbefore => (hrun before hbefore).entry⟩

end Switchboard

end PriceRelay
