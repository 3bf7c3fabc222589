import PriceRelay.Node
import PriceRelay.Proofs.Attempts
import PriceRelay.Proofs.Table
/-!
# Limits of a configuration

The loops cannot run with every tunable. A semaphore holds so many permits, the clock goes on for
so long, a period must not be empty, attempts are counted in 32 bits, and a pause cannot be doubled
for ever. `Config.validate` refuses what is zero, but nothing for being too large.

* `Limiter.mostPermits`, `Ticker.horizon` and `Duration.longest` are the limits that do not depend
  on the configuration,
* `QuoteService.two_mul_pause_le` bounds the pauses between the requests for quotes,
  `QuoteService.exists_pause` says that the bound is reached, and `QuoteService.pausesFit_iff` for
  which numbers of retries it is no longer than a duration can be,
* `Config.exists_candidates` and `Config.period_ne_zero` tell what an accepted configuration has,
* `Config.Withstands` says that a configuration keeps to the limits whatever fails,
* `Config.withstands_iff` says which of the accepted configurations do.
-/

namespace PriceRelay

/-- How many permits a semaphore can hold: it keeps three of 64 bits to itself. -/
def Limiter.mostPermits : Nat := 2305843009213693951

/-- When the clock ends: it counts its seconds in 63 bits. -/
def Ticker.horizon : Duration := .ofSeconds 9223372036854775808

/-- The longest duration: its seconds fill 64 bits, and one nanosecond is missing to one more. -/
def Duration.longest : Duration := 18446744073709551615999999999

/-! ### Pauses between requests -/

namespace QuoteService

variable {σ : Type} {get : Channel σ String HttpReply} {target : String}

theorem send_of_failure {s s' : σ} {reply : HttpReply} {text : String}
    (hget : get target s = (reply, s')) (hfailure : failureText reply = some text)
    (retries pause : Nat) :
    (send get target (retries + 1) pause s).2.1 =
      pause :: (send get target retries (pause * 2) s').2.1 := by
  rw [send, hget]
  simp only [hfailure]

theorem pauses_of_success {s s' : σ} {reply : HttpReply} (hget : get target s = (reply, s'))
    (hsuccess : failureText reply = none) (retries pause : Nat) :
    (send get target retries pause s).2.1 = [] := by
  rw [send, hget]
  cases reply <;> simp only [hsuccess]

/-- **No pause can be doubled more often than there are retries.** -/
theorem two_mul_pause_le {retries pause p : Nat} {s : σ}
    (hp : p ∈ (send get target retries pause s).2.1) : p * 2 ≤ pause * Nat.pow 2 retries := by
  rcases hget : get target s with ⟨reply, s'⟩
  induction retries generalizing pause s reply s' with
  | zero =>
    have hnone : (send get target 0 pause s).2.1 = [] := by
      rw [send, hget]
      cases hfailure : failureText reply <;> cases reply <;> simp only [hfailure]
    rw [hnone] at hp
    cases hp
  | succ retries ih =>
    cases hfailure : failureText reply with
    | none =>
      rw [pauses_of_success hget hfailure] at hp
      cases hp
    | some text =>
      rw [send_of_failure hget hfailure, List.mem_cons] at hp
      have hpow : pause * Nat.pow 2 (retries + 1) = pause * 2 * Nat.pow 2 retries := by
        rw [Nat.mul_assoc, Nat.pow_eq, Nat.pow_eq, Nat.pow_succ']
      rw [hpow]
      rcases hp with rfl | hp
      · exact Nat.le_mul_of_pos_right _ (Nat.pow_pos Nat.two_pos)
      · rcases hget' : get target s' with ⟨reply', s''⟩
        exact ih hp reply' s'' hget'

/-- Where no request succeeds, the last pause is doubled that often. -/
theorem exists_pause (hfails : ∀ s, failureText (get target s).1 ≠ none) (retries pause : Nat)
    (s : σ) : pause * Nat.pow 2 retries ∈ (send get target (retries + 1) pause s).2.1 := by
  induction retries generalizing pause s with
  | zero =>
    obtain ⟨text, htext⟩ := Option.ne_none_iff_exists'.mp (hfails s)
    rw [send_of_failure rfl htext, Nat.pow_eq, Nat.pow_zero, Nat.mul_one]
    exact List.mem_cons_self
  | succ retries ih =>
    obtain ⟨text, htext⟩ := Option.ne_none_iff_exists'.mp (hfails s)
    rw [send_of_failure rfl htext, Nat.pow_eq, Nat.pow_succ', ← Nat.mul_assoc]
    exact List.mem_cons_of_mem _ (ih (pause * 2) _)

/-- The first pause, doubled once for every retry. -/
def finalPause (q : QuoteConfig) : Duration := firstPause * Nat.pow 2 q.httpRetries.toNat

theorem pauses_fetchLatest (unread : Wording) (service : QuoteService)
    (get : Channel σ String HttpReply) {ids : List String} (hids : ids.isEmpty = false) (s : σ) :
    (service.fetchLatest unread get ids s).2.1 =
      (send get (service.target ids) service.retries.toNat firstPause s).2.1 := by
  rw [fetchLatest, hids]
  rcases send get (service.target ids) service.retries.toNat firstPause s with
    ⟨_ | body, pauses, s'⟩ <;> rfl

/-- Every pause between requests for quotes can be doubled, whatever the replies are. -/
def PausesFit (q : QuoteConfig) : Prop :=
  ∀ (σ : Type) (unread : Wording) (get : Channel σ String HttpReply) (ids : List String) (s : σ),
    ∀ p ∈ ((ofConfig q).fetchLatest unread get ids s).2.1, p * 2 ≤ Duration.longest

theorem two_mul_pause_le_finalPause (q : QuoteConfig) {unread : Wording} {ids : List String}
    {p : Nat} {s : σ} (hp : p ∈ ((ofConfig q).fetchLatest unread get ids s).2.1) :
    p * 2 ≤ finalPause q := by
  cases hids : ids.isEmpty with
  | true =>
    rw [fetchLatest, hids, if_pos rfl] at hp
    cases hp
  | false =>
    rw [pauses_fetchLatest _ _ _ hids] at hp
    exact two_mul_pause_le hp

/-- A channel over which no server can be reached. -/
def unreachable : Channel Unit String HttpReply := fun target s => (.unreachable target, s)

theorem exists_finalPause {q : QuoteConfig} (hretries : q.httpRetries.toNat ≠ 0)
    (unread : Wording) :
    ∃ p, p * 2 = finalPause q ∧
      p ∈ ((ofConfig q).fetchLatest unread unreachable [""] ()).2.1 := by
  obtain ⟨retries, hsucc⟩ := Nat.exists_eq_succ_of_ne_zero hretries
  refine ⟨firstPause * Nat.pow 2 retries, ?_, ?_⟩
  · rw [finalPause, hsucc, Nat.mul_assoc]
    rfl
  · rw [pauses_fetchLatest _ _ _ rfl]
    have hservice : (ofConfig q).retries.toNat = retries + 1 := hsucc
    have hfails (s : Unit) : failureText (unreachable ((ofConfig q).target [""]) s).1 ≠ none :=
      Option.some_ne_none _
    rw [hservice]
    exact exists_pause hfails retries firstPause ()

/-- **There is room for the pauses of 67 retries**, and not of one more. -/
theorem pausesFit_iff (q : QuoteConfig) : PausesFit q ↔ q.httpRetries.toNat ≤ 67 := by
  constructor
  · intro h
    refine Nat.le_of_not_lt fun hlt => ?_
    obtain ⟨p, hlast, hp⟩ := exists_finalPause (q := q) (Nat.ne_zero_of_lt hlt) id
    have hfits : p * 2 ≤ Duration.longest := h Unit _ _ _ _ p hp
    have hpow : Nat.pow 2 68 ≤ Nat.pow 2 q.httpRetries.toNat :=
      Nat.pow_le_pow_right Nat.two_pos hlt
    have hmany : Duration.longest < firstPause * Nat.pow 2 68 := by decide
    rw [hlast] at hfits
    have hle : firstPause * Nat.pow 2 68 ≤ finalPause q := Nat.mul_le_mul_left _ hpow
    exact absurd hmany (Nat.not_lt.mpr (Nat.le_trans hle hfits))
  · intro hle σ unread get ids s p hp
    have hpow : Nat.pow 2 q.httpRetries.toNat ≤ Nat.pow 2 67 :=
      Nat.pow_le_pow_right Nat.two_pos hle
    calc p * 2 ≤ finalPause q := two_mul_pause_le_finalPause q hp
      _ ≤ firstPause * Nat.pow 2 67 := Nat.mul_le_mul_left _ hpow
      _ ≤ Duration.longest := by decide

end QuoteService

/-! ### What an accepted configuration has -/

namespace Config

variable {c : Config}

theorem fault?_of_validate (h : c.validate = .ok ()) : c.fault? = none := by
  rw [validate] at h
  split at h
  · assumption
  · cases h

theorem ne_zero_of_validate (h : c.validate = .ok ()) {name : String} {value : UInt64}
    (hmem : (name, value) ∈ c.nonzero) : value ≠ 0 := by
  have hzero := (Option.or_eq_none_iff.mp (Option.or_eq_none_iff.mp (fault?_of_validate h)).1).1
  have hfind := List.find?_eq_none.mp (Option.map_eq_none_iff.mp hzero) _ hmem
  exact of_decide_eq_false (Bool.eq_false_iff.mpr hfind)

/-- Some address of each network is not blank. -/
theorem endpoints_of_networksFault? {seen : List NetworkId} {nets : List NetworkConfig}
    (h : networksFault? seen nets = none) {net : NetworkConfig} (hnet : net ∈ nets) :
    net.endpoints.all Text.isBlankText = false := by
  induction nets generalizing seen with
  | nil => cases hnet
  | cons first nets ih =>
    obtain ⟨hfirst, hrest⟩ := Option.or_eq_none_iff.mp h
    rcases List.mem_cons.mp hnet with rfl | hnet
    · rw [networkFault?] at hfirst
      split at hfirst
      · cases hfirst
      · split at hfirst
        · cases hfirst
        · next hblank => exact Bool.eq_false_iff.mpr hblank
    · exact ih hrest hnet

variable {σ : Type} (web : Web σ) (servers : σ)

/-- Look-ups of candidates find the addresses of a network that are not blank. -/
theorem get?_listed (c : Config) (n : NetworkId) :
    (Relay.ofConfig web servers c).selector.listed.get? n =
      (c.networks.reverse.find? fun net => net.network = n).map fun net =>
        net.endpoints.filter fun url => !Text.isBlankText url := by
  simp only [Relay.ofConfig, Selector.ofLists, Table.get?_ofList, ← List.map_reverse,
    List.find?_map, Option.map_map]
  rfl

/-- The networks with a selection are the configured ones. -/
theorem mem_networks_iff (c : Config) (n : NetworkId) :
    n ∈ (Relay.ofConfig web servers c).selector.networks ↔
      ∃ net ∈ c.networks, net.network = n := by
  have hsorted : (Relay.ofConfig web servers c).selector.listed.Sorted := Table.sorted_ofList _
  rw [Selector.networks, hsorted.mem_keys]
  simp only [get?_listed, Option.map_eq_some_iff]
  constructor
  · rintro ⟨urls, net, hfind, -⟩
    exact ⟨net, List.mem_reverse.mp (List.mem_of_find?_eq_some hfind),
      by simpa using List.find?_some hfind⟩
  · rintro ⟨net, hnet, hn⟩
    have hsome : (c.networks.reverse.find? fun net => net.network = n).isSome :=
      List.find?_isSome.mpr ⟨net, List.mem_reverse.mpr hnet, decide_eq_true hn⟩
    obtain ⟨found, hfound⟩ := Option.isSome_iff_exists.mp hsome
    exact ⟨_, found, hfound, rfl⟩

theorem exists_mem_networks_iff (c : Config) :
    (∃ n, n ∈ (Relay.ofConfig web servers c).selector.networks) ↔ c.networks ≠ [] := by
  simp only [mem_networks_iff]
  constructor
  · rintro ⟨n, net, hnet, -⟩
    exact List.ne_nil_of_mem hnet
  · intro hne
    obtain ⟨net, hnet⟩ := List.exists_mem_of_ne_nil c.networks hne
    exact ⟨net.network, net, hnet, rfl⟩

/-- **Every network of an accepted configuration has candidates.** -/
theorem exists_candidates (h : c.validate = .ok ()) {n : NetworkId}
    (hn : n ∈ (Relay.ofConfig web servers c).selector.networks) :
    ∃ urls, (Relay.ofConfig web servers c).selector.listed.get? n = some urls ∧ urls ≠ [] := by
  have hsorted : (Relay.ofConfig web servers c).selector.listed.Sorted := Table.sorted_ofList _
  obtain ⟨urls, hurls⟩ := hsorted.mem_keys.mp hn
  refine ⟨urls, hurls, ?_⟩
  rw [get?_listed] at hurls
  obtain ⟨net, hfind, rfl⟩ := Option.map_eq_some_iff.mp hurls
  have hnet : net ∈ c.networks := List.mem_reverse.mp (List.mem_of_find?_eq_some hfind)
  have hnetworks := (Option.or_eq_none_iff.mp (Option.or_eq_none_iff.mp
    (fault?_of_validate h)).1).2
  obtain ⟨url, hmem, hblank⟩ := List.all_eq_false.mp (endpoints_of_networksFault? hnetworks hnet)
  exact List.ne_nil_of_mem (List.mem_filter.mpr ⟨hmem, by simpa using hblank⟩)

/-- No loop of an accepted configuration has an empty period. -/
theorem period_ne_zero (h : c.validate = .ok ()) (now : Nat) (kind : LoopRun.Kind) :
    (LoopRun.ticker { Relay.ofConfig web servers c with now } kind).period ≠ 0 := by
  have hperiod (name : String) {secs : UInt64} (hmem : (name, secs) ∈ c.nonzero) :
      Duration.ofSeconds secs.toNat ≠ 0 := by
    have hsecs : secs.toNat ≠ 0 := fun hzero =>
      ne_zero_of_validate h hmem (UInt64.toNat_inj.mp hzero)
    exact Nat.mul_ne_zero hsecs (by decide)
  cases kind with
  | probing n => exact hperiod "monitoring.probe_interval_secs" (by simp [nonzero])
  | fetching => exact hperiod "monitoring.fetch_interval_secs" (by simp [nonzero])
  | reporting => exact hperiod "monitoring.status_interval_secs" (by simp [nonzero])

/-! ### Which configurations keep to the limits -/

/-- A relay that is set up from a configuration, and whose loops begin at `now`, keeps to every
limit, whatever its servers reply. -/
structure Withstands (c : Config) (now : Nat) : Prop where
  /-- the limiter can hold its permits -/
  permits : (Relay.ofConfig web servers c).limiter.free ≤ Limiter.mostPermits
  /-- the clock comes to the first round of every probe loop -/
  firstRound : ∀ n ∈ (Relay.ofConfig web servers c).selector.networks,
    (LoopRun.ticker { Relay.ofConfig web servers c with now } (.probing n)).next < Ticker.horizon
  /-- no loop has an empty period -/
  periods : ∀ kind ∈ Node.loops (Relay.ofConfig web servers c).selector,
    (LoopRun.ticker { Relay.ofConfig web servers c with now } kind).period ≠ 0
  /-- no run of a call makes its counter wrong, or more attempts than the first and the retries -/
  attempts : ∀ n ∈ (Relay.ofConfig web servers c).selector.networks,
    ∀ (α : Type) (k : Nat) (call : FailoverCall α),
      FailoverCall.Course c.tunables.failover (Relay.ofConfig web servers c).selector.listed n
        k call → FailoverCall.Numbered c.tunables.failover k call
  /-- and every pause between requests for quotes can be doubled -/
  pauses : ∀ q ∈ c.quotes, QuoteService.PausesFit q

theorem permits_iff (c : Config) :
    (Relay.ofConfig web servers c).limiter.free ≤ Limiter.mostPermits ↔
      c.monitoring.maxConcurrentFetches.toNat ≤ Limiter.mostPermits :=
  Nat.max_le.trans (and_iff_right (by decide))

theorem attempts_iff (h : c.validate = .ok ()) {n : NetworkId}
    (hn : n ∈ (Relay.ofConfig web servers c).selector.networks) :
    (∀ (α : Type) (k : Nat) (call : FailoverCall α),
      FailoverCall.Course c.tunables.failover (Relay.ofConfig web servers c).selector.listed n
        k call → FailoverCall.Numbered c.tunables.failover k call) ↔
      c.monitoring.maxRetries.toNat + 1 < UInt32.size := by
  obtain ⟨urls, hlisted, hurls⟩ := exists_candidates web servers h hn
  exact FailoverCall.numbered_iff hlisted hurls

/-- **Which accepted configurations the loops can run with.** -/
theorem withstands_iff (h : c.validate = .ok ()) (now : Nat) :
    Withstands web servers c now ↔
      c.monitoring.maxConcurrentFetches.toNat ≤ Limiter.mostPermits ∧
      (c.networks ≠ [] → now + c.monitoring.probeInterval < Ticker.horizon) ∧
      (c.networks ≠ [] → c.monitoring.maxRetries.toNat + 1 < UInt32.size) ∧
      ∀ q ∈ c.quotes, q.httpRetries.toNat ≤ 67 := by
  constructor
  · intro hall
    refine ⟨(permits_iff web servers c).mp hall.permits, fun hne => ?_, fun hne => ?_,
      fun q hq => (QuoteService.pausesFit_iff q).mp (hall.pauses q hq)⟩
    · obtain ⟨n, hn⟩ := (exists_mem_networks_iff web servers c).mpr hne
      exact hall.firstRound n hn
    · obtain ⟨n, hn⟩ := (exists_mem_networks_iff web servers c).mpr hne
      exact (attempts_iff web servers h hn).mp (hall.attempts n hn)
  · rintro ⟨hpermits, hround, hretries, hquotes⟩
    have hne {n : NetworkId} (hn : n ∈ (Relay.ofConfig web servers c).selector.networks) :
        c.networks ≠ [] := (exists_mem_networks_iff web servers c).mp ⟨n, hn⟩
    exact {
      permits := (permits_iff web servers c).mpr hpermits
      firstRound := fun n hn => hround (hne hn)
      periods := fun kind _ => period_ne_zero web servers h now kind
      attempts := fun n hn => (attempts_iff web servers h hn).mpr (hretries (hne hn))
      pauses := fun q hq => (QuoteService.pausesFit_iff q).mpr (hquotes q hq) }

/-! ### A usual configuration, and some that ask for too much -/

/-- One network, the quote service, and tunables as they are if nothing is said of them. -/
def usual : Config where
  networks := [{ network := 1, endpoints := ["http://a"] }]
  quotes := some {}

/-- The loops can run with the usual tunables. -/
theorem usual_withstands : usual.validate = .ok () ∧ Withstands Web.unreachable () usual 0 := by
  have hvalid : usual.validate = .ok () := by rfl
  refine ⟨hvalid, (withstands_iff Web.unreachable () hvalid 0).mpr ⟨by decide,
    fun _ => by decide, fun _ => by decide, fun q hq => ?_⟩⟩
  obtain rfl := Option.some.inj hq
  decide

/-- One permit more than a semaphore can hold. -/
def crowded : Config := { usual with monitoring.maxConcurrentFetches := 2305843009213693952 }

/-- A first round of probes that the clock never comes to. -/
def dormant : Config := { usual with monitoring.probeIntervalSecs := 18446744073709551615 }

/-- More attempts than the counter of a call can count. -/
def stubborn : Config := { usual with monitoring.maxRetries := 4294967295 }

/-- Requests that are sent again once too often. -/
def insistent : Config := { usual with quotes := some { httpRetries := 68 } }

/-- The configuration is accepted, and the loops cannot run with it. -/
def AcceptedInVain (c : Config) : Prop :=
  c.validate = .ok () ∧ ¬ Withstands Web.unreachable () c 0

theorem excessive_accepted : AcceptedInVain crowded ∧ AcceptedInVain dormant ∧
    AcceptedInVain stubborn ∧ AcceptedInVain insistent := by
  refine ⟨⟨by rfl, fun h => ?_⟩, ⟨by rfl, fun h => ?_⟩, ?_, ⟨by rfl, fun h => ?_⟩⟩
  · exact absurd ((permits_iff _ _ _).mp h.permits) (by decide)
  · exact absurd (h.firstRound 1 (by decide)) (by decide)
  · have hvalid : stubborn.validate = .ok () := by rfl
    refine ⟨hvalid, fun h => ?_⟩
    have hn : 1 ∈ (Relay.ofConfig (σ := Unit) Web.unreachable () stubborn).selector.networks := by
      decide
    exact absurd ((attempts_iff _ _ hvalid hn).mp (h.attempts 1 hn)) (by decide)
  · exact absurd ((QuoteService.pausesFit_iff _).mp (h.pauses _ rfl)) (by decide)

end Config

end PriceRelay
