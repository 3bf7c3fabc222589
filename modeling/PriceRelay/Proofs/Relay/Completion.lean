import PriceRelay.Proofs.Cache.Orders
import PriceRelay.Proofs.Relay.Cycle
import PriceRelay.Proofs.Relay.Workload
/-!
# The order in which a cycle completes

The fetches of a cycle and its batch go on side by side, and nothing says which of them comes to its
end first. Where the outcome of each fetch depends on its feed only, and nothing has to be pushed
out, it does not matter: each feed is written by one of them, so whatever the order, it is given the
same records, and so the report and every answer of the cache are the same, but for the moments at
which the records were observed.

* `CycleRun.Weave` are the runs of a cycle that nobody meddles with, with what was done by whom,
* `CycleRun.TurnsOut` says that the fetches and the batch of a run turn out as `CycleRun.Outcomes`
  say,
* `CycleRun.Weave.filter_writes` says what is written of a feed, whatever the order,
* `CycleRun.order_of_completion` is what follows for two runs.
-/

namespace PriceRelay

variable {σ : Type}

/-! ### Writes in a log -/

/-- The write that a deed is, if it is one. -/
def Deed.write? : Deed → Option Write
  | .call (.put f r) => some ⟨f, r⟩
  | _ => none

theorem Deed.write?_of_call? {d : Deed} (h : d.call? = none) : d.write? = none := by
  cases d with
  | call call => cases h
  | _ => rfl

/-- The writes, by whomever. -/
def writesOf (log : List (Party × Deed)) : List Write := log.filterMap fun entry => entry.2.write?

/-- The writes of a party. -/
def writesBy (who : Party) (log : List (Party × Deed)) : List Write :=
  (doneBy who log).filterMap Deed.write?

theorem filterMap_write?_write (ws : List Write) :
    (ws.map Deed.write).filterMap Deed.write? = ws := by
  rw [List.filterMap_map]
  exact List.filterMap_some

theorem writesOf_append_map (who : Party) (log : List (Party × Deed)) {deeds : List Deed}
    {ws : List Write} (h : deeds.filterMap Deed.write? = []) :
    writesOf (log ++ (deeds ++ ws.map Deed.write).map (Prod.mk who)) = writesOf log ++ ws := by
  have hown : ((deeds ++ ws.map Deed.write).map (Prod.mk who)).filterMap
      (fun entry => entry.2.write?) = (deeds ++ ws.map Deed.write).filterMap Deed.write? := by
    rw [List.filterMap_map]
    rfl
  rw [writesOf, List.filterMap_append, hown, List.filterMap_append, h, filterMap_write?_write,
    List.nil_append, writesOf]

theorem writesOf_swap_perm (before later : List (Party × Deed)) (d d' : Party × Deed) :
    (writesOf (before ++ d' :: d :: later)).Perm (writesOf (before ++ d :: d' :: later)) :=
  List.Perm.filterMap _ ((List.Perm.swap d d' later).append_left before)

/-- If a feed is written by one party only, its writes are those of this party. -/
theorem filter_writesOf {who : Party} {f : Feed} {log : List (Party × Deed)}
    (h : ∀ entry ∈ log, ∀ w, entry.2.write? = some w → w.feed = f → entry.1 = who) :
    (writesOf log).filter (fun w => w.feed = f) =
      (writesBy who log).filter (fun w => w.feed = f) := by
  induction log with
  | nil => rfl
  | cons entry log ih =>
    obtain ⟨party, d⟩ := entry
    have hrest := ih fun entry hentry => h entry (List.mem_cons_of_mem _ hentry)
    have hfirst := h (party, d) (List.mem_cons_self ..)
    simp only [writesOf, writesBy, doneBy, List.filterMap_cons, List.filter_cons] at hrest ⊢
    cases hw : d.write? with
    | none =>
      by_cases hparty : party = who
      · simp [hparty, hw, hrest]
      · simp [hparty, hrest]
    | some w =>
      by_cases hf : w.feed = f
      · have hparty : party = who := hfirst w hw hf
        simp [hparty, hw, hf, hrest]
      · by_cases hparty : party = who
        · simp [hparty, hw, hf, hrest]
        · simp [hparty, hf, hrest]

/-! ### What pieces of work have written -/

theorem FetchRun.filterMap_write?_heard (p : FetchRun) (r : Relay σ) :
    (p.heard r).filterMap Deed.write? = [] :=
  List.filterMap_eq_nil_iff.mpr fun _ hd => Deed.write?_of_call? (call?_of_mem_heard hd)

theorem BatchRun.filterMap_write?_heard (b : BatchRun) (r : Relay σ) :
    (b.heard r).filterMap Deed.write? = [] :=
  List.filterMap_eq_nil_iff.mpr fun _ hd => Deed.write?_of_call? (call?_of_mem_heard hd)

theorem Fetch.feed_of_mem_written {f : Fetch} {w : Write} (h : w ∈ f.written) : w.feed = f.feed :=
  List.mem_singleton.mp (f.map_feed_written.subset (List.mem_map_of_mem h))

/-- Tries are no writes. -/
theorem FetchRun.Tried.writes {providers : Providers σ} {n : NetworkId} {address : String}
    {deeds : List Deed} (h : Tried providers n address deeds) :
    deeds.filterMap Deed.write? = [] := by
  refine List.filterMap_eq_nil_iff.mpr fun d hd => ?_
  obtain ⟨t, fault, rfl, -⟩ := h d hd
  rfl

/-- **The writes among the deeds of a fetch are what it has written.** -/
theorem FetchRun.Stands.writes {providers : Providers σ} {n : NetworkId} {address : String}
    {deeds : List Deed} {p : FetchRun} (h : Stands providers n address deeds p) :
    deeds.filterMap Deed.write? = p.fetch.written := by
  cases h with
  | waiting => rfl
  | calling hreached hfits => exact (hreached.tried hfits.answer?_eq_none).writes
  | failed htried => exact htried.writes
  | stored htried _ _ =>
    rw [List.filterMap_append, htried.writes]
    rfl

/-- What is written of a reply, without moments. -/
def Batch.quoted (ids : List String) (symbols : String → Option String)
    (reply : Except Fault (List Quote)) : List Write :=
  match reply with
  | .ok quotes => Batch.writes ids symbols (.epoch 0) quotes
  | .error _ => []

theorem Batch.quoted_nil (symbols : String → Option String) (reply : Except Fault (List Quote)) :
    Batch.quoted [] symbols reply = [] := by
  cases reply with
  | ok quotes => simp [quoted, writes]
  | error fault => rfl

theorem Batch.map_untimed_writes (ids : List String) (symbols : String → Option String)
    (now : Moment) (quotes : List Quote) :
    (Batch.writes ids symbols now quotes).map Write.untimed =
      Batch.quoted ids symbols (.ok quotes) := by
  rw [Batch.writes, List.map_map]
  rfl

/-- A batch writes quotes only. -/
theorem BatchRun.Stands.source_of_mem {providers : Providers σ} {symbols : String → Option String}
    {ids : List String} {deeds : List Deed} {b : BatchRun}
    (h : Stands providers symbols ids deeds b) {w : Write}
    (hw : w ∈ deeds.filterMap Deed.write?) : w.feed.source = .pyth := by
  cases h with
  | idle => cases hw
  | waiting => cases hw
  | asking _ => cases hw
  | failed _ => cases hw
  | stored _ =>
    rw [List.filterMap_cons_none rfl, filterMap_write?_write] at hw
    obtain ⟨id, -, hfeed⟩ := Batch.feed_of_mem_writes hw
    rw [hfeed]

/-- A step in which nothing comes back to a batch does not finish it. -/
theorem BatchRun.unfinished_of_heard {owner : Nat} {b b' : BatchRun} {r r' : Relay σ}
    (h : b.step? owner r = some (b', r')) (hheard : b.heard r = []) :
    b'.batch.answer? = none := by
  cases hphase : b.batch.phase with
  | finished answer =>
    rw [step?, hphase] at h
    cases h
  | waiting =>
    have hadmitted (limiter : Limiter) :
        (b.admitted { r with limiter := limiter }).1.batch.answer? = none :=
      (admitted_eq hphase _).2.1
    rw [step?, hphase] at h
    dsimp only at h
    split at h
    · obtain ⟨limiter, -, heq⟩ := Option.map_eq_some_iff.mp h
      rw [← hadmitted limiter, heq]
    · split at h
      · next limiter _ => rw [← hadmitted limiter, Option.some.inj h]
      · obtain ⟨rfl, -⟩ := Prod.mk.inj (Option.some.inj h)
        rw [Batch.answer?, hphase]
  | asking =>
    rw [step?, hphase] at h
    dsimp only at h
    split at h
    · next a hwait =>
      obtain ⟨reply, hreply, -⟩ := Option.map_eq_some_iff.mp h
      simp [heard, hphase, hwait, hreply] at hheard
    · cases h

namespace CycleRun

section Weave

variable (owner : Nat) (r₀ : Relay σ)

/-- The runs of a cycle that begins at `r₀`, with what was done by whom. In between others go on,
but they leave the cache and the endpoints alone. -/
inductive Weave : List (Party × Deed) → CycleRun → Relay σ → Prop
  /-- it begins -/
  | begin : Weave [] (begin r₀) r₀
  /-- others go on -/
  | others {log c r r'} : Weave log c r → r.Steady r' → r'.cache = r.cache → Weave log c r'
  /-- one of its fetches goes on -/
  | fetch {log c r r' i p p'} : Weave log c r → c.fetches[i]? = some p →
      p.step? owner r = some (p', r') →
      Weave (log ++ (p.heard r ++ p'.fetch.written.map Deed.write).map (Prod.mk (.fetch i)))
        { c with fetches := c.fetches.set i p' } r'
  /-- its batch goes on -/
  | batch {log c r r' b'} : Weave log c r → c.batch.step? owner r = some (b', r') →
      Weave (log ++ (c.batch.heard r ++ (c.batch.written r).map Deed.write).map
        (Prod.mk (.batch 0))) { c with batch := b' } r'
  /-- it is concluded, if everything has come to its end -/
  | conclude {log c r} : Weave log c r → c.report = none →
      Weave log (c.conclude r).1 (c.conclude r).2
  /-- the fetches and the batch take turns -/
  | turn {log c r} (first : Bool) : Weave log c r → Weave log { c with batchFirst := first } r
  /-- where they go on side by side, the cache may be called by two of them the other way round -/
  | swap {before later d d' c r} : Weave (before ++ d :: d' :: later) c r → d.1 ≠ d'.1 →
      Weave (before ++ d' :: d :: later) c
        { r with cache := r₀.cache.run (callsOf (before ++ d' :: d :: later)) }

end Weave

variable {owner : Nat} {r₀ r : Relay σ} {log : List (Party × Deed)} {c : CycleRun}

/-- A run of a cycle in which others leave the cache and the endpoints alone is such a run. -/
theorem Course.exists_weave {ws : List Write}
    (h : Course owner (fun r r' => r.Steady r' ∧ r'.cache = r.cache) r₀ ws c r) :
    ∃ log, Weave owner r₀ log c r ∧ writesOf log = ws := by
  induction h with
  | begin => exact ⟨[], .begin, rfl⟩
  | others _ hmay ih =>
    obtain ⟨log, hlog, rfl⟩ := ih
    exact ⟨log, hlog.others hmay.1 hmay.2, rfl⟩
  | fetch _ hp hstep ih =>
    obtain ⟨log, hlog, rfl⟩ := ih
    exact ⟨_, hlog.fetch hp hstep, writesOf_append_map _ _ (FetchRun.filterMap_write?_heard _ _)⟩
  | batch _ hstep ih =>
    obtain ⟨log, hlog, rfl⟩ := ih
    exact ⟨_, hlog.batch hstep, writesOf_append_map _ _ (BatchRun.filterMap_write?_heard _ _)⟩
  | conclude _ hopen ih =>
    obtain ⟨log, hlog, rfl⟩ := ih
    exact ⟨log, hlog.conclude hopen, rfl⟩
  | turn first _ ih =>
    obtain ⟨log, hlog, rfl⟩ := ih
    exact ⟨log, hlog.turn first, rfl⟩

/-- Time passes. -/
theorem Weave.later (h : Weave owner r₀ log c r) (now : Nat) :
    Weave owner r₀ log c { r with now := now } :=
  h.others ⟨rfl, rfl, rfl⟩ rfl

/-! ### What every run keeps -/

theorem conclude_eq (c : CycleRun) (r : Relay σ) :
    (c.conclude r).1.fetches = c.fetches ∧ (c.conclude r).1.batch = c.batch ∧
      r.Steady (c.conclude r).2 ∧ (c.conclude r).2.cache = r.cache := by
  rw [conclude]
  split
  · exact ⟨rfl, rfl, ⟨rfl, rfl, rfl⟩, rfl⟩
  · exact ⟨rfl, rfl, .refl r, rfl⟩

/-- The work of a cycle. -/
def work (c : CycleRun) (r : Relay σ) : Workload σ := ⟨r, c.fetches, [c.batch]⟩

theorem sound_begin (hs : r₀.selector.Coherent) : Workload.Sound r₀ [] ((begin r₀).work r₀) := by
  refine ⟨rfl, rfl, hs, rfl, ⟨fun {i p} hp => ?_, fun _ => rfl⟩, ⟨fun {j b} hb => ?_, fun _ => rfl⟩⟩
  · obtain ⟨fetch, hfetch, rfl⟩ := List.mem_map.mp (List.mem_of_getElem? hp)
    obtain ⟨f, -, rfl⟩ := List.mem_map.mp hfetch
    exact .waiting
  · obtain rfl := List.mem_singleton.mp (List.mem_of_getElem? hb)
    have hbegin := BatchRun.stands_begin r₀.providers r₀.quoteSymbols r₀.providers.quotes.isSome
      (begin r₀).plan.ids
    have hids : (begin r₀).batch.batch.ids = (begin r₀).plan.ids := hbegin.identity
    change BatchRun.Stands _ _ (begin r₀).batch.batch.ids [] _
    rw [hids]
    exact hbegin

/-- **What is done by whom tells where the work of a cycle stands.** -/
theorem Weave.sound (hs : r₀.selector.Coherent) (h : Weave owner r₀ log c r) :
    Workload.Sound r₀ log (c.work r) := by
  induction h with
  | begin => exact sound_begin hs
  | others _ hsteady hcache ih => exact ih.steady hsteady hcache
  | fetch _ hp hstep ih => exact ih.fetch hp hstep
  | batch _ hstep ih => exact ih.batch (j := 0) rfl hstep
  | @conclude log c r _ _ ih =>
    obtain ⟨hfetches, hbatch, hsteady, hcache⟩ := c.conclude_eq r
    rw [work, hfetches, hbatch]
    exact ih.steady hsteady hcache
  | turn _ _ ih => exact ih
  | swap _ hd ih => exact ih.swap hd

/-- The order of the writes has no part in the account of a cycle. -/
theorem Accounts.of_perm {hasService : Bool} {feeds : List Feed} {ws ws' : List Write}
    (h : Accounts hasService feeds ws c) (hperm : ws'.Perm ws) :
    Accounts hasService feeds ws' c := by
  obtain ⟨quoted, hwritten, hrest⟩ := h.written
  exact ⟨h.plan, h.fetches, h.ids, ⟨quoted, hperm.trans hwritten, hrest⟩, h.report⟩

theorem Weave.accounts (h : Weave owner r₀ log c r) :
    Accounts r₀.providers.quotes.isSome r₀.cache.tracked (writesOf log) c := by
  induction h with
  | begin => exact accounts_begin r₀
  | others _ _ _ ih => exact ih
  | fetch _ hp hstep ih =>
    rw [writesOf_append_map _ _ (FetchRun.filterMap_write?_heard _ _)]
    exact ih.fetch hp (FetchRun.advances_of_step? hstep)
  | batch _ hstep ih =>
    rw [writesOf_append_map _ _ (BatchRun.filterMap_write?_heard _ _)]
    exact ih.batch (BatchRun.advances_of_step? hstep)
  | conclude _ _ ih => exact ih.conclude _
  | turn _ _ ih => exact ⟨ih.plan, ih.fetches, ih.ids, ih.written, ih.report⟩
  | swap _ _ ih => exact ih.of_perm (writesOf_swap_perm ..)

/-- What is done is done by the fetches and the batch, and their only calls are writes. -/
theorem Weave.mem_log (h : Weave owner r₀ log c r) :
    ∀ entry ∈ log, entry.1 ≠ .other ∧ entry.2.call? = entry.2.write?.map Write.call := by
  -- what comes back is no call, and what is written is a write
  have hstep {log : List (Party × Deed)} {who : Party} {deeds : List Deed} (ws : List Write)
      (ih : ∀ entry ∈ log, entry.1 ≠ .other ∧ entry.2.call? = entry.2.write?.map Write.call)
      (hwho : who ≠ .other) (hdeeds : ∀ d ∈ deeds, d.call? = none) :
      ∀ entry ∈ log ++ (deeds ++ ws.map Deed.write).map (Prod.mk who),
        entry.1 ≠ .other ∧ entry.2.call? = entry.2.write?.map Write.call := by
    intro entry hentry
    rcases List.mem_append.mp hentry with hentry | hentry
    · exact ih entry hentry
    · obtain ⟨d, hd, rfl⟩ := List.mem_map.mp hentry
      refine ⟨hwho, ?_⟩
      rcases List.mem_append.mp hd with hd | hd
      · have hcall := hdeeds d hd
        change d.call? = d.write?.map Write.call
        rw [hcall, Deed.write?_of_call? hcall]
        rfl
      · obtain ⟨w, -, rfl⟩ := List.mem_map.mp hd
        rfl
  induction h with
  | begin => simp
  | others _ _ _ ih => exact ih
  | fetch _ _ _ ih => exact hstep _ ih (by simp) fun _ => FetchRun.call?_of_mem_heard
  | batch _ _ ih => exact hstep _ ih (by simp) fun _ => BatchRun.call?_of_mem_heard
  | conclude _ _ ih => exact ih
  | turn _ _ ih => exact ih
  | swap _ _ ih =>
    intro entry hentry
    exact ih entry (((List.Perm.swap _ _ _).append_left _).mem_iff.mp hentry)

theorem Weave.callsOf_eq (h : Weave owner r₀ log c r) :
    callsOf log = (writesOf log).map Write.call := by
  rw [callsOf, writesOf, List.map_filterMap]
  exact List.filterMap_congr fun entry hentry => (h.mem_log entry hentry).2

/-- A batch that has done nothing is finished only if it was so from the start. -/
theorem Weave.answer?_of_idle (h : Weave owner r₀ log c r) :
    doneBy (.batch 0) log = [] →
      c.batch.batch.answer? = (CycleRun.begin r₀).batch.batch.answer? := by
  induction h with
  | begin => exact fun _ => rfl
  | others _ _ _ ih => exact ih
  | fetch _ _ _ ih =>
    rw [doneBy_append_map_of_ne (by simp)]
    exact ih
  | batch _ hstep ih =>
    rw [doneBy_append_map, List.append_eq_nil_iff, List.append_eq_nil_iff]
    rintro ⟨hidle, hheard, -⟩
    rw [← ih hidle, (BatchRun.advances_of_step? hstep).unfinished]
    exact BatchRun.unfinished_of_heard hstep hheard
  | @conclude log c r _ _ ih =>
    rw [(c.conclude_eq r).2.1]
    exact ih
  | turn _ _ ih => exact ih
  | swap _ hd ih =>
    rw [doneBy_swap hd]
    exact ih

/-! ### What is written of a feed -/

/-- How the work of a cycle turns out, whenever it is done. -/
structure Outcomes where
  /-- what the fetch of a feed gets, if anything, without its moment -/
  record : Feed → Option Record
  /-- what the quote service replies when it is asked for some ids -/
  reply : List String → Except Fault (List Quote)

/-- In a run everything turns out so. -/
structure TurnsOut (outcomes : Outcomes) (log : List (Party × Deed)) (c : CycleRun) : Prop where
  /-- a fetch that has come to its end has got what it gets -/
  fetch : ∀ p ∈ c.fetches, ∀ answer, p.fetch.answer? = some answer →
    answer.toOption.map Record.untimed = outcomes.record p.fetch.feed
  /-- whoever asked the quote service was replied to as it replies -/
  ask : ∀ who ids answer, (who, Deed.ask ids answer) ∈ log → answer = outcomes.reply ids

variable {outcomes : Outcomes}

theorem TurnsOut.of_answers
    (hanswers : c.fetches.map
        (fun p => p.fetch.answer?.map fun answer => answer.toOption.map Record.untimed) =
      c.fetches.map fun p => some (outcomes.record p.fetch.feed))
    (hask : ∀ who ids answer, (who, Deed.ask ids answer) ∈ log → answer = outcomes.reply ids) :
    TurnsOut outcomes log c where
  fetch p hp answer hanswer := by
    have hp' := List.map_inj_left.mp hanswers p hp
    rw [hanswer] at hp'
    exact Option.some.inj hp'
  ask := hask

/-- What is to be written of a feed, without moments, when the work of a plan turns out so. -/
def due (outcomes : Outcomes) (symbols : String → Option String) (plan : CyclePlan) (f : Feed) :
    List Write :=
  if f ∈ plan.aggregators then ((outcomes.record f).map (Write.mk f)).toList
  else (Batch.quoted plan.ids symbols (outcomes.reply plan.ids)).filter fun w => w.feed = f

/-- A write is that of a fetch which has written it, or of the batch. -/
theorem Weave.writer (hs : r₀.selector.Coherent) (h : Weave owner r₀ log c r) {who : Party}
    {d : Deed} (hd : (who, d) ∈ log) {w : Write} (hw : d.write? = some w) :
    (∃ i p, who = .fetch i ∧ c.fetches[i]? = some p ∧ w ∈ p.fetch.written) ∨
      (who = .batch 0 ∧ w.feed.source = .pyth) := by
  have hsound := h.sound hs
  have hmem : w ∈ (doneBy who log).filterMap Deed.write? :=
    List.mem_filterMap.mpr ⟨d, mem_doneBy.mpr hd, hw⟩
  cases who with
  | other => exact absurd rfl (h.mem_log _ hd).1
  | fetch i =>
    cases hp : c.fetches[i]? with
    | none =>
      rw [hsound.fetches.unbegun hp] at hmem
      cases hmem
    | some p =>
      rw [(hsound.fetches.begun hp).writes] at hmem
      exact .inl ⟨i, p, rfl, hp, hmem⟩
  | batch j =>
    cases hb : [c.batch][j]? with
    | none =>
      rw [hsound.batches.unbegun hb] at hmem
      cases hmem
    | some b =>
      obtain ⟨hj, -⟩ := List.getElem?_eq_some_iff.mp hb
      obtain rfl : j = 0 := Nat.lt_one_iff.mp hj
      exact .inr ⟨rfl, (hsound.batches.begun hb).source_of_mem hmem⟩

/-- A batch that is begun and has nothing to do has no id to ask for. -/
theorem ids_eq_nil_of_begun (h : (CycleRun.begin r₀).batch.batch.answer? ≠ none) :
    (CycleRun.begin r₀).plan.ids = [] := by
  cases hservice : r₀.providers.quotes.isSome with
  | false => simp [CycleRun.begin, CyclePlan.ids_ofFeeds, hservice]
  | true =>
    by_contra hids
    refine h ?_
    have hbegin : (CycleRun.begin r₀).batch.batch =
        Batch.begin r₀.providers.quotes.isSome (CycleRun.begin r₀).plan.ids := rfl
    rw [hbegin, Batch.begin, hservice, if_pos (by simpa using hids), Batch.answer?]

/-- What the fetch of an aggregator that has come to its end has written is what is due for it. -/
theorem TurnsOut.map_untimed_written (h : TurnsOut outcomes log c) {p : FetchRun}
    (hp : p ∈ c.fetches) (hdone : p.fetch.answer? ≠ none) :
    p.fetch.written.map Write.untimed =
      ((outcomes.record p.fetch.feed).map (Write.mk p.fetch.feed)).toList := by
  obtain ⟨answer, hanswer⟩ := Option.ne_none_iff_exists'.mp hdone
  rw [← h.fetch p hp answer hanswer, Fetch.written, hanswer]
  cases answer <;> rfl

/-- What a batch that has come to its end has written are the quotes that are due. -/
theorem Weave.map_untimed_writesBy (hs : r₀.selector.Coherent) (h : Weave owner r₀ log c r)
    (hturns : TurnsOut outcomes log c) (hdone : c.batch.batch.answer? ≠ none) :
    (writesBy (.batch 0) log).map Write.untimed =
      Batch.quoted c.plan.ids r₀.quoteSymbols (outcomes.reply c.plan.ids) := by
  have hstands := (h.sound hs).batches.begun (i := 0) (x := c.batch) rfl
  rw [h.accounts.ids] at hstands
  have hasked (answer : Except Fault (List Quote)) :
      .ask c.plan.ids answer ∈ doneBy (.batch 0) log →
        answer = outcomes.reply c.plan.ids :=
    fun hd => hturns.ask _ _ _ (mem_doneBy.mp hd)
  have hidle := h.answer?_of_idle
  rw [writesBy]
  generalize doneBy (.batch 0) log = deeds at hstands hasked hidle ⊢
  generalize c.batch = b at hstands hdone hidle
  cases hstands with
  | idle =>
    -- there was nothing to ask for from the start
    have hids : c.plan.ids = [] := by
      rw [h.accounts.plan]
      exact ids_eq_nil_of_begun (hidle rfl ▸ hdone)
    rw [hids, Batch.quoted_nil]
    rfl
  | waiting => exact absurd rfl hdone
  | asking _ => exact absurd rfl hdone
  | @failed fault _ _ =>
    rw [← hasked _ (List.mem_singleton_self _)]
    rfl
  | @stored quotes now _ _ =>
    rw [← hasked _ (List.mem_cons_self ..), List.filterMap_cons_none rfl, filterMap_write?_write,
      Batch.map_untimed_writes]

/-- The aggregator of a fetch is written by this fetch alone. -/
theorem Weave.fetch_of_write (hs : r₀.selector.Coherent) (h : Weave owner r₀ log c r)
    (hdistinct : (c.fetches.map fun p => p.fetch.feed).Nodup) {i : Nat} {p : FetchRun}
    (hi : c.fetches[i]? = some p) :
    ∀ entry ∈ log, ∀ w, entry.2.write? = some w → w.feed = p.fetch.feed → entry.1 = .fetch i := by
  rintro ⟨who, d⟩ hentry w hw hfeed
  rcases h.writer hs hentry hw with ⟨j, p', rfl, hj, hwritten⟩ | ⟨-, hsource⟩
  · have hsame : (c.fetches.map fun p => p.fetch.feed)[j]? =
        (c.fetches.map fun p => p.fetch.feed)[i]? := by
      rw [List.getElem?_map, List.getElem?_map, hi, hj, Option.map_some, Option.map_some,
        ← Fetch.feed_of_mem_written hwritten, hfeed]
    have hlt : j < (c.fetches.map fun p => p.fetch.feed).length := by
      rw [List.length_map]
      exact (List.getElem?_eq_some_iff.mp hj).1
    exact congrArg Party.fetch ((List.getElem?_inj hlt hdistinct).mp hsame)
  · rw [hfeed] at hsource
    cases hsource

/-- A feed without a fetch is written by the batch alone. -/
theorem Weave.batch_of_write (hs : r₀.selector.Coherent) (h : Weave owner r₀ log c r) {f : Feed}
    (hf : f ∉ c.fetches.map fun p => p.fetch.feed) :
    ∀ entry ∈ log, ∀ w, entry.2.write? = some w → w.feed = f → entry.1 = .batch 0 := by
  rintro ⟨who, d⟩ hentry w hw rfl
  rcases h.writer hs hentry hw with ⟨i, p, -, hp, hwritten⟩ | ⟨hwho, -⟩
  · rw [Fetch.feed_of_mem_written hwritten] at hf
    exact absurd (List.mem_map_of_mem (List.mem_of_getElem? hp)) hf
  · exact hwho

/-- **Whatever the order, each feed is given what is due for it.** -/
theorem Weave.filter_writes (hs : r₀.selector.Coherent) (hnodup : r₀.cache.tracked.Nodup)
    (h : Weave owner r₀ log c r) (hturns : TurnsOut outcomes log c)
    {report : CycleReport} (hreport : c.report = some report) (f : Feed) :
    ((writesOf log).map Write.untimed).filter (fun w => w.feed = f) =
      due outcomes r₀.quoteSymbols (.ofFeeds r₀.providers.quotes.isSome r₀.cache.tracked) f := by
  have haccounts := h.accounts
  obtain ⟨hfetched, hbatched⟩ := (haccounts.report report hreport).ne_none
  have huntimed (ws : List Write) : (ws.map Write.untimed).filter (fun w => w.feed = f) =
      (ws.filter fun w => w.feed = f).map Write.untimed := List.filter_map
  rw [← haccounts.plan, due, huntimed, ← haccounts.fetches]
  split
  · next hf =>
    obtain ⟨p, hp, rfl⟩ := List.mem_map.mp hf
    obtain ⟨i, hi⟩ := List.mem_iff_getElem?.mp hp
    have hdistinct : (c.fetches.map fun p => p.fetch.feed).Nodup := by
      rw [haccounts.fetches, haccounts.plan, CyclePlan.aggregators_ofFeeds]
      exact hnodup.filter _
    have hwrites : writesBy (.fetch i) log = p.fetch.written :=
      ((h.sound hs).fetches.begun hi).writes
    have hown : p.fetch.written.filter (fun w => w.feed = p.fetch.feed) = p.fetch.written :=
      List.filter_eq_self.mpr fun w hw => decide_eq_true (Fetch.feed_of_mem_written hw)
    rw [filter_writesOf (h.fetch_of_write hs hdistinct hi), hwrites, hown,
      hturns.map_untimed_written hp (hfetched p hp)]
  · next hf =>
    rw [filter_writesOf (h.batch_of_write hs hf), ← huntimed,
      h.map_untimed_writesBy hs hturns hbatched]

/-! ### Two orders -/

/-- A report is told by the feeds that were written. -/
theorem Accounts.report_eq_of_feeds {hasService : Bool} {feeds : List Feed} {ws : List Write}
    (h : Accounts hasService feeds ws c) {report : CycleReport} (hreport : c.report = some report) :
    let plan := CyclePlan.ofFeeds hasService feeds
    let read := (ws.map Write.feed).countP fun f => f.source = .chainlink
    report = ⟨ws.length, (plan.aggregators.length - read) +
      (plan.ids.length - (ws.length - read)), plan.skipped⟩ := by
  intro plan read
  obtain ⟨reads, quoted, hperm, hreads, hquoted, hcounts⟩ := h.report_eq hreport
  rw [h.plan] at hreads hquoted hcounts
  have hread : read = reads.length := by
    have hfeeds : (ws.map Write.feed).Perm (reads.map Write.feed ++ quoted.map Write.feed) := by
      rw [← List.map_append]
      exact hperm.map Write.feed
    have hall : (reads.map Write.feed).countP (fun f => f.source = .chainlink) = reads.length := by
      rw [List.countP_eq_length.mpr, List.length_map]
      intro f hf
      have hmem := hreads.subset hf
      rw [CyclePlan.aggregators_ofFeeds] at hmem
      exact (List.mem_filter.mp hmem).2
    have hnone : (quoted.map Write.feed).countP (fun f => f.source = .chainlink) = 0 := by
      refine List.countP_eq_zero.mpr fun f hf => ?_
      obtain ⟨w, hw, rfl⟩ := List.mem_map.mp hf
      obtain ⟨id, -, hfeed⟩ := hquoted w hw
      simp [hfeed]
    calc read = (reads.map Write.feed ++ quoted.map Write.feed).countP fun f =>
            f.source = .chainlink := hfeeds.countP_eq _
      _ = reads.length := by rw [List.countP_append, hall, hnone, Nat.add_zero]
  have hlength : ws.length = reads.length + quoted.length := by
    rw [hperm.length_eq, List.length_append]
  rw [hcounts, hread, hlength, Nat.add_sub_cancel_left]

/-- Two runs that write the same of each feed report the same. -/
theorem Accounts.report_eq_of_sameByFeed {hasService : Bool} {feeds : List Feed}
    {ws ws' : List Write} {c' : CycleRun} (h : Accounts hasService feeds ws c)
    (h' : Accounts hasService feeds ws' c') (hsame : PriceCache.SameByFeed ws ws')
    {report report' : CycleReport} (hreport : c.report = some report)
    (hreport' : c'.report = some report') : report = report' := by
  have hfeeds := hsame.map_feed_perm
  have hlength := hfeeds.length_eq
  rw [List.length_map, List.length_map] at hlength
  rw [h.report_eq_of_feeds hreport, h'.report_eq_of_feeds hreport', hfeeds.countP_eq, hlength]

/-- **The order of completion does not matter.** If in two runs of a cycle over the same feeds the
outcome of each fetch depends on its feed only, and the reply of the quote service on what it is
asked for, and nothing has to be pushed out, then both report the same and leave caches that answer
alike, but for the moments at which the records were observed. They have the same size and the same
statistics, unless some size depends on these moments. -/
theorem order_of_completion {sizes : SizeRegistry} {cap : UInt64} {policy : EvictionPolicy}
    {history : List (EvictionPolicy × CacheCall)}
    (hcache : r₀.cache = (PriceCache.fresh sizes cap policy).after history)
    {listed : Table NetworkId (List String)} {moves : List Switchboard.Move}
    (hselector : r₀.selector = ((Switchboard.idle listed).run moves).selector)
    {owner' : Nat} {log' : List (Party × Deed)} {c' : CycleRun} {r' : Relay σ}
    (h : Weave owner r₀ log c r) (h' : Weave owner' r₀ log' c' r')
    {report report' : CycleReport} (hreport : c.report = some report)
    (hreport' : c'.report = some report')
    (hturns : TurnsOut outcomes log c) (hturns' : TurnsOut outcomes log' c')
    (hroomy : r₀.cache.Roomy (callsOf log)) (hroomy' : r₀.cache.Roomy (callsOf log')) :
    report = report' ∧ r.cache.AnswersAlike r'.cache ∧
      (r₀.cache.sizes.Timeless →
        r.cache.size = r'.cache.size ∧ r.cache.stats = r'.cache.stats) := by
  have hs : r₀.selector.Coherent := by
    rw [hselector]
    exact ((Switchboard.sound_idle listed).run moves).coherent
  have hfiled : r₀.cache.Filed := by
    rw [hcache]
    exact (PriceCache.filed_fresh sizes cap policy).after history
  have hsame : PriceCache.SameByFeed (writesOf log) (writesOf log') := fun f =>
    (h.filter_writes hs hfiled.nodup_tracked hturns hreport f).trans
      (h'.filter_writes hs hfiled.nodup_tracked hturns' hreport' f).symm
  refine ⟨h.accounts.report_eq_of_sameByFeed h'.accounts hsame hreport hreport', ?_⟩
  have hleft : r.cache = r₀.cache.run (callsOf log) := (h.sound hs).cache
  have hright : r'.cache = r₀.cache.run (callsOf log') := (h'.sound hs).cache
  rw [h.callsOf_eq] at hleft hroomy
  rw [h'.callsOf_eq] at hright hroomy'
  have hagrees := hfiled.agrees hroomy hroomy' hsame
  rw [hleft, hright]
  exact ⟨hagrees.answersAlike, fun hsizes =>
    hagrees.size_stats (hroomy.fills.sizes.timeless hsizes)⟩

/-- A relay that tracks an aggregator and a quote, and can get both. -/
def getting : Relay Unit where
  providers := {
    roundTrip := fun _ _ outside => (⟨0, false⟩, outside)
    readRound := fun _ _ outside => (⟨0, .ok ⟨7, 350, 0, 0, 7, 8⟩⟩, outside)
    readDone := fun outside => outside
    quotes := some fun _ outside => (⟨0, .ok [⟨"btc", 1, 0, 0, 0, 0, none, none⟩]⟩, outside) }
  outside := ()
  selector := ((Switchboard.idle .empty).run [.publish 1 "http://a" 1 (.running 0)]).selector
  cache := (PriceCache.fresh {} 1000 .leastRecentlyWritten).after
    [(.leastRecentlyWritten, .addFeed ⟨1, .chainlink, "0xA"⟩),
      (.leastRecentlyWritten, .addFeed ⟨0, .pyth, "btc"⟩)]
  limiter := .ofCount 2

/-- How both turn out. -/
def got : Outcomes where
  record f := some (.aggregator ⟨7, 350, 0, 0, 7, -8, f.network, f.identifier, .epoch 0⟩)
  reply _ := .ok [⟨"btc", 1, 0, 0, 0, 0, none, none⟩]

/-- What is done to read its aggregator. -/
def reading (now : Nat) : List (Party × Deed) := [
  (.fetch 0, .read ⟨0, 1, "http://a"⟩ "0xA" (.ok ⟨7, 350, 0, 0, 7, 8⟩)),
  (.fetch 0, .call (.put ⟨1, .chainlink, "0xA"⟩
    (.aggregator ⟨7, 350, 0, 0, 7, -8, 1, "0xA", .running now⟩)))]

/-- What is done to get its quote. -/
def asking (now : Nat) : List (Party × Deed) := [
  (.batch 0, .ask ["btc"] (.ok [⟨"btc", 1, 0, 0, 0, 0, none, none⟩])),
  (.batch 0, .call (.put ⟨0, .pyth, "btc"⟩
    (.quoted (Quote.price ⟨"btc", 1, 0, 0, 0, 0, none, none⟩ none (.running now)))))]

/-- Whether the aggregator is read first, or some time after the quote is there, the cache answers
alike. -/
theorem order_of_completion_of_two :
    ∃ c c' r r', Weave 0 getting (reading 0 ++ asking 0) c r ∧
      Weave 0 getting (asking 0 ++ reading 5) c' r' ∧ c.report = some ⟨2, 0, 0⟩ ∧
      r.cache.AnswersAlike r'.cache ∧ r.cache.stats = r'.cache.stats := by
  have hbegun : Weave 0 getting [] (begin getting) getting := .begin
  obtain ⟨c, r, hdone, hreport, hanswers⟩ : ∃ c r,
      Weave 0 getting (reading 0 ++ asking 0) c r ∧ c.report = some ⟨2, 0, 0⟩ ∧
      c.fetches.map (fun p => p.fetch.answer?.map fun a => a.toOption.map Record.untimed) =
        c.fetches.map fun p => some (got.record p.fetch.feed) := by
    have hcalled := hbegun.fetch (i := 0) rfl rfl
    have hread := hcalled.fetch (i := 0) rfl rfl
    have hasked := hread.batch rfl
    have hheard := hasked.batch rfl
    exact ⟨_, _, hheard.conclude rfl, rfl, rfl⟩
  obtain ⟨c', r', hdone', hreport', hanswers'⟩ : ∃ c r,
      Weave 0 getting (asking 0 ++ reading 5) c r ∧ c.report = some ⟨2, 0, 0⟩ ∧
      c.fetches.map (fun p => p.fetch.answer?.map fun a => a.toOption.map Record.untimed) =
        c.fetches.map fun p => some (got.record p.fetch.feed) := by
    have hasked := hbegun.batch rfl
    have hheard := hasked.batch rfl
    have hcalled := (hheard.later 5).fetch (i := 0) rfl rfl
    have hread := hcalled.fetch (i := 0) rfl rfl
    exact ⟨_, _, hread.conclude rfl, rfl, rfl⟩
  have hturns : TurnsOut got (reading 0 ++ asking 0) c :=
    .of_answers hanswers (by simp [reading, asking, got])
  have hturns' : TurnsOut got (asking 0 ++ reading 5) c' :=
    .of_answers hanswers' (by simp [reading, asking, got])
  have hroomy {a b : CacheCall} (ha : (getting.cache.filedBy a).exactSize ≤ 1000)
      (hb : ((getting.cache.make a).1.filedBy b).exactSize ≤ 1000) :
      getting.cache.Roomy [a, b] := by
    rw [PriceCache.roomy_cons_iff, PriceCache.roomy_cons_iff, PriceCache.cap_make]
    exact ⟨ha, hb, PriceCache.roomy_nil _⟩
  have hsizes : getting.cache.sizes.Timeless :=
    SizeRegistry.timeless_of_registered fun k f hf => by cases k <;> cases hf
  obtain ⟨-, halike, hsame⟩ := order_of_completion rfl rfl hdone hdone' hreport hreport'
    hturns hturns' (hroomy (by decide) (by decide)) (hroomy (by decide) (by decide))
  exact ⟨c, c', r, r', hdone, hdone', hreport, halike, (hsame hsizes).2⟩

end CycleRun

end PriceRelay
