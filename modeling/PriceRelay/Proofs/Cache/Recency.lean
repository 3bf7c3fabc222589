import Mathlib.Data.List.Induction
import PriceRelay.Proofs.Cache.Calls
import PriceRelay.Proofs.Cache.Pass
import PriceRelay.Proofs.List
/-!
# The records written last

Under the usual policy a pass takes the records written longest ago. The records that a cache holds
are therefore those of the feeds written last, on whatever networks they are, and in whatever order
a pass meets the records before it sorts them.

* `WrittenSince` says which of two feeds was written later,
* `Meeting` is an order in which a pass meets the records, another one for each call,
* `PriceCache.Recent` is the invariant: a feed written later has a record with a higher number,
* `PriceCache.held_recently` is what follows for the reads.
-/

namespace PriceRelay

/-- Whether a call writes a record of a feed. -/
def CacheCall.Writes (f : Feed) : CacheCall → Prop
  | put g _ => g = f
  | _ => False

/-- Feed `g` was written, and `f` was not written after that. -/
def WrittenSince (calls : List CacheCall) (g f : Feed) : Prop :=
  ∃ before r later, calls = before ++ .put g r :: later ∧ ∀ call ∈ later, ¬ call.Writes f

/-- One more call either writes the later feed, or leaves the earlier one as it was. -/
theorem writtenSince_concat {calls : List CacheCall} {call : CacheCall} {g f : Feed} :
    WrittenSince (calls ++ [call]) g f →
      (∃ r, call = .put g r) ∨ (WrittenSince calls g f ∧ ¬ call.Writes f) := by
  rintro ⟨before, r, later, heq, hlater⟩
  rcases concat_eq_append_cons.mp heq with ⟨-, -, hcall⟩ | ⟨rest, rfl, hcalls⟩
  · exact .inl ⟨r, hcall⟩
  · refine .inr ⟨⟨before, r, rest, hcalls, fun other hother => ?_⟩, ?_⟩
    · exact hlater other (List.mem_append_left _ hother)
    · exact hlater call (List.mem_append_right _ (List.mem_singleton_self _))

/-! ### The usual policy -/

/-- A policy that lists its candidates in the order in which they were written. -/
structure EvictionPolicy.OldestFirst (policy : EvictionPolicy) : Prop where
  /-- it lists all candidates, and no others -/
  perm : ∀ cs, (policy.order cs).Perm cs
  /-- the one written longest ago first -/
  sorted : ∀ cs, (policy.order cs).Pairwise fun a b => a.written ≤ b.written

theorem EvictionPolicy.oldestFirst_leastRecentlyWritten :
    EvictionPolicy.leastRecentlyWritten.OldestFirst where
  perm cs := List.mergeSort_perm cs _
  sorted cs := by
    have htrans : ∀ a b c : Candidate, decide (a.written ≤ b.written) = true →
        decide (b.written ≤ c.written) = true → decide (a.written ≤ c.written) = true := by
      intro a b c hab hbc
      exact decide_eq_true (Nat.le_trans (of_decide_eq_true hab) (of_decide_eq_true hbc))
    have htotal : ∀ a b : Candidate,
        (decide (a.written ≤ b.written) || decide (b.written ≤ a.written)) = true := by
      intro a b
      simpa using Nat.le_total a.written b.written
    exact (List.pairwise_mergeSort htrans htotal cs).imp of_decide_eq_true

/-- An order in which a pass meets the records that may go. -/
structure Meeting where
  /-- the records as they are met -/
  order : List Candidate → List Candidate
  /-- each of them is met once -/
  perm : ∀ cs, (order cs).Perm cs

/-- The records are met as they are listed. -/
def Meeting.asListed : Meeting := ⟨id, fun cs => .refl cs⟩

/-- The usual policy, given the records as they are met. -/
def Meeting.policy (m : Meeting) : EvictionPolicy :=
  { EvictionPolicy.leastRecentlyWritten with
    order := fun cs => EvictionPolicy.leastRecentlyWritten.order (m.order cs) }

theorem Meeting.oldestFirst_policy (m : Meeting) : m.policy.OldestFirst where
  perm cs := (EvictionPolicy.oldestFirst_leastRecentlyWritten.perm _).trans (m.perm cs)
  sorted _ := EvictionPolicy.oldestFirst_leastRecentlyWritten.sorted _

namespace PriceCache

/-- The cache as it is when its next pass meets the records in the order `m`. -/
def meeting (c : PriceCache) (m : Meeting) : PriceCache := { c with policy := m.policy }

/-- The cache with the usual policy that a history of calls leads to. -/
def reached (sizes : SizeRegistry) (cap : UInt64) (history : List (Meeting × CacheCall)) :
    PriceCache :=
  history.foldl (fun c p => ((c.meeting p.1).make p.2).1) (fresh sizes cap .leastRecentlyWritten)

theorem reached_concat (sizes : SizeRegistry) (cap : UInt64) (history : List (Meeting × CacheCall))
    (m : Meeting) (call : CacheCall) :
    reached sizes cap (history ++ [(m, call)]) =
      (((reached sizes cap history).meeting m).make call).1 := by
  rw [reached, List.foldl_append]
  rfl

variable {c : PriceCache}

theorem Filed.meeting (h : c.Filed) (m : Meeting) : (c.meeting m).Filed where
  feeds_sorted := h.feeds_sorted
  entries_sorted := h.entries_sorted
  feeds_address := h.feeds_address
  entries_tracked := h.entries_tracked

@[simp] theorem cap_meeting (c : PriceCache) (m : Meeting) : (c.meeting m).cap = c.cap := rfl

theorem exactSize_file_meeting (c : PriceCache) (m : Meeting) (f : Feed) (r : Record) :
    ((c.meeting m).file f r).exactSize = (c.file f r).exactSize := by
  have hadd : (c.meeting m).addFeed f = (c.addFeed f).meeting m := by
    rw [PriceCache.addFeed, PriceCache.addFeed, apply_ite (fun d : PriceCache => d.meeting m)]
    rfl
  rw [PriceCache.file, hadd]
  rfl

theorem cap_reached (sizes : SizeRegistry) (cap : UInt64) (history : List (Meeting × CacheCall)) :
    (reached sizes cap history).cap = cap := by
  induction history using List.reverseRecOn with
  | nil => rfl
  | append_singleton history p ih => rw [reached_concat, cap_make, cap_meeting, ih]

/-! ### What a pass of the usual policy leaves -/

/-- What a pass leaves was there before. -/
theorem get?_of_pruneSparing {spare : Option Address} {a : Address} {e : Entry}
    (h : (c.pruneSparing spare).1.entries.get? a = some e) : c.entries.get? a = some e := by
  obtain ⟨gone, rest, -, hentries, -⟩ := pruneSparing_cut c spare
  rw [hentries] at h
  split at h
  · cases h
  · exact h

/-- The spared record stays. -/
theorem Filed.get?_spared (h : c.Filed) (hp : c.policy.OldestFirst) (a : Address) :
    (c.pruneSparing (some a)).1.entries.get? a = c.entries.get? a := by
  obtain ⟨gone, rest, hord, hentries, -⟩ := pruneSparing_cut c (some a)
  rw [hentries, if_neg]
  intro hgone
  obtain ⟨cand, hcand, rfl⟩ := List.mem_map.mp hgone
  have hmem : cand ∈ c.candidates (some cand.address) :=
    (hp.perm _).mem_iff.mp (hord ▸ List.mem_append_left _ hcand)
  exact (h.mem_candidates.mp hmem).1 rfl

/-- **What was written after a record that stays, stays.** -/
theorem Filed.get?_of_written_lt (h : c.Filed) (hp : c.policy.OldestFirst)
    {spare : Option Address} {a b : Address} {e e' : Entry} (hspare : some a ≠ spare)
    (ha : (c.pruneSparing spare).1.entries.get? a = some e) (hb : c.entries.get? b = some e')
    (hlt : e.written < e'.written) : (c.pruneSparing spare).1.entries.get? b = some e' := by
  have hae : c.entries.get? a = some e := get?_of_pruneSparing ha
  obtain ⟨gone, rest, hord, hentries, -⟩ := pruneSparing_cut c spare
  have hmem : Candidate.mk a e.written (entrySize c.sizes a.key e.record) ∈ gone ++ rest :=
    hord ▸ (hp.perm _).mem_iff.mpr (h.mem_candidates.mpr ⟨hspare, e, hae, rfl, rfl⟩)
  have hrest : Candidate.mk a e.written (entrySize c.sizes a.key e.record) ∈ rest := by
    rcases List.mem_append.mp hmem with hgone | hrest
    · rw [hentries, if_pos (List.mem_map.mpr ⟨_, hgone, rfl⟩)] at ha
      cases ha
    · exact hrest
  rw [hentries, if_neg, hb]
  intro hgone
  obtain ⟨cand, hcand, rfl⟩ := List.mem_map.mp hgone
  have hcmem : cand ∈ c.candidates spare :=
    (hp.perm _).mem_iff.mp (hord ▸ List.mem_append_left _ hcand)
  obtain ⟨-, e'', he'', hwritten, -⟩ := h.mem_candidates.mp hcmem
  obtain rfl := Option.some.inj (he''.symm.trans hb)
  -- a candidate that went stands before one that stayed, so it was not written later
  have hle : cand.written ≤ e.written :=
    (List.pairwise_append.mp (hord ▸ hp.sorted _)).2.2 cand hcand _ hrest
  omega

/-! ### The invariant -/

/-- The numbers of the records are in the order in which their feeds were written last. -/
structure Recent (c : PriceCache) (calls : List CacheCall) : Prop where
  /-- no number was used that is yet to come -/
  written_le : ∀ {a e}, c.entries.get? a = some e → e.written ≤ c.writes
  /-- a feed written later has a record as well, with a higher number -/
  newer : ∀ {f g e}, WrittenSince calls g f → c.entries.get? f.address = some e →
    ∃ e', c.entries.get? g.address = some e' ∧ (g ≠ f → e.written < e'.written)

theorem Recent.meeting {calls : List CacheCall} (hr : c.Recent calls) (m : Meeting) :
    (c.meeting m).Recent calls where
  written_le := hr.written_le
  newer := hr.newer

theorem recent_fresh (sizes : SizeRegistry) (cap : UInt64) (policy : EvictionPolicy) :
    (fresh sizes cap policy).Recent [] where
  written_le h := by cases h
  newer _ h := by cases h

/-- A call that writes nothing and takes nothing out. -/
theorem Recent.concat {calls : List CacheCall} {call : CacheCall} (hr : c.Recent calls)
    {d : PriceCache} (hentries : d.entries = c.entries) (hwrites : d.writes = c.writes)
    (hcall : ∀ g r, call ≠ .put g r) : d.Recent (calls ++ [call]) where
  written_le he := by
    rw [hentries] at he
    rw [hwrites]
    exact hr.written_le he
  newer hsince he := by
    rw [hentries] at he ⊢
    rcases writtenSince_concat hsince with ⟨r, hput⟩ | ⟨hsince, -⟩
    · exact absurd hput (hcall _ r)
    · exact hr.newer hsince he

theorem Recent.file {calls : List CacheCall} (hr : c.Recent calls) (f : Feed) (r : Record) :
    (c.file f r).Recent (calls ++ [.put f r]) where
  written_le {a e} he := by
    rw [get?_file] at he
    change e.written ≤ c.writes + 1
    split at he
    · exact Nat.le_of_eq (congrArg Entry.written (Option.some.inj he)).symm
    · exact Nat.le_succ_of_le (hr.written_le he)
  newer {g h e} hsince he := by
    simp only [get?_file, Feed.address_inj] at he ⊢
    by_cases hfh : f = h
    · -- the feed just written has the highest number
      rw [if_pos hfh]
      refine ⟨_, rfl, fun hhg => ?_⟩
      rw [if_neg (by rw [hfh]; exact hhg)] at he
      exact Nat.lt_succ_of_le (hr.written_le he)
    · rw [if_neg hfh]
      rcases writtenSince_concat hsince with ⟨s, hput⟩ | ⟨hsince, hnot⟩
      · exact absurd (CacheCall.put.inj hput).1 hfh
      · have hfg : ¬ f = g := hnot
        rw [if_neg hfg] at he
        exact hr.newer hsince he

/-- A pass keeps the invariant, if the record it spares has the highest number. -/
theorem Recent.pruneSparing {calls : List CacheCall} (hr : c.Recent calls) (h : c.Filed)
    (hp : c.policy.OldestFirst) {spare : Option Address}
    (hspare : ∀ a e, some a = spare → c.entries.get? a = some e → e.written = c.writes) :
    (c.pruneSparing spare).1.Recent calls where
  written_le {a e} he := by
    rw [writes_pruneSparing]
    exact hr.written_le (get?_of_pruneSparing he)
  newer {f g e} hsince he := by
    by_cases hgf : g = f
    · rw [hgf]
      exact ⟨e, he, fun hne => absurd rfl hne⟩
    · -- the record of `f` stayed; were it the spared one, nothing could have a higher number
      have hfe : c.entries.get? f.address = some e := get?_of_pruneSparing he
      obtain ⟨e', hge, hlt⟩ := hr.newer hsince hfe
      refine ⟨e', h.get?_of_written_lt hp (fun hf => ?_) he hge (hlt hgf), hlt⟩
      have hnewest := hspare _ _ hf hfe
      have hle := hr.written_le hge
      have hlt' := hlt hgf
      omega

/-- **Every call keeps the invariant.** -/
theorem Recent.make {calls : List CacheCall} (hr : c.Recent calls) (h : c.Filed)
    (hp : c.policy.OldestFirst) (call : CacheCall) : (c.make call).1.Recent (calls ++ [call]) := by
  cases call with
  | addFeed f => exact hr.concat (entries_addFeed c f) (writes_addFeed c f) (by simp)
  | put f r =>
    have hpolicy : (c.file f r).policy.OldestFirst := by rw [policy_file]; exact hp
    refine (hr.file f r).pruneSparing (h.file f r) hpolicy fun a e ha he => ?_
    rw [get?_file, if_pos (Option.some.inj ha).symm] at he
    rw [← Option.some.inj he]
    rfl
  | prune =>
    have hpruned : (c.pruneSparing none).1.Recent calls :=
      hr.pruneSparing h hp fun a e ha _ => by cases ha
    exact hpruned.concat rfl rfl (by simp)
  | register k g => exact hr.concat rfl rfl (by simp)
  | query q => cases q <;> exact hr.concat rfl rfl (by simp)

theorem invariant_reached (sizes : SizeRegistry) (cap : UInt64)
    (history : List (Meeting × CacheCall)) :
    (reached sizes cap history).Filed ∧
      (reached sizes cap history).Recent (history.map Prod.snd) := by
  induction history using List.reverseRecOn with
  | nil => exact ⟨filed_fresh _ _ _, recent_fresh _ _ _⟩
  | append_singleton history p ih =>
    obtain ⟨m, call⟩ := p
    obtain ⟨hfiled, hrecent⟩ := ih
    rw [reached_concat, List.map_append]
    refine ⟨(hfiled.meeting m).make call, ?_⟩
    exact (hrecent.meeting m).make (hfiled.meeting m) m.oldestFirst_policy call

/-! ### What the reads tell -/

theorem Filed.get_put (h : c.Filed) (hp : c.policy.OldestFirst) (f : Feed) (r : Record) :
    (c.put f r).1.get f = .ok r := by
  have hpolicy : (c.file f r).policy.OldestFirst := by rw [policy_file]; exact hp
  refine get_eq_ok_iff.mpr ⟨⟨r, c.writes + 1⟩, ?_, rfl⟩
  rw [put, (h.file f r).get?_spared hpolicy, get?_file, if_pos rfl]

theorem Filed.put_fits (h : c.Filed) (hp : c.policy.OldestFirst) (f : Feed) (r : Record)
    (hexact : (c.file f r).exactSize < UInt64.size) :
    (c.put f r).1.size ≤ c.cap ∨ ∀ g, g ≠ f → (c.put f r).1.get g = .error (.notFound g) := by
  have hpolicy : (c.file f r).policy.OldestFirst := by rw [policy_file]; exact hp
  rcases (h.file f r).pruneSparing_fits hexact (hpolicy.perm _) with hfits | hleft
  · rw [cap_file] at hfits
    exact .inl hfits
  · refine .inr fun g hg => get_eq_notFound (Option.eq_none_iff_forall_ne_some.mpr ?_)
    intro e he
    exact hg (Feed.address_inj.mp (Option.some.inj (hleft _ e he)))

theorem Filed.prune_fits (h : c.Filed) (hp : c.policy.OldestFirst)
    (hexact : c.exactSize < UInt64.size) :
    c.prune.1.size ≤ c.cap ∨ ∀ g, c.prune.1.get g = .error (.notFound g) := by
  rcases h.pruneSparing_fits hexact (hp.perm _) with hfits | hleft
  · exact .inl hfits
  · refine .inr fun g => get_eq_notFound (Option.eq_none_iff_forall_ne_some.mpr ?_)
    intro e he
    cases hleft _ e he

/-- **A cache holds the records written last.** Whatever the sizes, the cap and the order in which
passes meet the records: a feed written after one that holds a record holds one too; a record can be
read right after it was written; and after a write or a pass the size fits, or nothing is left but
the record just written. -/
theorem held_recently (sizes : SizeRegistry) (cap : UInt64)
    (history : List (Meeting × CacheCall)) :
    (∀ f g, WrittenSince (history.map Prod.snd) g f →
      (∃ r, (reached sizes cap history).get f = .ok r) →
        ∃ r, (reached sizes cap history).get g = .ok r) ∧
    (∀ m f r, (reached sizes cap (history ++ [(m, .put f r)])).get f = .ok r ∧
      (((reached sizes cap history).file f r).exactSize < UInt64.size →
        (reached sizes cap (history ++ [(m, .put f r)])).size ≤ cap ∨
          ∀ g, g ≠ f →
            (reached sizes cap (history ++ [(m, .put f r)])).get g = .error (.notFound g))) ∧
    ∀ m, (reached sizes cap history).exactSize < UInt64.size →
      (reached sizes cap (history ++ [(m, .prune)])).size ≤ cap ∨
        ∀ g, (reached sizes cap (history ++ [(m, .prune)])).get g = .error (.notFound g) := by
  obtain ⟨hfiled, hrecent⟩ := invariant_reached sizes cap history
  have hcap : (reached sizes cap history).cap = cap := cap_reached sizes cap history
  refine ⟨?_, fun m f r => ?_, fun m hexact => ?_⟩
  · rintro f g hsince ⟨r, hr⟩
    obtain ⟨e, he, -⟩ := get_eq_ok_iff.mp hr
    obtain ⟨e', he', -⟩ := hrecent.newer hsince he
    exact ⟨e'.record, get_eq_ok_iff.mpr ⟨e', he', rfl⟩⟩
  · rw [reached_concat]
    refine ⟨(hfiled.meeting m).get_put m.oldestFirst_policy f r, fun hexact => ?_⟩
    rw [← exactSize_file_meeting _ m] at hexact
    have hfits := (hfiled.meeting m).put_fits m.oldestFirst_policy f r hexact
    rw [cap_meeting, hcap] at hfits
    exact hfits
  · rw [reached_concat]
    have hfits := (hfiled.meeting m).prune_fits m.oldestFirst_policy hexact
    rw [cap_meeting, hcap] at hfits
    exact hfits

/-- Two writes that both fit: the second record is there since the first is, and a pass would leave
a size that fits. -/
theorem held_recently_of_two :
    let feed (i : String) : Feed := ⟨1, .pyth, i⟩
    let record (i : String) : Record := .custom ⟨"spot", .pyth, 1, i, 0, 0, .epoch 0, some 9⟩
    let history := ["a", "b"].map fun i => (Meeting.asListed, CacheCall.put (feed i) (record i))
    let c := reached {} 1000 history
    c.get (feed "a") = .ok (record "a") ∧ (∃ r, c.get (feed "b") = .ok r) ∧
      c.exactSize < UInt64.size ∧
      ((reached {} 1000 (history ++ [(Meeting.asListed, .prune)])).size ≤ 1000 ∨
        ∀ g, (reached {} 1000 (history ++ [(Meeting.asListed, .prune)])).get g =
          .error (.notFound g)) := by
  intro feed record history c
  obtain ⟨hheld, -, hprune⟩ := held_recently {} 1000 history
  have ha : c.get (feed "a") = .ok (record "a") := by decide
  have hexact : c.exactSize < UInt64.size := by decide
  refine ⟨ha, hheld (feed "a") (feed "b") ?_ ⟨_, ha⟩, hexact, hprune _ hexact⟩
  refine ⟨[.put (feed "a") (record "a")], record "b", [], rfl, fun call hcall => ?_⟩
  cases hcall

end PriceCache

end PriceRelay
