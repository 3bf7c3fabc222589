import PriceRelay.Proofs.Cache.Counts
/-!
# A pass takes no more than it must

The policy lists the records that may go, and a pass takes them from the front of this list until
the size fits. It keeps the size by subtraction while the records go. The size that it keeps is that
of the cache it leaves, so it stops as soon as it can: what it takes is the shortest front that makes
room.

* `PriceCache.without` is a cache without the records of some candidates,
* `PriceCache.Offered` says of candidates that each of them is a record of the cache, with its size;
  `PriceCache.Offered.exactSize_without` says what they free,
* `PriceCache.Pass.Took` says that a pass has taken some candidates, `PriceCache.Pass.Took.run` which
  ones a pass takes of a list,
* `PriceCache.TookFront` is what a whole pass does, `PriceCache.pruneSparing_shortest` that every pass
  does it, and that passes of the usual policy do the same in whatever order they meet the records.
-/

namespace PriceRelay

namespace PriceCache

/-- The cache without the records of some candidates. -/
def without (c : PriceCache) (gone : List Candidate) : PriceCache :=
  { c with entries := gone.foldl (fun entries cand => entries.erase cand.address) c.entries }

/-- The cache as a pass finds it that is made with this cap. -/
def within (c : PriceCache) (cap : UInt64) : PriceCache := { c with cap := cap }

variable {c : PriceCache}

@[simp] theorem without_nil (c : PriceCache) : c.without [] = c := rfl

theorem entries_without_concat (c : PriceCache) (gone : List Candidate) (cand : Candidate) :
    (c.without (gone ++ [cand])).entries = (c.without gone).entries.erase cand.address :=
  List.foldl_concat ..

theorem get?_without (c : PriceCache) (gone : List Candidate) (a : Address) :
    (c.without gone).entries.get? a =
      if a ∈ gone.map Candidate.address then none else c.entries.get? a := by
  induction gone using List.reverseRecOn with
  | nil => simp
  | append_singleton gone cand ih =>
    rw [entries_without_concat, Table.get?_erase, ih]
    by_cases ha : cand.address = a
    · simp [ha]
    · simp [ha, Ne.symm ha]

theorem Filed.withCap (h : c.Filed) (policy : EvictionPolicy) (cap : UInt64) :
    ((c.under policy).within cap).Filed where
  feeds_sorted := h.feeds_sorted
  entries_sorted := h.entries_sorted
  feeds_address := h.feeds_address
  entries_tracked := h.entries_tracked

theorem Filed.sorted_without (h : c.Filed) (gone : List Candidate) :
    (c.without gone).entries.Sorted := by
  induction gone using List.reverseRecOn with
  | nil => exact h.entries_sorted
  | append_singleton gone cand ih =>
    rw [entries_without_concat]
    exact ih.erase _

/-! ### What candidates free -/

/-- Each of the candidates is a record of the cache, with the size it is accounted with, and none is
there twice. -/
structure Offered (c : PriceCache) (cs : List Candidate) : Prop where
  /-- none is there twice -/
  nodup : (cs.map Candidate.address).Nodup
  /-- each is a record, with its size -/
  entry : ∀ cand ∈ cs, ∃ e, c.entries.get? cand.address = some e ∧
    cand.size = entrySize c.sizes cand.address.key e.record

theorem Filed.nodup_candidates (h : c.Filed) (spare : Option Address) :
    ((c.candidates spare).map Candidate.address).Nodup := by
  have hkeys : (c.entries.toList.map Prod.fst).Nodup := h.entries_sorted.nodup_keys
  refine hkeys.sublist ?_
  have hall : (c.entries.toList.map Prod.fst) = (c.entries.toList.map fun p => Candidate.mk p.1
      p.2.written (entrySize c.sizes p.1.key p.2.record)).map Candidate.address := by simp
  rw [hall, candidates]
  exact List.filter_sublist.map _

theorem Filed.offered (h : c.Filed) {spare : Option Address} {cs : List Candidate}
    (hperm : cs.Perm (c.candidates spare)) : c.Offered cs where
  nodup := (hperm.map _).nodup_iff.mpr (h.nodup_candidates spare)
  entry cand hcand := by
    obtain ⟨-, e, he, -, hsize⟩ := h.mem_candidates.mp (hperm.mem_iff.mp hcand)
    exact ⟨e, he, hsize⟩

theorem Offered.append_left {front rest : List Candidate} (h : c.Offered (front ++ rest)) :
    c.Offered front where
  nodup := by
    have hnodup := h.nodup
    rw [List.map_append] at hnodup
    exact hnodup.of_append_left
  entry cand hcand := h.entry cand (List.mem_append_left _ hcand)

/-- The candidate that comes next still has its record. -/
theorem Offered.get?_next {gone rest : List Candidate} {cand : Candidate}
    (h : c.Offered (gone ++ cand :: rest)) :
    ∃ e, (c.without gone).entries.get? cand.address = some e ∧
      cand.size = entrySize c.sizes cand.address.key e.record := by
  obtain ⟨e, he, hsize⟩ := h.entry cand (by simp)
  have hnodup := h.nodup
  rw [List.map_append, List.map_cons] at hnodup
  have hnot : cand.address ∉ gone.map Candidate.address := fun hmem =>
    List.disjoint_of_nodup_append hnodup hmem (List.mem_cons_self ..)
  exact ⟨e, by rw [get?_without, if_neg hnot, he], hsize⟩

theorem exactTotal_concat (sizes : List Nat) (size : Nat) :
    exactTotal (sizes ++ [size]) = exactTotal sizes + size := by
  change (sizes ++ [size]).sum = sizes.sum + size
  simp

/-- **Candidates free what they are accounted with.** -/
theorem Offered.exactSize_without (h : c.Filed) (hexact : c.exactSize < UInt64.size)
    {gone : List Candidate} (hgone : c.Offered gone) :
    (c.without gone).exactSize + exactTotal (gone.map fun cand => cand.size.toNat) =
      c.exactSize := by
  induction gone using List.reverseRecOn with
  | nil => simp [exactTotal]
  | append_singleton gone cand ih =>
    have hsum := ih hgone.append_left
    obtain ⟨e, he, hsize⟩ := hgone.get?_next
    have herase := exactRecords_erase c.sizes (h.sorted_without gone) he
    have hbefore : (c.without gone).exactSize =
        c.exactTracked + exactRecords c.sizes (c.without gone).entries := rfl
    have hafter : (c.without (gone ++ [cand])).exactSize =
        c.exactTracked + exactRecords c.sizes ((c.without gone).entries.erase cand.address) := by
      rw [← entries_without_concat]
      rfl
    -- what is part of a size that fits in a word fits in one, too
    have hcand : cand.size.toNat = exactEntrySize c.sizes cand.address.key e.record := by
      rw [hsize, entrySize_eq_ofNat]
      exact UInt64.toNat_ofNat_of_lt (by omega)
    rw [List.map_append, List.map_cons, List.map_nil, exactTotal_concat]
    omega

/-! ### What a pass takes of a list -/

/-- The pass has taken these candidates. -/
structure Pass.Took (c : PriceCache) (gone : List Candidate) (p : Pass) : Prop where
  /-- it left the others -/
  entries : p.entries = (c.without gone).entries
  /-- it knows the exact size of what it left -/
  weighs : p.Weighs c
  /-- it names the feeds of those it took, in the order in which it took them -/
  evicted : p.evicted.map Feed.address = gone.map Candidate.address
  /-- they are tracked -/
  tracked : ∀ f ∈ p.evicted, f ∈ c.tracked

/-- **The size that a pass keeps is that of the cache it leaves.** -/
theorem Pass.Took.size_eq {gone : List Candidate} {p : Pass} (hp : p.Took c gone) :
    p.size = (c.without gone).size := by
  have hexact : (c.without gone).exactSize =
      c.exactTracked + exactRecords c.sizes (c.without gone).entries := rfl
  rw [size_eq_ofNat, hexact, ← hp.entries, ← hp.weighs.size_eq, UInt64.ofNat_toNat]

theorem Pass.Took.step (h : c.Filed) {gone rest : List Candidate} {cand : Candidate} {p : Pass}
    (hp : p.Took c gone) (hoffered : c.Offered (gone ++ cand :: rest)) (hsize : ¬ p.size ≤ c.cap) :
    (p.step c.cap c.feeds cand).Took c (gone ++ [cand]) := by
  obtain ⟨e, he, hcand⟩ := hoffered.get?_next
  have hmeasures : c.Measures cand := fun e' he' => by
    obtain ⟨e'', he'', hsize''⟩ := hoffered.entry cand (by simp)
    obtain rfl := Option.some.inj (he''.symm.trans he')
    exact hsize''
  have hweighs := hp.weighs.step hmeasures
  rw [← hp.entries] at he
  obtain ⟨f, hf⟩ := h.entries_tracked (hp.weighs.get?_entries he)
  have hfa : f.address = cand.address := h.feeds_address hf
  have hstep : p.step c.cap c.feeds cand =
      ⟨p.entries.erase cand.address, saturatingSub p.size cand.size, p.evicted ++ [f]⟩ := by
    simp only [Pass.step, if_neg hsize, he, hf, Option.toList_some]
  rw [hstep] at hweighs ⊢
  refine ⟨?_, hweighs, ?_, ?_⟩
  · rw [entries_without_concat, ← hp.entries]
  · simp [hp.evicted, hfa]
  · intro g hg
    rcases List.mem_append.mp hg with hg | hg
    · exact hp.tracked g hg
    · rw [List.mem_singleton.mp hg, h.mem_tracked, hfa]
      exact hf

/-- **A pass takes candidates until the size fits, and no longer.** -/
theorem Pass.Took.run (h : c.Filed) {gone rest : List Candidate} {p : Pass} (hp : p.Took c gone)
    (hoffered : c.Offered (gone ++ rest)) :
    ∃ more left, rest = more ++ left ∧
      (rest.foldl (Pass.step c.cap c.feeds) p).Took c (gone ++ more) ∧
      (left = [] ∨ (c.without (gone ++ more)).size ≤ c.cap) ∧
      ∀ before after, more = before ++ after → after ≠ [] →
        ¬ (c.without (gone ++ before)).size ≤ c.cap := by
  induction rest generalizing gone p with
  | nil =>
    refine ⟨[], [], rfl, by simpa using hp, .inl rfl, ?_⟩
    intro before after hmore hafter
    exact absurd (List.append_eq_nil_iff.mp hmore.symm).2 hafter
  | cons cand rest ih =>
    by_cases hfits : p.size ≤ c.cap
    · refine ⟨[], cand :: rest, rfl, ?_, ?_, ?_⟩
      · rw [Pass.foldl_step_of_fits hfits, List.append_nil]
        exact hp
      · rw [List.append_nil, ← hp.size_eq]
        exact .inr hfits
      · intro before after hmore hafter
        exact absurd (List.append_eq_nil_iff.mp hmore.symm).2 hafter
    · rw [List.append_cons] at hoffered
      have hoffered' : c.Offered (gone ++ cand :: rest) := by rwa [List.append_cons]
      obtain ⟨more, left, rfl, htook, hleft, hshort⟩ :=
        ih (hp.step h hoffered' hfits) hoffered
      simp only [List.append_assoc, List.singleton_append] at htook hleft hshort
      refine ⟨cand :: more, left, rfl, htook, hleft, ?_⟩
      intro before after hmore hafter
      cases before with
      | nil =>
        rw [List.append_nil, ← hp.size_eq]
        exact hfits
      | cons first before =>
        obtain ⟨rfl, hrest⟩ := List.cons.inj hmore
        exact hshort before after hrest hafter

/-! ### Whole passes -/

/-- A pass over `c` has taken the candidates `gone` from the front of its list, left the candidates
`left`, and ended with the cache `d` and this outcome. -/
structure TookFront (c : PriceCache) (spare : Option Address) (gone left : List Candidate)
    (d : PriceCache) (outcome : PruneOutcome) : Prop where
  /-- the list is the policy's -/
  listed : c.policy.order (c.candidates spare) = gone ++ left
  /-- the policy is asked only if the size does not fit -/
  asked : outcome.ordered = if c.size ≤ c.cap then none else some (gone ++ left)
  /-- the list has the records that are not spared, with their numbers and sizes -/
  mem_list : ∀ cand, cand ∈ gone ++ left ↔ some cand.address ≠ spare ∧
    ∃ e, c.entries.get? cand.address = some e ∧ cand.written = e.written ∧
      cand.size = entrySize c.sizes cand.address.key e.record
  /-- it has each of them once -/
  nodup : ((gone ++ left).map Candidate.address).Nodup
  /-- nothing is taken if the size fits -/
  of_fits : c.size ≤ c.cap → gone = []
  /-- afterwards the size fits, or nothing is left to take -/
  fits : d.size ≤ c.cap ∨ left = []
  /-- any front of the list that makes room has all that was taken -/
  shortest : ∀ front rest, gone ++ left = front ++ rest →
    (c.without front).size ≤ c.cap → gone <+: front
  /-- the records of those taken are gone, and no others -/
  get?_entries : ∀ a, d.entries.get? a =
    if a ∈ gone.map Candidate.address then none else c.entries.get? a
  /-- all that is tracked stays tracked -/
  feeds : d.feeds = c.feeds
  /-- so do the networks -/
  networks : d.networks = c.networks
  /-- nothing was written -/
  writes : d.writes = c.writes
  /-- nor counted as an update -/
  updates : d.updates = c.updates
  /-- the evictions are counted -/
  evictions : d.evictions = c.evictions + gone.length
  /-- the feeds of those taken are told, in the order in which they went -/
  evicted : outcome.evicted.map Feed.address = gone.map Candidate.address
  /-- they are tracked -/
  tracked : ∀ f ∈ outcome.evicted, f ∈ c.tracked
  /-- the sizes told are those of the cache before -/
  sizeBefore : outcome.sizeBefore = c.size
  /-- and after -/
  sizeAfter : outcome.sizeAfter = d.size
  /-- they differ by what those taken were accounted with -/
  freed : outcome.sizeAfter.toNat + exactTotal (gone.map fun cand => cand.size.toNat) =
    outcome.sizeBefore.toNat

/-- A front of a list that makes room is no shorter than one of which no part does. -/
theorem prefix_of_fits {gone left : List Candidate}
    (hshort : ∀ before after, gone = before ++ after → after ≠ [] →
      ¬ (c.without before).size ≤ c.cap) {front rest : List Candidate}
    (hlist : gone ++ left = front ++ rest) (hfits : (c.without front).size ≤ c.cap) :
    gone <+: front := by
  rcases List.append_eq_append_iff.mp hlist with ⟨more, hfront, -⟩ | ⟨more, hgone, -⟩
  · exact ⟨more, hfront.symm⟩
  · cases more with
    | nil => exact ⟨[], by rw [hgone, List.append_nil, List.append_nil]⟩
    | cons cand more => exact absurd hfits (hshort front (cand :: more) hgone (by simp))

/-- **Every pass takes the shortest front that makes room.** -/
theorem Filed.exists_tookFront (h : c.Filed) (hexact : c.exactSize < UInt64.size)
    (spare : Option Address)
    (hperm : (c.policy.order (c.candidates spare)).Perm (c.candidates spare)) :
    ∃ gone left, TookFront c spare gone left (c.pruneSparing spare).1 (c.pruneSparing spare).2 := by
  have hmem : ∀ cand, cand ∈ c.policy.order (c.candidates spare) ↔ some cand.address ≠ spare ∧
      ∃ e, c.entries.get? cand.address = some e ∧ cand.written = e.written ∧
        cand.size = entrySize c.sizes cand.address.key e.record := fun cand =>
    hperm.mem_iff.trans h.mem_candidates
  have hoffered : c.Offered (c.policy.order (c.candidates spare)) := h.offered hperm
  have hstart : Pass.Took c [] ⟨c.entries, c.size, []⟩ :=
    ⟨rfl, ⟨h.entries_sorted, id, toNat_size hexact⟩, rfl, by simp⟩
  obtain ⟨gone, left, hlist, htook, hfits, hshort⟩ :=
    hstart.run h (by rwa [List.nil_append])
  simp only [List.nil_append] at htook hfits hshort
  have hafter : (c.pruneSparing spare).2.sizeAfter = (c.pruneSparing spare).1.size :=
    h.pruneSparing_exactSize hexact fun cand => hperm.mem_iff.mp
  have hfreed := Offered.exactSize_without h hexact (hlist ▸ hoffered).append_left
  rw [hlist] at hmem hoffered
  have hsum : (c.without gone).size.toNat + exactTotal (gone.map fun cand => cand.size.toNat) =
      c.size.toNat := by
    rw [toNat_size hexact, toNat_size (by omega), hfreed]
  by_cases hc : c.size ≤ c.cap
  · -- the size fits, so no front is taken: not even the empty one was too large
    have hgone : gone = [] := by
      cases gone with
      | nil => rfl
      | cons cand gone => exact absurd hc (hshort [] (cand :: gone) rfl (by simp))
    subst hgone
    refine ⟨[], left, ?_⟩
    rw [PriceCache.pruneSparing, if_pos hc] at hafter ⊢
    exact ⟨hlist, (if_pos hc).symm, hmem, hoffered.nodup, fun _ => rfl, .inl (hafter ▸ hc),
      fun front _ _ _ => List.nil_prefix, fun a => by simp [weighed], rfl, rfl, rfl, rfl, rfl,
      rfl, by simp, rfl, hafter, rfl⟩
  · refine ⟨gone, left, ?_⟩
    have hevict : c.evict (c.policy.order (c.candidates spare)) =
        (c.policy.order (c.candidates spare)).foldl (Pass.step c.cap c.feeds)
          ⟨c.entries, c.size, []⟩ := rfl
    have hlength := congrArg List.length htook.evicted
    rw [List.length_map, List.length_map] at hlength
    rw [PriceCache.pruneSparing, if_neg hc] at hafter ⊢
    rw [← hevict] at htook hlength
    refine ⟨hlist, ?_, hmem, hoffered.nodup, fun hfit => absurd hfit hc, ?_,
      fun front rest => prefix_of_fits hshort, fun a => ?_, rfl, rfl, rfl, rfl, ?_,
      htook.evicted, htook.tracked, rfl, hafter, ?_⟩
    · rw [if_neg hc, ← hlist]
    · refine hfits.symm.imp_left fun hfit => ?_
      rw [← hafter]
      rw [← htook.size_eq] at hfit
      exact hfit
    · exact (congrArg (·.get? a) htook.entries).trans (get?_without c gone a)
    · exact congrArg (c.evictions + ·) hlength
    · rw [← htook.size_eq] at hsum
      exact hsum

/-- **The usual policy does not see in which order records are met.** -/
theorem Numbered.order_meeting (hn : c.Numbered) (h : c.Filed) (spare : Option Address)
    (m m' : Meeting) :
    m.policy.order (c.candidates spare) = m'.policy.order (c.candidates spare) := by
  have hm := m.oldestFirst_policy
  have hm' := m'.oldestFirst_policy
  refine List.Perm.eq_of_pairwise ?_ (hm.sorted _) (hm'.sorted _)
    ((hm.perm _).trans (hm'.perm _).symm)
  intro a b ha hb hab hba
  obtain ⟨-, e, he, hwritten, hsize⟩ := h.mem_candidates.mp ((hm.perm _).mem_iff.mp ha)
  obtain ⟨-, e', he', hwritten', hsize'⟩ := h.mem_candidates.mp ((hm'.perm _).mem_iff.mp hb)
  -- no two records have the same number, so candidates with one number are the same
  have hsame : e.written = e'.written := by omega
  have haddress : a.address = b.address := hn.written_inj he he' hsame
  rw [haddress, he'] at he
  obtain rfl := Option.some.inj he
  rw [haddress] at hsize
  obtain ⟨address, written, size⟩ := a
  obtain ⟨address', written', size'⟩ := b
  simp_all

theorem Numbered.pruneSparing_meeting (hn : c.Numbered) (h : c.Filed) (spare : Option Address)
    (m m' : Meeting) :
    (c.meeting m).pruneSparing spare =
      (((c.meeting m').pruneSparing spare).1.meeting m, ((c.meeting m').pruneSparing spare).2) := by
  have horder := hn.order_meeting h spare m m'
  have hcandidates (m : Meeting) : (c.meeting m).candidates spare = c.candidates spare := rfl
  have hevict (m : Meeting) : (c.meeting m).evict = c.evict := rfl
  have hsize (m : Meeting) : (c.meeting m).size = c.size := rfl
  have hpolicy (m : Meeting) : (c.meeting m).policy = m.policy := rfl
  simp only [pruneSparing, hcandidates, hevict, hsize, hpolicy, cap_meeting, horder]
  split <;> rfl

/-- **A pass takes the shortest front that makes room.** Whatever was done to a cache, under whatever
policies, and with whatever cap a pass is made: of the records that are not spared, as the policy
lists them, it takes the shortest front that makes the size fit, or all if none does; it tells the
feeds of exactly these records in their order, and the sizes before and after; and nothing else
changes. Under the usual policy it does the same in whatever order it meets the records. -/
theorem pruneSparing_shortest (sizes : SizeRegistry) (cap₀ : UInt64) (policy₀ : EvictionPolicy)
    (history : List (EvictionPolicy × CacheCall)) (cap : UInt64) (policy : EvictionPolicy)
    (spare : Option Address) (hperm : ∀ cs, (policy.order cs).Perm cs)
    (hexact : ((fresh sizes cap₀ policy₀).after history).exactSize < UInt64.size) :
    let c := (((fresh sizes cap₀ policy₀).after history).under policy).within cap
    (∃ gone left,
      TookFront c spare gone left (c.pruneSparing spare).1 (c.pruneSparing spare).2) ∧
    ∀ m m' : Meeting,
      ((c.meeting m).pruneSparing spare).2 = ((c.meeting m').pruneSparing spare).2 ∧
        ((c.meeting m).pruneSparing spare).1 =
          ((c.meeting m').pruneSparing spare).1.meeting m := by
  intro c
  have hfiled : c.Filed := ((filed_fresh sizes cap₀ policy₀).after history).withCap policy cap
  have hnumbered : c.Numbered :=
    ⟨((numbered_fresh sizes cap₀ policy₀).after history).written_le,
      ((numbered_fresh sizes cap₀ policy₀).after history).written_inj⟩
  refine ⟨hfiled.exists_tookFront hexact spare (hperm _), fun m m' => ?_⟩
  rw [hnumbered.pruneSparing_meeting hfiled spare m m']
  exact ⟨rfl, rfl⟩

/-- Three records, of which the first is spared: the second goes, and then the size fits. -/
theorem pruneSparing_shortest_of_three :
    let feed (i : String) : Feed := ⟨1, .pyth, i⟩
    let record (i : String) : Record := .custom ⟨"spot", .pyth, 1, i, 0, 0, .epoch 0, some 9⟩
    let listed : EvictionPolicy := ⟨"listed", id⟩
    let history := ["a", "b", "c"].map fun i => (listed, CacheCall.put (feed i) (record i))
    let before := (fresh {} 1000 listed).after history
    let c := (before.under listed).within 100
    let spare := some (feed "a").address
    (∀ cs, (listed.order cs).Perm cs) ∧ before.exactSize < UInt64.size ∧
      (c.pruneSparing spare).2.evicted = [feed "b"] ∧
      ∃ gone left, TookFront c spare gone left (c.pruneSparing spare).1
        (c.pruneSparing spare).2 := by
  intro feed record listed history before c spare
  have hperm : ∀ cs, (listed.order cs).Perm cs := fun cs => .refl cs
  have hexact : before.exactSize < UInt64.size := by decide
  have hevicted : (c.pruneSparing spare).2.evicted = [feed "b"] := by decide
  obtain ⟨htook, -⟩ := pruneSparing_shortest {} 1000 listed history 100 listed spare hperm hexact
  exact ⟨hperm, hexact, hevicted, htook⟩

end PriceCache

end PriceRelay
