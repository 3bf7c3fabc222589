import PriceRelay.Proofs.Cache.Exact
import PriceRelay.Proofs.Size
/-!
# What a pass takes

A pass goes down the list that the policy made of the candidates and stops as soon as the size fits.
So it takes the first candidates of that list, and the size it ends with is that of what is left.

* `PriceCache.Pass.Cut` says that the first candidates are gone and the others stay,
* `PriceCache.Pass.Weighs` that a pass knows the exact size of what it left,
* `PriceCache.Filed.pruneSparing_fits` is what a pass is for: the size fits, or nothing is left to
  take.
-/

namespace PriceRelay

namespace PriceCache

/-- A pass that began at `start` has taken the candidates `gone`, and has come before `rest`. -/
structure Pass.Cut (cap : UInt64) (start p : Pass) (gone rest : List Candidate) : Prop where
  /-- a record is left unless it was taken -/
  get?_entries : ∀ a, p.entries.get? a =
    if a ∈ gone.map Candidate.address then none else start.entries.get? a
  /-- the size fits when something is left to take -/
  fits : rest = [] ∨ p.size ≤ cap

theorem Pass.step_of_fits {cap : UInt64} {feeds : Table Address Feed} {p : Pass}
    (h : p.size ≤ cap) (cand : Candidate) : p.step cap feeds cand = p :=
  if_pos h

theorem Pass.foldl_step_of_fits {cap : UInt64} {feeds : Table Address Feed} {p : Pass}
    (h : p.size ≤ cap) (ordered : List Candidate) : ordered.foldl (Pass.step cap feeds) p = p := by
  induction ordered with
  | nil => rfl
  | cons cand ordered ih => rw [List.foldl_cons, Pass.step_of_fits h, ih]

/-- A step that is taken leaves everything but the record of the candidate. -/
theorem Pass.get?_step {cap : UInt64} {feeds : Table Address Feed} {p : Pass}
    (h : ¬ p.size ≤ cap) (cand : Candidate) (a : Address) :
    (p.step cap feeds cand).entries.get? a =
      if cand.address = a then none else p.entries.get? a := by
  rw [Pass.step, if_neg h]
  split
  · next hnone =>
    split
    · next ha => rw [← ha, hnone]
    · rfl
  · exact Table.get?_erase _ _ _

/-- **A pass takes the first of its candidates.** -/
theorem Pass.exists_cut (cap : UInt64) (feeds : Table Address Feed) (p : Pass)
    (ordered : List Candidate) :
    ∃ gone rest, ordered = gone ++ rest ∧
      Pass.Cut cap p (ordered.foldl (Pass.step cap feeds) p) gone rest := by
  induction ordered generalizing p with
  | nil => exact ⟨[], [], rfl, fun a => by simp, .inl rfl⟩
  | cons cand ordered ih =>
    by_cases hfits : p.size ≤ cap
    · refine ⟨[], cand :: ordered, rfl, ?_, ?_⟩
      · intro a
        rw [Pass.foldl_step_of_fits hfits]
        simp
      · rw [Pass.foldl_step_of_fits hfits]
        exact .inr hfits
    · obtain ⟨gone, rest, rfl, hcut⟩ := ih (p.step cap feeds cand)
      refine ⟨cand :: gone, rest, rfl, fun a => ?_, hcut.fits⟩
      rw [List.foldl_cons, hcut.get?_entries, Pass.get?_step hfits, List.map_cons]
      by_cases ha : cand.address = a
      · simp [ha]
      · simp [ha, Ne.symm ha]

/-! ### Sizes -/

/-- The pass knows the exact size of what it left of `c`. -/
structure Pass.Weighs (c : PriceCache) (p : Pass) : Prop where
  /-- the records left are in order -/
  entries_sorted : p.entries.Sorted
  /-- they are records of the cache -/
  get?_entries : ∀ {a e}, p.entries.get? a = some e → c.entries.get? a = some e
  /-- the size is that of the feeds and of these records -/
  size_eq : p.size.toNat = c.exactTracked + exactRecords c.sizes p.entries

theorem toNat_saturatingSub {a b : UInt64} (h : b.toNat ≤ a.toNat) :
    (saturatingSub a b).toNat = a.toNat - b.toNat := by
  have hle : b ≤ a := UInt64.le_iff_toNat_le.mpr h
  rw [saturatingSub, if_pos hle, UInt64.toNat_sub_of_le _ _ hle]

variable {c : PriceCache}

/-- The candidate frees what its record is accounted with. -/
def Measures (c : PriceCache) (cand : Candidate) : Prop :=
  ∀ e, c.entries.get? cand.address = some e →
    cand.size = entrySize c.sizes cand.address.key e.record

theorem Pass.Weighs.step {p : Pass} (hp : p.Weighs c) {cand : Candidate} (hc : c.Measures cand) :
    (p.step c.cap c.feeds cand).Weighs c := by
  rw [Pass.step]
  split
  · exact hp
  · split
    · exact hp
    · next e he =>
      refine ⟨hp.entries_sorted.erase _, fun {a e'} he' => ?_, ?_⟩
      · rw [Table.get?_erase] at he'
        split at he'
        · cases he'
        · exact hp.get?_entries he'
      · have herase := exactRecords_erase c.sizes hp.entries_sorted he
        have hsize := hp.size_eq
        -- a record is no larger than the size it is part of, so no word overflows here
        have hlt : exactEntrySize c.sizes cand.address.key e.record < UInt64.size := by
          have hbound := p.size.toNat_lt_size
          omega
        have hcand : cand.size.toNat = exactEntrySize c.sizes cand.address.key e.record := by
          rw [hc e (hp.get?_entries he), entrySize_eq_ofNat]
          exact UInt64.toNat_ofNat_of_lt hlt
        change (saturatingSub p.size cand.size).toNat =
          c.exactTracked + exactRecords c.sizes (p.entries.erase cand.address)
        rw [toNat_saturatingSub (by omega), hcand]
        omega

theorem Filed.evict_weighs (h : c.Filed) (hexact : c.exactSize < UInt64.size)
    {ordered : List Candidate} (hord : ∀ cand ∈ ordered, c.Measures cand) :
    (c.evict ordered).Weighs c := by
  suffices hrun : ∀ p : Pass, p.Weighs c →
      (ordered.foldl (Pass.step c.cap c.feeds) p).Weighs c from
    hrun _ ⟨h.entries_sorted, id, toNat_size hexact⟩
  induction ordered with
  | nil => exact fun p hp => hp
  | cons cand ordered ih =>
    intro p hp
    have hcand : c.Measures cand := hord cand (List.mem_cons_self ..)
    exact ih (fun cand' hcand' => hord cand' (List.mem_cons_of_mem _ hcand')) _ (hp.step hcand)

/-! ### Candidates -/

theorem Filed.mem_candidates (h : c.Filed) {spare : Option Address} {cand : Candidate} :
    cand ∈ c.candidates spare ↔ some cand.address ≠ spare ∧
      ∃ e, c.entries.get? cand.address = some e ∧ cand.written = e.written ∧
        cand.size = entrySize c.sizes cand.address.key e.record := by
  rw [candidates, List.mem_filter, List.mem_map]
  constructor
  · rintro ⟨⟨⟨a, e⟩, hmem, rfl⟩, hspare⟩
    exact ⟨of_decide_eq_true hspare, e, h.entries_sorted.mem_toList.mp hmem, rfl, rfl⟩
  · rintro ⟨hspare, e, he, hwritten, hsize⟩
    refine ⟨⟨(cand.address, e), h.entries_sorted.mem_toList.mpr he, ?_⟩, decide_eq_true hspare⟩
    rw [← hwritten, ← hsize]

/-! ### Whole passes -/

/-- **A pass takes the first candidates of its list**, none if the size fits already. -/
theorem pruneSparing_cut (c : PriceCache) (spare : Option Address) :
    ∃ gone rest, c.policy.order (c.candidates spare) = gone ++ rest ∧
      (∀ a, (c.pruneSparing spare).1.entries.get? a =
        if a ∈ gone.map Candidate.address then none else c.entries.get? a) ∧
      (rest = [] ∨ (c.pruneSparing spare).2.sizeAfter ≤ c.cap) := by
  by_cases hfits : c.size ≤ c.cap
  · refine ⟨[], _, rfl, fun a => ?_, ?_⟩
    · rw [pruneSparing, if_pos hfits]
      simp [weighed]
    · rw [pruneSparing, if_pos hfits]
      exact .inr hfits
  · obtain ⟨gone, rest, hord, hcut⟩ := Pass.exists_cut c.cap c.feeds ⟨c.entries, c.size, []⟩
      (c.policy.order (c.candidates spare))
    refine ⟨gone, rest, hord, ?_⟩
    rw [pruneSparing, if_neg hfits]
    exact ⟨hcut.get?_entries, hcut.fits⟩

theorem exactSize_congr {d : PriceCache} (hfeeds : d.feeds = c.feeds)
    (hsizes : c.sizes.Alike d.sizes) :
    d.exactSize = c.exactTracked + exactRecords c.sizes d.entries := by
  rw [exactSize, exactTracked, exactTracked, networks, networks, hfeeds, exactRecords,
    exactRecords]
  simp only [exactEntrySize, hsizes.weigh]

/-- The size that a pass ends with is that of the cache it leaves. -/
theorem Filed.pruneSparing_exactSize (h : c.Filed) (hexact : c.exactSize < UInt64.size)
    {spare : Option Address}
    (hord : ∀ cand ∈ c.policy.order (c.candidates spare), cand ∈ c.candidates spare) :
    (c.pruneSparing spare).2.sizeAfter = (c.pruneSparing spare).1.size := by
  have hsizes := SizeRegistry.alike_rememberAll (c.entries.values.map Entry.record) c.sizes
  have hafter : (c.pruneSparing spare).1.exactSize =
      c.exactTracked + exactRecords c.sizes (c.pruneSparing spare).1.entries := by
    refine exactSize_congr (feeds_pruneSparing c spare) ?_
    rw [PriceCache.pruneSparing]
    split <;> exact hsizes
  rw [size_eq_ofNat, hafter, PriceCache.pruneSparing]
  split
  · exact size_eq_ofNat c
  · have hweighs := h.evict_weighs hexact fun cand hcand e he => by
      obtain ⟨-, e', he', -, hsize⟩ := h.mem_candidates.mp (hord cand hcand)
      rw [he'] at he
      rw [hsize, Option.some.inj he]
    rw [← hweighs.size_eq, UInt64.ofNat_toNat]

/-- **What a pass is for**: afterwards the size fits, or no record is left that might have gone. -/
theorem Filed.pruneSparing_fits (h : c.Filed) (hexact : c.exactSize < UInt64.size)
    {spare : Option Address}
    (hperm : (c.policy.order (c.candidates spare)).Perm (c.candidates spare)) :
    (c.pruneSparing spare).1.size ≤ c.cap ∨
      ∀ a e, (c.pruneSparing spare).1.entries.get? a = some e → some a = spare := by
  obtain ⟨gone, rest, hord, hentries, hfits⟩ := pruneSparing_cut c spare
  rcases hfits with rfl | hfits
  · -- every candidate was taken, so whatever is left was none
    refine .inr fun a e he => Classical.byContradiction fun hspare => ?_
    rw [hentries] at he
    split at he
    · cases he
    · next hgone =>
      apply hgone
      have hcand : Candidate.mk a e.written (entrySize c.sizes a.key e.record) ∈
          c.candidates spare := h.mem_candidates.mpr ⟨hspare, e, he, rfl, rfl⟩
      rw [List.append_nil] at hord
      exact List.mem_map.mpr ⟨_, hord ▸ hperm.mem_iff.mpr hcand, rfl⟩
  · rw [← h.pruneSparing_exactSize hexact fun cand => hperm.mem_iff.mp]
    exact .inl hfits

end PriceCache

end PriceRelay
