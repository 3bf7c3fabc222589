import Mathlib.Data.List.Induction
import PriceRelay.Endpoint.Selection
import PriceRelay.Proofs.List
/-!
# The first of the fastest

Going through the probes and keeping the better of the best so far and one more ends with the first
of those that took the least time, or with nothing when no probe is of use.

* `Probe.FirstFastest` says which one that is, `Probe.Chosen.better` that one more comparison keeps
  the choice right,
* `Probe.fastest_eq_some_iff` and `Probe.fastest_eq_none_iff` say what is chosen from a list,
* `Probe.fastestAvoiding_eq_or` says that an address to avoid is avoided if anything else is of use,
  `Probe.fastestAvoiding_eq_ite` among which probes the choice is then,
* `Probe.bestAvoiding_eq_none_iff` and `Probe.mem_of_bestAvoiding` say what is chosen then.
-/

namespace PriceRelay

namespace Probe

variable {α : Type} {probe : α → Probe}

theorem speed_eq_some_iff {p : Probe} {d : Duration} :
    p.speed = some d ↔ p.latency = some d ∧ d ≠ 0 := by
  rw [speed, Option.filter_eq_some_iff, decide_eq_true_iff]

theorem isHealthy_iff {p : Probe} : p.isHealthy = true ↔ ∃ d, p.latency = some d ∧ 0 < d := by
  rw [isHealthy, Option.isSome_iff_exists]
  simp only [speed_eq_some_iff, Nat.pos_iff_ne_zero]

theorem speed_eq_none_iff {p : Probe} : p.speed = none ↔ ¬ p.isHealthy = true := by
  rw [isHealthy, Bool.not_eq_true, Option.isSome_eq_false_iff, Option.isNone_iff_eq_none]

/-- In the list, `x` is of use, whatever is of use before it took longer, and whatever is of use
after it took no less. -/
def FirstFastest (probe : α → Probe) (xs : List α) (x : α) : Prop :=
  ∃ before later d, xs = before ++ x :: later ∧ (probe x).speed = some d ∧
    (∀ y ∈ before, ∀ d', (probe y).speed = some d' → d < d') ∧
    ∀ y ∈ later, ∀ d', (probe y).speed = some d' → d ≤ d'

theorem FirstFastest.mem {xs : List α} {x : α} (h : FirstFastest probe xs x) : x ∈ xs := by
  obtain ⟨before, later, d, rfl, -⟩ := h
  exact List.mem_append_right _ (List.mem_cons_self ..)

theorem FirstFastest.speed_eq_some {xs : List α} {x : α} (h : FirstFastest probe xs x) :
    ∃ d, (probe x).speed = some d := by
  obtain ⟨_, _, d, _, hd, _⟩ := h
  exact ⟨d, hd⟩

/-- Nothing in the list took less time than the first of the fastest. -/
theorem FirstFastest.le {xs : List α} {x y : α} {d d' : Duration} (h : FirstFastest probe xs x)
    (hd : (probe x).speed = some d) (hy : y ∈ xs) (hd' : (probe y).speed = some d') : d ≤ d' := by
  obtain ⟨before, later, d₀, rfl, hd₀, hbefore, hlater⟩ := h
  obtain rfl := Option.some.inj (hd.symm.trans hd₀)
  rcases List.mem_append.mp hy with hy | hy
  · exact Nat.le_of_lt (hbefore y hy d' hd')
  · rcases List.mem_cons.mp hy with rfl | hy
    · exact Nat.le_of_eq (Option.some.inj (hd.symm.trans hd'))
    · exact hlater y hy d' hd'

/-- One more probe is the first of the fastest if all before it took longer; else the one that was
so stays so if the new one took no less. -/
theorem firstFastest_concat {xs : List α} {x y : α} :
    FirstFastest probe (xs ++ [x]) y ↔
      (y = x ∧ ∃ d, (probe x).speed = some d ∧
        ∀ z ∈ xs, ∀ d', (probe z).speed = some d' → d < d') ∨
      (FirstFastest probe xs y ∧
        ∀ d d', (probe y).speed = some d → (probe x).speed = some d' → d ≤ d') := by
  constructor
  · rintro ⟨before, later, d, heq, hd, hbefore, hlater⟩
    rcases concat_eq_append_cons.mp heq with ⟨-, rfl, rfl⟩ | ⟨rest, rfl, rfl⟩
    · exact .inl ⟨rfl, d, hd, hbefore⟩
    · refine .inr ⟨⟨before, rest, d, rfl, hd, hbefore, fun z hz => ?_⟩, fun d₀ d' hd₀ hd' => ?_⟩
      · exact hlater z (List.mem_append_left _ hz)
      · obtain rfl := Option.some.inj (hd.symm.trans hd₀)
        exact hlater x (List.mem_append_right _ (List.mem_singleton_self _)) d' hd'
  · rintro (⟨rfl, d, hd, hxs⟩ | ⟨⟨before, later, d, rfl, hd, hbefore, hlater⟩, hx⟩)
    · exact ⟨xs, [], d, rfl, hd, hxs, by simp⟩
    · refine ⟨before, later ++ [x], d, by simp, hd, hbefore, fun z hz d' hd' => ?_⟩
      rcases List.mem_append.mp hz with hz | hz
      · exact hlater z hz d' hd'
      · rw [List.mem_singleton.mp hz] at hd'
        exact hx d d' hd hd'

/-- Two that are both the first of the fastest are one: at the last probe of the list one of them
would have to take less time than the other and no less. -/
theorem FirstFastest.unique {xs : List α} {x y : α} (hx : FirstFastest probe xs x)
    (hy : FirstFastest probe xs y) : x = y := by
  induction xs using List.reverseRecOn with
  | nil => cases hx.mem
  | append_singleton xs z ih =>
    rcases firstFastest_concat.mp hx with ⟨hxz, d, hd, hlt⟩ | ⟨hx', hle⟩
    · rcases firstFastest_concat.mp hy with ⟨hyz, -⟩ | ⟨hy', hle⟩
      · rw [hxz, hyz]
      · obtain ⟨d', hd'⟩ := hy'.speed_eq_some
        exact absurd (hle d' d hd' hd) (Nat.not_le.mpr (hlt y hy'.mem d' hd'))
    · rcases firstFastest_concat.mp hy with ⟨hyz, d, hd, hlt⟩ | ⟨hy', -⟩
      · obtain ⟨d', hd'⟩ := hx'.speed_eq_some
        exact absurd (hle d' d hd' hd) (Nat.not_le.mpr (hlt x hx'.mem d' hd'))
      · exact ih hx' hy'

/-- The first of the fastest among some of a list, where it stands in the whole of it. -/
theorem FirstFastest.of_filter {p : α → Bool} {xs : List α} {x : α}
    (h : FirstFastest probe (xs.filter p) x) :
    ∃ before later d, xs = before ++ x :: later ∧ p x = true ∧ (probe x).speed = some d ∧
      (∀ y ∈ before, p y = true → ∀ d', (probe y).speed = some d' → d < d') ∧
      ∀ y ∈ later, p y = true → ∀ d', (probe y).speed = some d' → d ≤ d' := by
  obtain ⟨before, later, d, heq, hd, hbefore, hlater⟩ := h
  obtain ⟨xs₁, xs₂, rfl, rfl, hrest⟩ := List.filter_eq_append_iff.mp heq
  obtain ⟨passed, later', rfl, hpassed, hx, rfl⟩ := List.filter_eq_cons_iff.mp hrest
  refine ⟨xs₁ ++ passed, later', d, by rw [List.append_assoc], hx, hd, ?_, ?_⟩
  · intro y hy hpy
    rcases List.mem_append.mp hy with hy | hy
    · exact hbefore y (List.mem_filter.mpr ⟨hy, hpy⟩)
    · exact absurd hpy (hpassed y hy)
  · exact fun y hy hpy => hlater y (List.mem_filter.mpr ⟨hy, hpy⟩)

/-! ### The choice -/

/-- What is to be chosen from a list. -/
def Chosen (probe : α → Probe) (xs : List α) : Option α → Prop
  | none => ∀ x ∈ xs, (probe x).speed = none
  | some x => FirstFastest probe xs x

/-- **One comparison keeps the choice right.** -/
theorem Chosen.better {xs : List α} {best : Option α} (h : Chosen probe xs best) (x : α) :
    Chosen probe (xs ++ [x]) (better probe best x) := by
  rw [Probe.better]
  cases hx : (probe x).speed with
  | none =>
    cases best with
    | none =>
      intro z hz
      rcases List.mem_append.mp hz with hz | hz
      · exact h z hz
      · rw [List.mem_singleton.mp hz, hx]
    | some b =>
      refine firstFastest_concat.mpr (.inr ⟨h, fun d d' _ hd' => ?_⟩)
      rw [hx] at hd'
      cases hd'
  | some d =>
    cases best with
    | none =>
      refine firstFastest_concat.mpr (.inl ⟨rfl, d, hx, fun z hz d' hd' => ?_⟩)
      rw [h z hz] at hd'
      cases hd'
    | some b =>
      have hfirst : FirstFastest probe xs b := h
      obtain ⟨db, hdb⟩ := hfirst.speed_eq_some
      -- at a tie the earlier one is kept, which is what makes it the first
      simp only [hdb, Option.getD_some]
      split
      · next hle =>
        refine firstFastest_concat.mpr (.inr ⟨hfirst, fun d₁ d₂ h₁ h₂ => ?_⟩)
        rw [← Option.some.inj (hdb.symm.trans h₁), ← Option.some.inj (hx.symm.trans h₂)]
        exact hle
      · next hgt =>
        refine firstFastest_concat.mpr (.inl ⟨rfl, d, hx, fun z hz d' hd' => ?_⟩)
        exact Nat.lt_of_lt_of_le (Nat.not_le.mp hgt) (hfirst.le hdb hz hd')

theorem chosen_fastest (probe : α → Probe) (xs : List α) :
    Chosen probe xs (fastest probe xs) := by
  induction xs using List.reverseRecOn with
  | nil => intro x hx; cases hx
  | append_singleton xs x ih =>
    rw [fastest, List.foldl_append]
    exact ih.better x

/-- **Nothing is chosen exactly when nothing is of use.** -/
theorem fastest_eq_none_iff {xs : List α} :
    fastest probe xs = none ↔ ∀ x ∈ xs, (probe x).speed = none := by
  have hchosen := chosen_fastest probe xs
  cases hf : fastest probe xs with
  | none =>
    rw [hf] at hchosen
    exact ⟨fun _ => hchosen, fun _ => rfl⟩
  | some y =>
    rw [hf] at hchosen
    have hfirst : FirstFastest probe xs y := hchosen
    constructor
    · intro h
      cases h
    · intro h
      obtain ⟨d, hd⟩ := hfirst.speed_eq_some
      rw [h y hfirst.mem] at hd
      cases hd

/-- **The first of the fastest is chosen.** -/
theorem fastest_eq_some_iff {xs : List α} {y : α} :
    fastest probe xs = some y ↔ FirstFastest probe xs y := by
  have hchosen := chosen_fastest probe xs
  constructor
  · intro hf
    rw [hf] at hchosen
    exact hchosen
  · intro hy
    cases hf : fastest probe xs with
    | none =>
      obtain ⟨d, hd⟩ := hy.speed_eq_some
      rw [fastest_eq_none_iff.mp hf y hy.mem] at hd
      cases hd
    | some z =>
      rw [hf] at hchosen
      have hz : FirstFastest probe xs z := hchosen
      rw [hz.unique hy]

theorem better_map (best : Option α) (x : α) :
    better id (best.map probe) (probe x) = (better probe best x).map probe := by
  simp only [better, id]
  cases (probe x).speed with
  | none => rfl
  | some d =>
    cases best with
    | none => rfl
    | some b =>
      simp only [Option.map_some]
      split <;> rfl

/-- It does not matter whether the probes are chosen from, or whatever carries them. -/
theorem fastest_map (probe : α → Probe) (xs : List α) :
    fastest id (xs.map probe) = (fastest probe xs).map probe := by
  have hhom : List.foldl (fun best x => better id best (probe x)) (Option.map probe none) xs =
      (List.foldl (better probe) none xs).map probe :=
    List.foldl_hom (Option.map probe) better_map
  rw [fastest, fastest, List.foldl_map]
  exact hhom

/-! ### An address to avoid -/

/-- The fastest at another address comes first, and any will do if there is none. Nothing is avoided
when there is nothing to avoid. -/
theorem fastestAvoiding_eq_or (probe : α → Probe) (avoid : Option String) (xs : List α) :
    fastestAvoiding probe avoid xs =
      (fastest probe (xs.filter fun x => some (probe x).url ≠ avoid)).or (fastest probe xs) := by
  cases avoid with
  | none =>
    have hall : xs.filter (fun x => some (probe x).url ≠ none) = xs :=
      List.filter_eq_self.mpr (by simp)
    rw [hall, Option.or_self]
    rfl
  | some url => simp [fastestAvoiding]

theorem bestAvoiding_eq_or (avoid : Option String) (ps : List Probe) :
    bestAvoiding avoid ps =
      (fastest id (ps.filter fun p => some p.url ≠ avoid)).or (fastest id ps) :=
  fastestAvoiding_eq_or id avoid ps

/-- The choice is among the probes at other addresses if one of them is of use, and else among
all. -/
theorem fastestAvoiding_eq_ite (probe : α → Probe) (avoid : Option String) (xs : List α) :
    fastestAvoiding probe avoid xs =
      if ∃ x ∈ xs, some (probe x).url ≠ avoid ∧ (probe x).isHealthy = true then
        fastest probe (xs.filter fun x => some (probe x).url ≠ avoid)
      else fastest probe xs := by
  have hnone : fastest probe (xs.filter fun x => some (probe x).url ≠ avoid) = none ↔
      ¬ ∃ x ∈ xs, some (probe x).url ≠ avoid ∧ (probe x).isHealthy = true := by
    rw [fastest_eq_none_iff]
    simp only [List.mem_filter, decide_eq_true_eq, speed_eq_none_iff, not_exists, not_and, and_imp]
  rw [fastestAvoiding_eq_or]
  split
  · next hother =>
    obtain ⟨x, hx⟩ := Option.ne_none_iff_exists'.mp fun h => hnone.mp h hother
    rw [hx, Option.some_or]
  · next hother => rw [hnone.mpr hother, Option.none_or]

theorem bestAvoiding_map (probe : α → Probe) (avoid : Option String) (xs : List α) :
    bestAvoiding avoid (xs.map probe) = (fastestAvoiding probe avoid xs).map probe := by
  rw [bestAvoiding_eq_or, fastestAvoiding_eq_or, Option.map_or, ← fastest_map, ← fastest_map,
    List.filter_map]
  rfl

/-- **Nothing is chosen exactly when nothing is of use**, whatever is avoided. -/
theorem bestAvoiding_eq_none_iff {avoid : Option String} {ps : List Probe} :
    bestAvoiding avoid ps = none ↔ ∀ p ∈ ps, p.speed = none := by
  rw [bestAvoiding_eq_or, Option.or_eq_none_iff, fastest_eq_none_iff, fastest_eq_none_iff]
  constructor
  · exact fun h => h.2
  · exact fun h => ⟨fun p hp => h p (List.mem_filter.mp hp).1, h⟩

/-- What is chosen was probed, and is of use. -/
theorem mem_of_bestAvoiding {avoid : Option String} {ps : List Probe} {p : Probe}
    (h : bestAvoiding avoid ps = some p) : p ∈ ps ∧ ∃ d, p.speed = some d := by
  rw [bestAvoiding_eq_or] at h
  rcases Option.or_eq_some_iff.mp h with h | ⟨-, h⟩
  · have hfirst := fastest_eq_some_iff.mp h
    exact ⟨(List.mem_filter.mp hfirst.mem).1, hfirst.speed_eq_some⟩
  · have hfirst := fastest_eq_some_iff.mp h
    exact ⟨hfirst.mem, hfirst.speed_eq_some⟩

end Probe

end PriceRelay
