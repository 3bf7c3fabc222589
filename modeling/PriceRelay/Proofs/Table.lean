import Mathlib.Data.List.Induction
import PriceRelay.Proofs.List
import PriceRelay.Table
/-!
# Tables in order

`Table.insert` puts a pair in its place, so a table built by it has its keys in strictly ascending
order. In such a table a pair is in the list exactly when a look-up finds it.

* `Table.Sorted` is the order of the keys, which `insert` and `erase` keep,
* `Table.Sorted.mem_toList` relates the list to the look-ups,
* `Table.Sorted.ext` says that tables with the same look-ups are the same,
* `Table.get?_ofList` looks a key up in the table of some pairs,
* `Table.Sorted.size_insert` and `Table.Sorted.size_erase` count the pairs.
-/

namespace PriceRelay

namespace Table

variable {κ α : Type}

theorem length_keys (t : Table κ α) : t.keys.length = t.size := List.length_map _

@[simp] theorem get?_map [DecidableEq κ] {β : Type} (t : Table κ α) (f : α → β) (k : κ) :
    (t.map f).get? k = (t.get? k).map f := by
  obtain ⟨pairs⟩ := t
  change find? k (pairs.map fun p => (p.1, f p.2)) = (find? k pairs).map f
  induction pairs with
  | nil => rfl
  | cons p pairs ih =>
    rw [List.map_cons, find?, find?, ih]
    split <;> rfl

variable [LT κ]

/-- The keys are in strictly ascending order. -/
def Sorted (t : Table κ α) : Prop := t.toList.Pairwise fun p q => p.1 < q.1

theorem sorted_empty : (empty : Table κ α).Sorted := List.Pairwise.nil

/-- The keys are what they were. -/
theorem Sorted.map {β : Type} {t : Table κ α} (h : t.Sorted) (f : α → β) : (t.map f).Sorted :=
  List.pairwise_map.mpr h

theorem Sorted.nodup_keys [Std.Irrefl (α := κ) (· < ·)] {t : Table κ α} (h : t.Sorted) :
    t.keys.Nodup := by
  apply List.pairwise_map.mpr
  refine h.imp fun hlt heq => ?_
  rw [heq] at hlt
  exact Std.Irrefl.irrefl _ hlt

variable [DecidableEq κ]

theorem Sorted.erase {t : Table κ α} (h : t.Sorted) (k : κ) : (t.erase k).Sorted :=
  List.Pairwise.filter _ h

/-- Whoever compares with the old keys and the new one compares with all keys after `place`. -/
theorem forall_fst_place [DecidableLT κ] {k : κ} {v : α} {P : κ → Prop} (hk : P k) :
    ∀ {l : List (κ × α)}, (∀ p ∈ l, P p.1) → ∀ p ∈ place k v l, P p.1 := by
  intro l
  induction l with
  | nil => intro _ p hp; rw [List.mem_singleton.mp hp]; exact hk
  | cons q l ih =>
    obtain ⟨k', v'⟩ := q
    intro hl p hp
    rw [place] at hp
    split at hp
    · rcases List.mem_cons.mp hp with rfl | hp
      · exact hk
      · exact hl p (List.mem_cons_of_mem _ hp)
    · split at hp
      · rcases List.mem_cons.mp hp with rfl | hp
        · exact hk
        · exact hl p hp
      · rcases List.mem_cons.mp hp with rfl | hp
        · exact hl _ (List.mem_cons_self ..)
        · exact ih (fun q hq => hl q (List.mem_cons_of_mem _ hq)) p hp

theorem pairwise_place [DecidableLT κ] [Trans (α := κ) (· < ·) (· < ·) (· < ·)]
    [Std.Trichotomous (α := κ) (· < ·)] (k : κ) (v : α) :
    ∀ {l : List (κ × α)}, l.Pairwise (fun p q => p.1 < q.1) →
      (place k v l).Pairwise fun p q => p.1 < q.1 := by
  intro l
  induction l with
  | nil => intro _; exact List.pairwise_singleton _ _
  | cons q l ih =>
    obtain ⟨k', v'⟩ := q
    intro h
    obtain ⟨hhd, htl⟩ := List.pairwise_cons.mp h
    rw [place]
    split
    · next he => exact List.pairwise_cons.mpr ⟨fun p hp => he ▸ hhd p hp, htl⟩
    · next hne =>
      split
      · next hlt =>
        refine List.pairwise_cons.mpr ⟨fun p hp => ?_, h⟩
        rcases List.mem_cons.mp hp with rfl | hp
        · exact hlt
        · exact Trans.trans hlt (hhd p hp)
      · next hge =>
        have hlt : k' < k := by
          apply Classical.byContradiction
          intro hn
          exact hne (Std.Trichotomous.trichotomous (r := (· < · : κ → κ → Prop)) k' k hn hge)
        exact List.pairwise_cons.mpr ⟨forall_fst_place hlt hhd, ih htl⟩

theorem Sorted.insert [DecidableLT κ] [Trans (α := κ) (· < ·) (· < ·) (· < ·)]
    [Std.Trichotomous (α := κ) (· < ·)] {t : Table κ α} (h : t.Sorted) (k : κ) (v : α) :
    (t.insert k v).Sorted :=
  pairwise_place k v h

theorem ofList_concat [DecidableLT κ] (pairs : List (κ × α)) (p : κ × α) :
    ofList (pairs ++ [p]) = (ofList pairs).insert p.1 p.2 :=
  List.foldl_concat ..

theorem sorted_ofList [DecidableLT κ] [Trans (α := κ) (· < ·) (· < ·) (· < ·)]
    [Std.Trichotomous (α := κ) (· < ·)] (pairs : List (κ × α)) : (ofList pairs).Sorted := by
  induction pairs using List.reverseRecOn with
  | nil => exact sorted_empty
  | append_singleton pairs p ih =>
    rw [ofList_concat]
    exact ih.insert p.1 p.2

/-- Of the pairs with one key the last counts. -/
theorem get?_ofList [DecidableLT κ] (pairs : List (κ × α)) (k : κ) :
    (ofList pairs).get? k = (pairs.reverse.find? fun p => p.1 = k).map Prod.snd := by
  induction pairs using List.reverseRecOn with
  | nil => rfl
  | append_singleton pairs p ih =>
    rw [ofList_concat, get?_insert, List.reverse_concat, List.find?_cons, ih]
    by_cases hk : p.1 = k
    · rw [if_pos hk, decide_eq_true hk]
      rfl
    · rw [if_neg hk, decide_eq_false hk]

variable [Std.Irrefl (α := κ) (· < ·)]

theorem mem_iff_find? {k : κ} {v : α} :
    ∀ {l : List (κ × α)}, l.Pairwise (fun p q => p.1 < q.1) →
      ((k, v) ∈ l ↔ find? k l = some v) := by
  intro l
  induction l with
  | nil => intro _; simp [find?]
  | cons q l ih =>
    obtain ⟨k', v'⟩ := q
    intro h
    obtain ⟨hhd, htl⟩ := List.pairwise_cons.mp h
    rw [find?, List.mem_cons]
    split
    · next he =>
      subst he
      have hnot : (k', v) ∉ l := fun hm => Std.Irrefl.irrefl k' (hhd _ hm)
      simp [hnot, eq_comm]
    · next hne =>
      have hfst : ¬ ((k, v) = (k', v')) := fun he => hne (congrArg Prod.fst he).symm
      simp only [hfst, false_or]
      exact ih htl

/-- **A pair is in the list exactly when a look-up finds it.** -/
theorem Sorted.mem_toList {t : Table κ α} (h : t.Sorted) {k : κ} {v : α} :
    (k, v) ∈ t.toList ↔ t.get? k = some v :=
  mem_iff_find? h

/-- **Two tables in order are the same if their look-ups are.** -/
theorem Sorted.ext [Trans (α := κ) (· < ·) (· < ·) (· < ·)] {t t' : Table κ α} (h : t.Sorted)
    (h' : t'.Sorted) (hsame : ∀ k, t.get? k = t'.get? k) : t = t' := by
  have hperm : t.toList.Perm t'.toList := by
    refine (List.perm_ext_iff_of_nodup h.nodup_keys.of_map h'.nodup_keys.of_map).mpr ?_
    rintro ⟨k, v⟩
    rw [h.mem_toList, h'.mem_toList, hsame]
  have hlist : t.toList = t'.toList := by
    refine hperm.eq_of_pairwise (fun p q _ _ hpq hqp => ?_) h h'
    exact absurd (Trans.trans hpq hqp) (Std.Irrefl.irrefl p.1)
  obtain ⟨pairs⟩ := t
  exact congrArg Table.mk hlist

/-! ### How many pairs there are -/

theorem Sorted.mem_keys {t : Table κ α} (h : t.Sorted) {k : κ} :
    k ∈ t.keys ↔ ∃ v, t.get? k = some v := by
  rw [keys, List.mem_map]
  constructor
  · rintro ⟨⟨k, v⟩, hmem, rfl⟩
    exact ⟨v, h.mem_toList.mp hmem⟩
  · rintro ⟨v, hv⟩
    exact ⟨(k, v), h.mem_toList.mpr hv, rfl⟩

/-- There is one pair less, if there was one to erase. -/
theorem Sorted.size_erase {t : Table κ α} (h : t.Sorted) (k : κ) :
    (t.erase k).size + (if t.contains k then 1 else 0) = t.size := by
  have hkeys : (t.erase k).keys = t.keys.filter fun k' => k' ∉ [k] := by
    rw [keys, keys, List.filter_map]
    exact congrArg _ (List.filter_congr fun p _ => by simp)
  rw [← length_keys, ← length_keys, hkeys]
  split
  · next hk =>
    have hmem : k ∈ t.keys := h.mem_keys.mpr (Option.isSome_iff_exists.mp hk)
    exact length_filter_notMem h.nodup_keys (List.nodup_singleton k) (by simpa using hmem)
  · next hk =>
    have hnot : k ∉ t.keys := fun hmem => hk (Option.isSome_iff_exists.mpr (h.mem_keys.mp hmem))
    rw [List.filter_eq_self.mpr fun k' hk' => by
      simpa using fun heq : k' = k => hnot (heq ▸ hk')]
    rfl

theorem Sorted.size_insert [DecidableLT κ] [Trans (α := κ) (· < ·) (· < ·) (· < ·)]
    [Std.Trichotomous (α := κ) (· < ·)] {t : Table κ α} (h : t.Sorted) (k : κ) (v : α) :
    (t.insert k v).size = (t.erase k).size + 1 := by
  have hins := h.insert k v
  have hera := h.erase k
  have hnot : k ∉ (t.erase k).keys := fun hmem => by
    obtain ⟨w, hw⟩ := hera.mem_keys.mp hmem
    rw [get?_erase, if_pos rfl] at hw
    cases hw
  have hperm : (t.insert k v).keys.Perm (k :: (t.erase k).keys) := by
    refine (List.perm_ext_iff_of_nodup hins.nodup_keys
      (List.nodup_cons.mpr ⟨hnot, hera.nodup_keys⟩)).mpr fun k' => ?_
    simp only [List.mem_cons, hins.mem_keys, hera.mem_keys, get?_insert, get?_erase]
    by_cases hk : k = k'
    · simp [hk]
    · simp [hk, Ne.symm hk]
  rw [← length_keys, ← length_keys, hperm.length_eq, List.length_cons]

end Table

end PriceRelay
