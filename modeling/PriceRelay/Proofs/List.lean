import Mathlib.Data.List.Basic
import Mathlib.Data.List.Nodup
/-!
# Lists

A run is extended at its end, so whatever is found in it stands there or in the run before. Work
under way is a list of which one element changes at a time.

* `concat_eq_append_cons` says where an element of an extended list stands,
* `append_cons_inj_of_notMem_right` that a list can be cut where an element stands last,
* `find?_eq_some_of_nodup` that an element is found by a key that no other one has,
* `find?_reverse_eq_some_iff` says which element is found from the end,
* `mapM_eq_some_iff` and `mapM_eq_ite` say when all of some answers are there,
* `perm_flatMap_set` says what changing one element adds to what the elements give,
* `length_filter_notMem` counts what some elements leave of a list.
-/

namespace PriceRelay

/-- An element of an extended list is the new one, or stands in the list before. -/
theorem concat_eq_append_cons {α : Type} {xs before later : List α} {x y : α} :
    xs ++ [x] = before ++ y :: later ↔
      (later = [] ∧ xs = before ∧ x = y) ∨
        ∃ rest, later = rest ++ [x] ∧ xs = before ++ y :: rest := by
  constructor
  · intro heq
    rcases List.eq_nil_or_concat later with rfl | ⟨rest, last, rfl⟩
    · obtain ⟨hbefore, hlast⟩ := List.append_inj' heq rfl
      exact .inl ⟨rfl, hbefore, List.singleton_inj.mp hlast⟩
    · rw [List.concat_eq_append, ← List.cons_append, ← List.append_assoc] at heq
      obtain ⟨hbefore, hlast⟩ := List.append_inj' heq rfl
      refine .inr ⟨rest, ?_, hbefore⟩
      rw [List.concat_eq_append, List.singleton_inj.mp hlast]
  · rintro (⟨rfl, rfl, rfl⟩ | ⟨rest, rfl, rfl⟩)
    · rfl
    · rw [← List.cons_append, ← List.append_assoc]

variable {α β : Type}

/-- A list is cut in one way where an element stands for the last time. -/
theorem append_cons_inj_of_notMem_right {x : α} {xs ys zs ws : List α} (hys : x ∉ ys)
    (hws : x ∉ ws) (h : xs ++ x :: ys = zs ++ x :: ws) : xs = zs ∧ ys = ws := by
  -- if one front is longer, the element stands once more in the end of the other list
  rcases List.append_eq_append_iff.mp h with ⟨rest, rfl, hrest⟩ | ⟨rest, rfl, hrest⟩
  · cases rest with
    | nil => simpa using hrest
    | cons y rest => simp_all
  · cases rest with
    | nil => simpa [eq_comm] using hrest
    | cons y rest => simp_all

/-- An element is found by its key, if no other one has the same. -/
theorem find?_eq_some_of_nodup [DecidableEq β] {key : α → β} {xs : List α} {x : α}
    (h : (xs.map key).Nodup) (hx : x ∈ xs) : xs.find? (fun y => key y = key x) = some x := by
  have hsome : (xs.find? fun y => key y = key x).isSome :=
    List.find?_isSome.mpr ⟨x, hx, decide_eq_true rfl⟩
  obtain ⟨y, hy⟩ := Option.isSome_iff_exists.mp hsome
  have hkey : key y = key x := by simpa using List.find?_some hy
  rw [hy, List.inj_on_of_nodup_map h (List.mem_of_find?_eq_some hy) hx hkey]

/-- From the end an element is found that no later one is like. -/
theorem find?_reverse_eq_some_iff {p : α → Bool} {xs : List α} {x : α} :
    xs.reverse.find? p = some x ↔
      p x = true ∧ ∃ before after, xs = before ++ x :: after ∧ ∀ y ∈ after, p y = false := by
  rw [List.find?_eq_some_iff_append]
  refine and_congr_right fun _ => ?_
  constructor
  · rintro ⟨after, before, hxs, hafter⟩
    refine ⟨before.reverse, after.reverse, ?_, by simpa using hafter⟩
    rw [← List.reverse_reverse xs, hxs]
    simp
  · rintro ⟨before, after, rfl, hafter⟩
    exact ⟨after.reverse, before.reverse, by simp, by simpa using hafter⟩

/-- All of some answers are there exactly when each of them is. -/
theorem mapM_eq_some_iff {f : α → Option β} {xs : List α} {ys : List β} :
    xs.mapM f = some ys ↔ xs.map f = ys.map some := by
  induction xs generalizing ys with
  | nil => cases ys <;> simp
  | cons x xs ih =>
    simp only [List.mapM_cons, Option.bind_eq_bind, Option.bind_eq_some_iff, ih, Option.pure_def,
      Option.some.injEq]
    constructor
    · rintro ⟨y, hy, ys, hys, rfl⟩
      rw [List.map_cons, List.map_cons, hy, hys]
    · intro h
      cases ys with
      | nil => cases h
      | cons y ys =>
        obtain ⟨hy, hys⟩ := List.cons.inj h
        exact ⟨y, hy, ys, hys, rfl⟩

theorem mapM_eq_ite {f : α → Option β} {xs : List α} :
    xs.mapM f = if ∀ x ∈ xs, (f x).isSome = true then some (xs.filterMap f) else none := by
  induction xs with
  | nil => rfl
  | cons x xs ih =>
    rw [List.mapM_cons, ih]
    cases hx : f x with
    | none => simp [hx]
    | some y =>
      by_cases hxs : ∀ x ∈ xs, (f x).isSome = true
      · have hall : ∀ z ∈ x :: xs, (f z).isSome = true := by simpa [hx] using hxs
        rw [if_pos hxs, if_pos hall, List.filterMap_cons_some hx]
        rfl
      · have hsome : ¬ ∀ z ∈ x :: xs, (f z).isSome = true := by simpa [hx] using hxs
        rw [if_neg hxs, if_neg hsome]
        rfl

theorem set_eq_self {xs : List α} {i : Nat} {x : α} (h : xs[i]? = some x) : xs.set i x = xs := by
  obtain ⟨hi, rfl⟩ := List.getElem?_eq_some_iff.mp h
  exact List.set_getElem_self hi

/-- An element that gave nothing is changed: what the new one gives is added. -/
theorem perm_flatMap_set {f : α → List β} {xs : List α} {i : Nat} {x y : α} (h : xs[i]? = some x)
    (hnil : f x = []) : ((xs.set i y).flatMap f).Perm (xs.flatMap f ++ f y) := by
  induction xs generalizing i with
  | nil => cases h
  | cons z xs ih =>
    cases i with
    | zero =>
      obtain rfl := Option.some.inj h
      rw [List.set_cons_zero, List.flatMap_cons, List.flatMap_cons, hnil, List.nil_append]
      exact List.perm_append_comm
    | succ i =>
      rw [List.set_cons_succ, List.flatMap_cons, List.flatMap_cons, List.append_assoc]
      exact (ih h).append_left _

/-- Those of a list that are not among some of it are as many as are left. -/
theorem length_filter_notMem [DecidableEq α] {xs ys : List α} (hxs : xs.Nodup) (hys : ys.Nodup)
    (hsub : ys ⊆ xs) : (xs.filter fun x => x ∉ ys).length + ys.length = xs.length := by
  have hperm : (xs.filter fun x => x ∈ ys).Perm ys := by
    refine (List.perm_ext_iff_of_nodup (hxs.filter _) hys).mpr fun y => ?_
    rw [List.mem_filter, decide_eq_true_iff]
    exact and_iff_right_of_imp fun hy => hsub hy
  have hsplit := xs.length_eq_length_filter_add fun x => decide (x ∈ ys)
  rw [hperm.length_eq] at hsplit
  simp only [decide_not]
  omega

end PriceRelay
