import PriceRelay.Size
/-!
# What is remembered of kinds does not show

The registry remembers which resolution applies to a kind. Measuring adds to what is remembered, and
no later size depends on it: two registries that hold the same functions and resolve every kind
alike stay so under everything that is done to both.

* `SizeRegistry.Alike` is that relation,
* `SizeRegistry.alike_remember` says that measuring leaves a registry alike,
* `SizeRegistry.Alike.weigh` that alike registries measure alike.
-/

namespace PriceRelay

namespace SizeRegistry

variable {α : Type}

/-! ### Lists of pairs -/

theorem lookup_without (k k' : Record.Kind) (l : List (Record.Kind × α)) :
    lookup k (without k' l) = if k' = k then none else lookup k l := by
  induction l with
  | nil => simp [without, lookup]
  | cons p l ih =>
    rw [without] at ih ⊢
    by_cases hp : p.1 = k'
    · rw [List.filter_cons_of_neg (by simp [hp]), ih, lookup]
      split
      · rfl
      · next hne => rw [if_neg (by rw [hp]; exact hne)]
    · rw [List.filter_cons_of_pos (by simp [hp]), lookup, lookup, ih]
      split
      · next he =>
        rw [if_neg]
        rintro rfl
        exact hp he
      · rfl

theorem lookup_cons_without (k k' : Record.Kind) (a : α) (l : List (Record.Kind × α)) :
    lookup k ((k', a) :: without k' l) = if k' = k then some a else lookup k l := by
  rw [lookup, lookup_without]
  split <;> rfl

/-! ### Look-ups -/

/-- A look-up gives what is remembered, and else what is registered. -/
theorem resolve_fst (s : SizeRegistry) (k : Record.Kind) :
    (s.resolve k).1 = (s.peek k).getD (s.derive k) := by
  rw [resolve, settle]
  cases s.peek k <;> rfl

theorem peek_resolve (s : SizeRegistry) (k k' : Record.Kind) :
    (s.resolve k).2.peek k' = if k = k' then some (s.resolve k).1 else s.peek k' := by
  cases hp : s.peek k with
  | some r =>
    simp only [resolve, hp]
    split
    · next he => rw [← he, hp]
    · rfl
  | none =>
    simp only [resolve, settle, hp]
    rw [peek, lookup]
    rfl

theorem registered_resolve (s : SizeRegistry) (k : Record.Kind) :
    (s.resolve k).2.registered = s.registered := by
  rw [resolve, settle]
  cases s.peek k <;> rfl

theorem derive_congr {s t : SizeRegistry} {k : Record.Kind}
    (h : lookup k s.registered = lookup k t.registered) : s.derive k = t.derive k := by
  simp only [derive, h]

/-- A function just registered is found for its kind, and the other kinds are as before. -/
theorem resolve_register_fst (s : SizeRegistry) (k k' : Record.Kind) (f : SizeFn) :
    ((s.register k f).resolve k').1 = if k = k' then .registered f else (s.resolve k').1 := by
  have hreg : lookup k' (s.register k f).registered =
      if k = k' then some f else lookup k' s.registered := lookup_cons_without k' k f _
  have hpeek : (s.register k f).peek k' = if k = k' then none else s.peek k' :=
    lookup_without k' k _
  rw [resolve_fst, hpeek]
  by_cases he : k = k'
  · rw [if_pos he, if_pos he, Option.getD_none]
    rw [if_pos he] at hreg
    simp only [derive, hreg]
  · rw [if_neg he] at hreg ⊢
    rw [if_neg he, resolve_fst, derive_congr hreg]

/-! ### Alike registries -/

/-- The registries hold the same functions, and a look-up of any kind gives the same in both. -/
structure Alike (s t : SizeRegistry) : Prop where
  /-- the functions -/
  registered : ∀ k, lookup k s.registered = lookup k t.registered
  /-- the look-ups -/
  resolved : ∀ k, (s.resolve k).1 = (t.resolve k).1

theorem Alike.refl (s : SizeRegistry) : s.Alike s := ⟨fun _ => rfl, fun _ => rfl⟩

theorem Alike.symm {s t : SizeRegistry} (h : s.Alike t) : t.Alike s :=
  ⟨fun k => (h.registered k).symm, fun k => (h.resolved k).symm⟩

theorem Alike.trans {s t u : SizeRegistry} (h : s.Alike t) (h' : t.Alike u) : s.Alike u :=
  ⟨fun k => (h.registered k).trans (h'.registered k),
    fun k => (h.resolved k).trans (h'.resolved k)⟩

theorem Alike.weigh {s t : SizeRegistry} (h : s.Alike t) (r : Record) : s.weigh r = t.weigh r := by
  rw [SizeRegistry.weigh, SizeRegistry.weigh, h.resolved]

/-- **Measuring does not show**: whatever it makes the registry remember, every kind is resolved as
before. -/
theorem alike_remember (s : SizeRegistry) (r : Record) : s.Alike (s.remember r) := by
  rw [remember]
  cases r.ownSize with
  | some size => exact Alike.refl s
  | none =>
    refine ⟨fun k => by rw [registered_resolve], fun k => ?_⟩
    -- what is newly remembered is what would have been derived anyway
    have hderive : (s.resolve r.kind).2.derive k = s.derive k :=
      derive_congr (by rw [registered_resolve])
    rw [resolve_fst (s.resolve r.kind).2, peek_resolve, hderive]
    split
    · next he => rw [he, Option.getD_some]
    · exact resolve_fst s k

theorem alike_rememberAll (rs : List Record) (s : SizeRegistry) : s.Alike (s.rememberAll rs) := by
  induction rs generalizing s with
  | nil => exact Alike.refl s
  | cons r rs ih => exact (alike_remember s r).trans (ih (s.remember r))

theorem Alike.register {s t : SizeRegistry} (h : s.Alike t) (k : Record.Kind) (f : SizeFn) :
    (s.register k f).Alike (t.register k f) where
  registered k' := by
    rw [SizeRegistry.register, SizeRegistry.register, lookup_cons_without, lookup_cons_without,
      h.registered]
  resolved k' := by rw [resolve_register_fst, resolve_register_fst, h.resolved]

end SizeRegistry

end PriceRelay
