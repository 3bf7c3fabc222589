import Mathlib.Data.List.Basic
import Mathlib.Data.List.Nodup
import PriceRelay.Json.Value
import PriceRelay.Proofs.List
import PriceRelay.Proofs.Text.Numeral
/-!
# Records in JSON

A record is read by the names of its fields. Where an object has some members of these names, each
once, and whatever else among them, the fields are those members: neither their order nor the others
matter.

* `Json.Gives` says what an object gives for some names,
* `Json.fields_of_gives` reads the fields of such an object,
* `Json.integer?_int` reads a whole number back.
-/

namespace PriceRelay.Json

/-- Of the members with some names an object has the given ones, in any order; members of other
names may stand anywhere. -/
def Gives (names : List String) (given : List (String × Json)) (j : Json) : Prop :=
  ∃ ms, j = .obj ms ∧ (ms.filter fun m => m.1 ∈ names).Perm given

theorem members?_obj (ms : List (String × Json)) : (Json.obj ms).members? = some ms := by
  rw [obj, members?, mapM_eq_some_iff, List.map_map]
  rfl

theorem fields_obj (names : List String) (ms : List (String × Json)) :
    fields names (.obj ms) = names.mapM fun name => field name ms := by
  have h := members?_obj ms
  rw [obj] at h ⊢
  rw [fields, h, Option.bind_some]

/-- The members of one name, where no name is repeated. -/
theorem filter_eq_of_nodup {ms : List (String × Json)} (h : (ms.map Prod.fst).Nodup)
    (name : String) :
    (ms.filter fun m => m.1 = name) = ((ms.lookup name).map fun j => (name, j)).toList := by
  induction ms with
  | nil => rfl
  | cons m ms ih =>
    obtain ⟨key, j⟩ := m
    rw [List.map_cons, List.nodup_cons] at h
    by_cases hkey : key = name
    · obtain rfl := hkey
      have hnone : (ms.filter fun m => m.1 = key) = [] := by
        rw [List.filter_eq_nil_iff]
        intro m hm heq
        exact h.1 (List.mem_map.mpr ⟨m, hm, by simpa using heq⟩)
      rw [List.filter_cons_of_pos (by simp), hnone, List.lookup_cons_self]
      rfl
    · have hbeq : (name == key) = false := by simpa using Ne.symm hkey
      rw [List.filter_cons_of_neg (by simpa using hkey), ih h.2, List.lookup_cons, hbeq]

theorem field_of_perm {names : List String} {ms given : List (String × Json)}
    (h : (ms.filter fun m => m.1 ∈ names).Perm given) (hgiven : (given.map Prod.fst).Nodup)
    {name : String} (hname : name ∈ names) : field name ms = some (given.lookup name) := by
  have hsame : (ms.filter fun m => m.1 = name) =
      (ms.filter fun m => m.1 ∈ names).filter fun m => m.1 = name := by
    rw [List.filter_filter]
    refine List.filter_congr fun m _ => ?_
    by_cases hm : m.1 = name
    · simp [hm, hname]
    · simp [hm]
  have hperm := h.filter fun m => m.1 = name
  rw [← hsame, filter_eq_of_nodup hgiven name] at hperm
  rw [field]
  cases hlookup : given.lookup name with
  | none =>
    rw [hlookup] at hperm
    rw [List.perm_nil.mp hperm]
  | some j =>
    rw [hlookup] at hperm
    rw [List.perm_singleton.mp hperm]

/-- **The fields of an object are what it gives for their names.** -/
theorem fields_of_gives {names : List String} {given : List (String × Json)} {j : Json}
    (h : j.Gives names given) (hgiven : (given.map Prod.fst).Nodup) :
    fields names j = some (names.map fun name => given.lookup name) := by
  obtain ⟨ms, rfl, hperm⟩ := h
  rw [fields_obj, mapM_eq_some_iff, List.map_map]
  exact List.map_congr_left fun name hname => field_of_perm hperm hgiven hname

/-! ### Whole numbers -/

/-- **A whole number is read back**, if it fits 64 bits with or without sign. -/
theorem integer?_int {i : Int} (hlow : -(2 ^ 63 : Int) ≤ i) (hhigh : i < 2 ^ 64) :
    (int i).integer? = some i := by
  have hdigits : Text.Numeral.ofDigits 10 (toString i.natAbs).toList = some i.natAbs := by
    rw [Nat.toString_eq_repr, Nat.toList_repr]
    exact Text.Numeral.ofDigits_toDigits _
  simp only [int, integer?, Number.integer?, hdigits, Option.bind_some, Nat.pow_eq,
    decide_eq_true_eq]
  by_cases hneg : i < 0
  · rw [if_pos hneg, if_neg (by omega), if_pos (by omega)]
    congr 1
    omega
  · rw [if_neg hneg, if_pos (by simp only [UInt64.size]; omega)]
    congr 1
    omega

end PriceRelay.Json
