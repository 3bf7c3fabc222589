/-!
# Ordered tables

A table pairs keys with values, each key at most once, in ascending order of the keys. Everything
the relay keeps by key is such a table, so whatever it lists comes out in one settled order.

* `Table.insert` puts a pair in its place, over the old value if there is one,
* `Table.erase` removes a key,
* `Table.get?` reads a key, and is what the two are stated in terms of.
-/

namespace PriceRelay

/-- Pairs of keys and values; built by `insert` they are in ascending order of the keys. -/
structure Table (κ α : Type) where
  /-- the pairs, in order -/
  toList : List (κ × α) := []
deriving DecidableEq, Repr

namespace Table

variable {κ α β : Type}

instance : Inhabited (Table κ α) := ⟨⟨[]⟩⟩

/-- The table without a pair. -/
def empty : Table κ α := ⟨[]⟩

/-- The keys, in order. -/
def keys (t : Table κ α) : List κ := t.toList.map Prod.fst

/-- The values, in the order of their keys. -/
def values (t : Table κ α) : List α := t.toList.map Prod.snd

/-- How many pairs there are. -/
def size (t : Table κ α) : Nat := t.toList.length

/-- The same keys with each value mapped. -/
def map (f : α → β) (t : Table κ α) : Table κ β := ⟨t.toList.map fun p => (p.1, f p.2)⟩

section Access

variable [DecidableEq κ]

/-- The value of `k`, read off a list of pairs. -/
def find? (k : κ) : List (κ × α) → Option α
  | [] => none
  | (k', v) :: rest => if k' = k then some v else find? k rest

/-- The value of `k`. -/
def get? (t : Table κ α) (k : κ) : Option α := find? k t.toList

/-- Whether `k` has a value. -/
def contains (t : Table κ α) (k : κ) : Bool := (t.get? k).isSome

/-- The table without `k`. -/
def erase (t : Table κ α) (k : κ) : Table κ α := ⟨t.toList.filter fun p => p.1 ≠ k⟩

variable [LT κ] [DecidableLT κ]

/-- Put a pair before the first larger key, or over the pair of the same key. -/
def place (k : κ) (v : α) : List (κ × α) → List (κ × α)
  | [] => [(k, v)]
  | (k', v') :: rest =>
    if k' = k then (k, v) :: rest
    else if k < k' then (k, v) :: (k', v') :: rest
    else (k', v') :: place k v rest

/-- The table in which `k` has the value `v`. -/
def insert (t : Table κ α) (k : κ) (v : α) : Table κ α := ⟨place k v t.toList⟩

/-- The table of a list of pairs; of two pairs with one key the later counts. -/
def ofList (pairs : List (κ × α)) : Table κ α :=
  pairs.foldl (fun t p => t.insert p.1 p.2) empty

end Access

/-! ### What the operations do to a look-up -/

variable [DecidableEq κ]

theorem find?_filter_ne (k k' : κ) (l : List (κ × α)) :
    find? k (l.filter fun p => p.1 ≠ k') = if k' = k then none else find? k l := by
  induction l with
  | nil => simp [find?]
  | cons p l ih => by_cases hp : p.1 = k' <;> by_cases hk : p.1 = k <;> grind [find?]

@[simp] theorem get?_erase (t : Table κ α) (k k' : κ) :
    (t.erase k').get? k = if k' = k then none else t.get? k := find?_filter_ne k k' t.toList

@[simp] theorem get?_empty (k : κ) : (empty : Table κ α).get? k = none := rfl

variable [LT κ] [DecidableLT κ]

theorem find?_place (k k' : κ) (v : α) (l : List (κ × α)) :
    find? k (place k' v l) = if k' = k then some v else find? k l := by
  induction l with
  | nil => simp [place, find?]
  | cons p l ih =>
    obtain ⟨a, w⟩ := p
    by_cases h : a = k'
    · subst h; by_cases hk : a = k <;> simp [place, find?, hk]
    · by_cases hlt : k' < a <;> by_cases hk : k' = k <;> by_cases ha : a = k <;>
        simp_all [place, find?]

@[simp] theorem get?_insert (t : Table κ α) (k k' : κ) (v : α) :
    (t.insert k' v).get? k = if k' = k then some v else t.get? k := find?_place k k' v t.toList

end Table

end PriceRelay
