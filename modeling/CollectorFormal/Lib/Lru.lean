import Mathlib.Data.List.Basic

/-! A cache of bounded size that drops what was least recently used. -/

namespace CollectorFormal.Lib

open List

/-- The operations on the keys with their values, most recently used first. Values that are dropped are returned. -/
class Lru (K V : Type) where
  get : K → List (K × V) → Option (V × List (K × V))
  /-- For a new key. -/
  add : Nat → K → V → List (K × V) → List (K × V) × List V
  remove : K → List (K × V) → List (K × V) × List V
  get_eq_none_iff : ∀ {key cache}, get key cache = none ↔ key ∉ cache.map Prod.fst
  get_some : ∀ {key value cache rest}, get key cache = some (value, rest) → (key, value) ∈ cache ∧ rest ⊆ cache
  add_room : ∀ {size cache} key value, cache.length < size → add size key value cache = ((key, value) :: cache, [])
  add_full : ∀ {size cache value rest last} key, size ≤ cache.length → value :: cache.map Prod.snd = rest ++ [last] →
    (add size key value cache).1.map Prod.snd = rest ∧ (add size key value cache).2 = [last]
  add_subset : ∀ {size key value cache}, (add size key value cache).1 ⊆ (key, value) :: cache
  remove_subset : ∀ {key cache}, (remove key cache).1 ⊆ cache

instance {K V : Type} [DecidableEq K] : Lru K V where
  get key cache := (cache.find? (·.1 = key)).map fun entry => (entry.2, entry :: cache.filter (·.1 ≠ key))
  add size key value cache :=
    if cache.length + 1 > size then
      (((key, value) :: cache).dropLast, ((key, value) :: cache).getLast?.toList.map Prod.snd)
    else ((key, value) :: cache, [])
  remove key cache := (cache.filter (·.1 ≠ key), (cache.find? (·.1 = key)).toList.map Prod.snd)
  get_eq_none_iff := by
    simp only [Option.map_eq_none_iff, find?_eq_none, decide_eq_true_eq, mem_map, not_exists, not_and, implies_true]
  get_some := by
    intro key value cache rest found
    obtain ⟨entry, first, same⟩ := Option.map_eq_some_iff.mp found
    obtain ⟨rfl, rfl⟩ := Prod.mk.inj same
    obtain rfl : entry.1 = key := by simpa using find?_some first
    have member := mem_of_find?_eq_some first
    exact ⟨member, cons_subset.mpr ⟨member, filter_subset_self cache⟩⟩
  add_room key value room := if_neg (Nat.not_lt.mpr room)
  add_full := by
    intro size cache value rest last key full values
    have all : ((key, value) :: cache).map Prod.snd = rest ++ [last] := values
    rw [if_pos (Nat.lt_succ_of_le full), map_dropLast, ← Option.toList_map, ← getLast?_map, all]
    simp
  add_subset := by
    intro size key value cache
    split
    · exact dropLast_subset _
    · exact Subset.refl _
  remove_subset := mem_of_mem_filter

end CollectorFormal.Lib
