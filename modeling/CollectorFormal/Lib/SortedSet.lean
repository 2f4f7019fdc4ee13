import Mathlib.Data.List.Dedup
import Mathlib.Data.List.Destutter
import Mathlib.Data.List.Sort

/-! Sets as sorted lists without repetition. -/

namespace CollectorFormal.Lib

open List

variable {α : Type} [DecidableEq α] (r : α → α → Prop) [DecidableRel r]

/-- The elements, sorted, and of equal neighbours only the first. -/
def sortedSet (items : List α) : List α := (items.insertionSort r).destutter (· ≠ ·)

variable {r} [Std.Total r] [IsTrans α r] [Std.Antisymm r] {items items' : List α}

theorem sortedSet_eq_dedup : sortedSet r items = (items.insertionSort r).dedup :=
  (pairwise_insertionSort r items).destutter_eq_dedup

theorem mem_sortedSet {a : α} : a ∈ sortedSet r items ↔ a ∈ items := by
  rw [sortedSet_eq_dedup, mem_dedup, mem_insertionSort]

theorem sortedSet_nodup : (sortedSet r items).Nodup := by
  rw [sortedSet_eq_dedup]
  exact nodup_dedup _

omit [Std.Antisymm r] in
theorem sortedSet_sorted : (sortedSet r items).Pairwise r :=
  (pairwise_insertionSort r items).sublist (destutter_sublist _ _)

theorem sortedSet_eq_iff : sortedSet r items = sortedSet r items' ↔ ∀ a, a ∈ items ↔ a ∈ items' := by
  constructor
  · intro same a
    rw [← @mem_sortedSet _ _ r, same, mem_sortedSet]
  · intro same
    have perm : (sortedSet r items).Perm (sortedSet r items') := by
      rw [perm_ext_iff_of_nodup sortedSet_nodup sortedSet_nodup]
      intro a
      rw [mem_sortedSet, mem_sortedSet, same]
    exact perm.eq_of_pairwise' sortedSet_sorted sortedSet_sorted

end CollectorFormal.Lib
