import Mathlib.Data.List.Perm.Basic

/-! Lists whose elements can be paired off, whatever the order of the second. -/

namespace CollectorFormal.Lib

open List

variable {α β γ : Type} {related : α → β → Prop} {first : List α} {second : List β}

def Pairs (related : α → β → Prop) : List α → List β → Prop
  | [], others => others = []
  | element :: rest, others => ∃ front other back,
      others = front ++ other :: back ∧ related element other ∧ Pairs related rest (front ++ back)

section
variable (pairs : Pairs related first second)
include pairs

theorem Pairs.reordered : ∃ ordered, List.Forall₂ related first ordered ∧ ordered.Perm second := by
  induction first generalizing second with
  | nil =>
    exact ⟨[], .nil, by rw [pairs]⟩
  | cons element rest ih =>
    rcases pairs with ⟨front, other, back, rfl, here, later⟩
    rcases ih later with ⟨ordered, each, perm⟩
    exact ⟨other :: ordered, .cons here each, (perm.cons other).trans perm_middle.symm⟩

theorem Pairs.length_eq : first.length = second.length := by
  rcases pairs.reordered with ⟨ordered, each, perm⟩
  rw [each.length_eq, perm.length_eq]

theorem Pairs.mem {element : α} (member : element ∈ first) : ∃ other ∈ second, related element other := by
  induction first generalizing second with
  | nil => cases member
  | cons head rest ih =>
    rcases pairs with ⟨front, other, back, rfl, here, later⟩
    rcases mem_cons.mp member with rfl | member
    · exact ⟨other, mem_append_right _ mem_cons_self, here⟩
    · rcases ih later member with ⟨other', listed, related'⟩
      refine ⟨other', ?_, related'⟩
      rw [mem_append, mem_cons]
      exact (mem_append.mp listed).imp_right .inr

theorem Pairs.mem_right {other : β} (member : other ∈ second) : ∃ element ∈ first, related element other := by
  induction first generalizing second with
  | nil =>
    rw [pairs] at member
    cases member
  | cons head rest ih =>
    rcases pairs with ⟨front, other', back, rfl, here, later⟩
    rcases mem_cons.mp (perm_middle.mem_iff.mp member) with rfl | member
    · exact ⟨head, mem_cons_self, here⟩
    · rcases ih later member with ⟨element, listed, related'⟩
      exact ⟨element, mem_cons_of_mem _ listed, related'⟩

theorem Pairs.map_perm {f : α → γ} {g : β → γ} (agree : ∀ element other, related element other → f element = g other) :
    (first.map f).Perm (second.map g) := by
  rcases pairs.reordered with ⟨ordered, each, perm⟩
  have same : first.map f = ordered.map g := by
    clear pairs perm
    induction each with
    | nil => rfl
    | cons here _ ih => rw [map_cons, map_cons, agree _ _ here, ih]
  rw [same]
  exact perm.map g

end

end CollectorFormal.Lib
