import Mathlib.Data.List.Nodup
import Mathlib.Logic.Relation

/-! Topological orders of a graph that is listed by its nodes and edges. -/

namespace CollectorFormal.Lib

open List
open Relation (TransGen)

variable {α : Type} {nodes order : List α} {edges edges' : List (α × α)} {a b c : α}

def Before (order : List α) (a b : α) : Prop := [a, b].Sublist order

namespace Before

theorem mem_right (before : Before order a b) : b ∈ order := before.subset (by simp)

theorem ne (distinct : order.Nodup) (before : Before order a b) : a ≠ b := by
  have pair := distinct.sublist before
  intro same
  simp [same] at pair

theorem cons_iff {head : α} : Before (head :: order) a b ↔ head = a ∧ b ∈ order ∨ Before order a b := by
  constructor
  · intro before
    cases before with
    | cons _ later => exact .inr later
    | cons_cons _ later => exact .inl ⟨rfl, singleton_sublist.mp later⟩
  · intro either
    rcases either with ⟨same, later⟩ | later
    · subst same
      exact (singleton_sublist.mpr later).cons_cons head
    · exact List.Sublist.cons head later

theorem trans (distinct : order.Nodup) (first : Before order a b) (second : Before order b c) : Before order a c := by
  induction order with
  | nil => cases first
  | cons head order ih =>
    have fresh := (nodup_cons.mp distinct).1
    rw [cons_iff] at first second ⊢
    rcases first with ⟨same, later⟩ | first
    · rcases second with ⟨same', _⟩ | second
      · exact absurd (same' ▸ later) fresh
      · exact .inl ⟨same, second.mem_right⟩
    · rcases second with ⟨same', _⟩ | second
      · exact absurd (same' ▸ first.mem_right) fresh
      · exact .inr (ih (nodup_cons.mp distinct).2 first second)

end Before

def Edge (edges : List (α × α)) (a b : α) : Prop := (a, b) ∈ edges

def Acyclic (edges : List (α × α)) : Prop := ∀ a, ¬TransGen (Edge edges) a a

structure Topological (nodes : List α) (edges : List (α × α)) (order : List α) : Prop where
  distinct : order.Nodup
  visits : ∀ a, a ∈ order ↔ a ∈ nodes
  forward : ∀ a b, (a, b) ∈ edges → Before order a b

namespace Topological

theorem before (sorted : Topological nodes edges order) (path : TransGen (Edge edges) a b) : Before order a b := by
  induction path with
  | single edge => exact sorted.forward _ _ edge
  | tail _ edge ih => exact ih.trans sorted.distinct (sorted.forward _ _ edge)

theorem of_perm (distinct : order.Nodup) (perm : order.Perm nodes) (forward : ∀ edge ∈ edges, [edge.1, edge.2].Sublist order) :
    Topological nodes edges order :=
  ⟨distinct, fun _ => perm.mem_iff, fun a b mem => forward (a, b) mem⟩

theorem acyclic (sorted : Topological nodes edges order) : Acyclic edges :=
  fun _ cycle => (sorted.before cycle).ne sorted.distinct rfl

end Topological

/-- What a topological sort may return: an order of the nodes, or an error if there is a cycle. -/
def SortsTo (nodes : List α) (edges : List (α × α)) : Option (List α) → Prop
  | some order => Topological nodes edges order
  | none => ¬Acyclic edges

end CollectorFormal.Lib
