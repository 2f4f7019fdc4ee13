import Mathlib.Data.List.Basic

/-! Tables to which values are added once.

An index stays good while the table grows. A repeated value is known by its last place. -/

namespace CollectorFormal.Lib

open List

variable {α : Type} [DecidableEq α] {table : List α} {x y : α}

def intern (table : List α) (x : α) : List α := if x ∈ table then table else table ++ [x]

def internAll (table : List α) (xs : List α) : List α := xs.foldl intern table

def lastIdx (x : α) : List α → Option Nat
  | [] => none
  | first :: rest =>
    match lastIdx x rest with
    | some i => some (i + 1)
    | none => if first = x then some 0 else none

section tables

theorem intern_of_mem (member : x ∈ table) : intern table x = table := if_pos member

theorem intern_of_not_mem (absent : x ∉ table) : intern table x = table ++ [x] := if_neg absent

theorem mem_intern : x ∈ intern table x := by
  unfold intern
  split
  · assumption
  · simp

theorem prefix_intern (table : List α) (x : α) : table <+: intern table x := by
  unfold intern
  split
  · exact prefix_rfl
  · exact prefix_append table [x]

theorem internAll_append (table first second : List α) :
    internAll table (first ++ second) = internAll (internAll table first) second :=
  foldl_append

theorem prefix_internAll (table xs : List α) : table <+: internAll table xs := by
  induction xs generalizing table with
  | nil => exact prefix_rfl
  | cons x xs ih => exact (prefix_intern table x).trans (ih (intern table x))

theorem head?_internAll (table xs : List α) : (internAll table xs).head? = table.head?.or xs.head? := by
  induction xs generalizing table with
  | nil => simp [internAll]
  | cons x xs ih =>
    rw [internAll, foldl_cons]
    refine (ih (intern table x)).trans ?_
    cases table with
    | nil => simp [intern]
    | cons first rest => simp [intern, apply_ite]

end tables

section places

theorem lastIdx_snoc (table : List α) (x y : α) :
    lastIdx x (table ++ [y]) = if y = x then some table.length else lastIdx x table := by
  induction table with
  | nil => simp [lastIdx]
  | cons first rest ih =>
    rw [cons_append, lastIdx, ih, lastIdx]
    by_cases same : y = x
    · simp [same]
    · simp only [if_neg same]

theorem lastIdx_eq_none_iff : lastIdx x table = none ↔ x ∉ table := by
  induction table with
  | nil => simp [lastIdx]
  | cons first rest ih =>
    rw [lastIdx]
    cases place : lastIdx x rest with
    | some i =>
      have inside : x ∈ rest := by
        by_contra absent
        rw [ih.mpr absent] at place
        cases place
      simp [inside]
    | none => simp [ih.mp place, eq_comm]

theorem getElem?_lastIdx {i : Nat} (place : lastIdx x table = some i) : table[i]? = some x := by
  induction table generalizing i with
  | nil => cases place
  | cons first rest ih =>
    rw [lastIdx] at place
    cases later : lastIdx x rest with
    | some j =>
      rw [later] at place
      cases place
      exact ih later
    | none =>
      simp only [later, Option.ite_none_right_eq_some, Option.some.injEq] at place
      obtain ⟨rfl, rfl⟩ := place
      rfl

theorem lastIdx_intern (member : x ∈ table) : lastIdx x (intern table y) = lastIdx x table := by
  unfold intern
  split
  · rfl
  · next absent =>
      rw [lastIdx_snoc, if_neg]
      rintro rfl
      exact absent member

theorem lastIdx_internAll (member : x ∈ table) (xs : List α) : lastIdx x (internAll table xs) = lastIdx x table := by
  induction xs generalizing table with
  | nil => rfl
  | cons y xs ih => exact (ih ((prefix_intern table y).subset member)).trans (lastIdx_intern member)

theorem lastIdx_eq_zero_iff : lastIdx x table = some 0 ↔ table.head? = some x ∧ x ∉ table.tail := by
  cases table with
  | nil => simp [lastIdx]
  | cons first rest =>
    rw [lastIdx]
    cases place : lastIdx x rest with
    | some i =>
      have inside : x ∈ rest := mem_of_getElem? (getElem?_lastIdx place)
      simp [inside]
    | none => simp [lastIdx_eq_none_iff.mp place]

theorem mem_tail_internAll {xs : List α} (first : (internAll table xs).head? = some x) :
    x ∈ (internAll table xs).tail ↔ x ∈ table.tail := by
  induction xs generalizing table with
  | nil => rfl
  | cons y xs ih =>
    refine (ih first).trans ?_
    by_cases member : y ∈ table
    · rw [intern_of_mem member]
    · rw [intern_of_not_mem member]
      cases table with
      | nil => simp
      | cons front rest =>
        have same : front = x := by
          rw [head?_internAll] at first
          simpa using first
        have other : x ≠ y := by
          rintro rfl
          exact member (by simp [same])
        simp [other]

end places

end CollectorFormal.Lib
