import Mathlib.Data.List.Basic
import Mathlib.Data.List.Nodup
import Mathlib.Data.List.Perm.Basic
import Mathlib.Algebra.Order.Ring.Nat

/-! Removing elements from a list: by moving the last one into the hole, or with a function that has a state and may change
what it keeps. -/

namespace CollectorFormal.Lib

open List

section position
variable {α : Type}

def swapRemoveAt (position : Nat) (items : List α) : List α :=
  match items.getLast? with
  | some last => (items.set position last).dropLast
  | none => items

theorem swapRemoveAt_perm (front back : List α) (target : α) :
    (swapRemoveAt front.length (front ++ target :: back)).Perm (front ++ back) := by
  rcases eq_nil_or_concat back with rfl | ⟨middle, last, rfl⟩
  · simp [swapRemoveAt]
  · rw [concat_eq_append]
    have final : (front ++ target :: (middle ++ [last])).getLast? = some last := by
      simp [getLast?_append, getLast?_cons]
    have written : (front ++ target :: (middle ++ [last])).set front.length last =
        front ++ last :: (middle ++ [last]) := by simp
    have shortened : (front ++ last :: (middle ++ [last])).dropLast = front ++ last :: middle := by
      rw [← cons_append, ← append_assoc, dropLast_concat]
    simp only [swapRemoveAt, final]
    rw [written, shortened]
    exact List.Perm.append_left front (perm_append_singleton last middle).symm

end position

variable {α : Type} [DecidableEq α] (target : α)

variable (items : List α)

/-- The first occurrence is overwritten by the last element, which is cut off. A list without the target is left. -/
def swapRemove : List α :=
  match items.idxOf? target, items.getLast? with
  | some position, some last => (items.set position last).dropLast
  | _, _ => items

theorem swapRemove_of_notMem (absent : target ∉ items) : swapRemove target items = items := by
  have missing : items.idxOf? target = none := idxOf?_eq_none_iff.mpr absent
  simp [swapRemove, missing]

private theorem idxOf?_append_cons (front back : List α) (fresh : target ∉ front) :
    (front ++ target :: back).idxOf? target = some front.length := by
  induction front with
  | nil => simp [idxOf?_cons]
  | cons head tail ih =>
    have different : head ≠ target := fun same => fresh (by simp [same])
    have rest := ih (fun member => fresh (mem_cons_of_mem _ member))
    simp [idxOf?_cons, different, rest]

theorem swapRemove_perm : (swapRemove target items).Perm (items.erase target) := by
  by_cases present : target ∈ items
  · obtain ⟨front, back, rfl, fresh⟩ := eq_append_cons_of_mem present
    have position := idxOf?_append_cons target front back fresh
    rw [erase_append_right _ fresh, erase_cons_head]
    have moved : swapRemove target (front ++ target :: back) = swapRemoveAt front.length (front ++ target :: back) := by
      rw [swapRemove, swapRemoveAt, position]
      cases (front ++ target :: back).getLast? <;> rfl
    rw [moved]
    exact swapRemoveAt_perm front back target
  · rw [swapRemove_of_notMem target items present, erase_of_not_mem present]

theorem swapRemove_nodup (unique : items.Nodup) : (swapRemove target items).Nodup :=
  (swapRemove_perm target items).nodup_iff.mpr (unique.erase target)

theorem mem_swapRemove (target item : α) (items : List α) (unique : items.Nodup) :
    item ∈ swapRemove target items ↔ item ≠ target ∧ item ∈ items := by
  rw [(swapRemove_perm target items).mem_iff, unique.mem_erase_iff]

theorem mem_of_mem_swapRemove (target item : α) (items : List α)
    (member : item ∈ swapRemove target items) : item ∈ items :=
  mem_of_mem_erase ((swapRemove_perm target items).mem_iff.mp member)

theorem cons_swapRemove_perm (present : target ∈ items) : (target :: swapRemove target items).Perm items := by
  calc
    List.Perm (target :: swapRemove target items) (target :: items.erase target) :=
      (swapRemove_perm target items).cons target
    List.Perm _ items := (perm_cons_erase present).symm

example : swapRemove 1 [0, 1, 2, 3] = [0, 3, 2] := by decide

variable {σ α β : Type}

/-- Visits the elements in order. The function answers the next state, what has become
of the element, and whether it is removed. -/
def removeIf (f : σ → α → σ × α × Bool) : σ → List α → σ × List α
  | state, [] => (state, [])
  | state, element :: rest =>
    match f state element with
    | (next, _, true) => removeIf f next rest
    | (next, kept, false) =>
      let r := removeIf f next rest
      (r.1, kept :: r.2)

variable {f : σ → α → σ × α × Bool}

theorem removeIf_taken {state next : σ} {element after : α} (visit : f state element = (next, after, true))
    (rest : List α) : removeIf f state (element :: rest) = removeIf f next rest := by
  rw [removeIf, visit]

theorem removeIf_kept {state next : σ} {element after : α} (visit : f state element = (next, after, false))
    (rest : List α) :
    removeIf f state (element :: rest) = ((removeIf f next rest).1, after :: (removeIf f next rest).2) := by
  rw [removeIf, visit]

def Halted (f : σ → α → σ × α × Bool) (state : σ) : Prop :=
  ∀ element, f state element = (state, element, false)

theorem removeIf_halted {state : σ} (halted : Halted f state) (list : List α) :
    removeIf f state list = (state, list) := by
  induction list with
  | nil => rfl
  | cons element rest ih => simp only [removeIf, halted element, ih]

/-- What one visit may do for the removal to move content out in order: move the whole
element, or a first part of it and then halt. -/
structure Moves (f : σ → α → σ × α × Bool) (out : σ → List β) (content : α → List β) : Prop where
  removed : ∀ state element, (f state element).2.2 = true → out (f state element).1 = out state ++ content element
  kept : ∀ state element, (f state element).2.2 = false → Halted f (f state element).1 ∧
    out (f state element).1 ++ content (f state element).2.1 = out state ++ content element

theorem removeIf_conserves {out : σ → List β} {content : α → List β} (moves : Moves f out content)
    (state : σ) (list : List α) :
    out (removeIf f state list).1 ++ (removeIf f state list).2.flatMap content = out state ++ list.flatMap content := by
  induction list generalizing state with
  | nil => rfl
  | cons element rest ih =>
    obtain ⟨next, after, removed, visit⟩ : ∃ next after removed,
        f state element = (next, after, removed) := ⟨_, _, _, rfl⟩
    cases removed with
    | true =>
      have moved := moves.removed state element (by rw [visit])
      rw [visit] at moved
      simp only [removeIf, visit]
      rw [ih, moved, flatMap_cons, append_assoc]
    | false =>
      obtain ⟨halted, moved⟩ := moves.kept state element (by rw [visit])
      rw [visit] at halted moved
      simp only [removeIf, visit, removeIf_halted halted, flatMap_cons]
      rw [← append_assoc, moved, append_assoc]

theorem removeIf_invariant {kept : σ → Prop} (keeps : ∀ state element, kept state → kept (f state element).1)
    (state : σ) (list : List α) (holds : kept state) : kept (removeIf f state list).1 := by
  induction list generalizing state with
  | nil => exact holds
  | cons element rest ih =>
    have next := keeps state element holds
    rw [removeIf]
    split <;>
    · next visit =>
        rw [visit] at next
        exact ih _ next

theorem removeIf_saturates (total : σ → Nat) (weight : α → Nat) (size : Nat)
    (visit : ∀ state element, total (f state element).1 = min size (total state + weight element))
    (state : σ) (list : List α) (within : total state ≤ size) :
    total (removeIf f state list).1 = min size (total state + (list.map weight).sum) := by
  induction list generalizing state with
  | nil =>
    rw [removeIf, map_nil, sum_nil, Nat.add_zero]
    exact (Nat.min_eq_right within).symm
  | cons element rest ih =>
    have next := visit state element
    rw [removeIf, map_cons, sum_cons]
    split <;>
    · next answer =>
        rw [answer] at next
        rw [ih _ (by rw [next]; exact Nat.min_le_left _ _), next]
        omega

/-- Positions before newLen hold what is kept so far; position i is visited next. A place given up is blanked. -/
def compact (f : σ → α → σ × α × Bool) (blank : α) (i newLen : Nat) (state : σ) (items : List α) : σ × List α :=
  if inside : i < items.length then
    match f state items[i] with
    | (next, _, true) => compact f blank (i + 1) newLen next (items.set i blank)
    | (next, after, false) =>
      if newLen = i then compact f blank (i + 1) (newLen + 1) next (items.set i after)
      else compact f blank (i + 1) (newLen + 1) next ((items.set newLen after).set i blank)
  else (state, items.take newLen)
termination_by items.length - i
decreasing_by all_goals simp_wf; omega

private theorem compact_from (blank : α) (state : σ) (kept gap rest : List α) :
    compact f blank (kept.length + gap.length) kept.length state (kept ++ gap ++ rest) =
      ((removeIf f state rest).1, kept ++ (removeIf f state rest).2) := by
  induction rest generalizing state kept gap with
  | nil =>
    rw [compact, dif_neg (by simp)]
    simp [removeIf]
  | cons element rest ih =>
    have inside : kept.length + gap.length < (kept ++ gap ++ element :: rest).length := by simp
    have here : (kept ++ gap ++ element :: rest)[kept.length + gap.length] = element := by
      simp [getElem_append_right]
    rw [compact, dif_pos inside, here]
    rcases visit : f state element with ⟨next, after, _ | _⟩
    · rw [removeIf_kept visit]
      simp only []
      split
      · next same =>
          have none : gap = [] := length_eq_zero_iff.mp (by omega)
          subst none
          have further := ih next (kept ++ [after]) []
          simpa using further
      · next moved =>
          cases gap with
          | nil => simp at moved
          | cons hole gap =>
            have further := ih next (kept ++ [after]) (gap ++ [blank])
            simpa [Nat.add_assoc, Nat.add_comm, Nat.add_left_comm, set_append] using further
    · rw [removeIf_taken visit]
      have further := ih next kept (gap ++ [blank])
      simpa [Nat.add_assoc, set_append] using further

theorem compact_eq (blank : α) (state : σ) (items : List α) :
    compact f blank 0 0 state items = removeIf f state items := by
  simpa using compact_from (f := f) blank state [] [] items

end CollectorFormal.Lib
