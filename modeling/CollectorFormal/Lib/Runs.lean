import Mathlib.Data.List.Basic
import Mathlib.Algebra.BigOperators.Group.List.Basic
import Mathlib.Algebra.Order.Ring.Nat
import Mathlib.Logic.Relation

/-! Runs of a labelled transition system or of threads that take turns, and lists in which one element changes. -/

namespace CollectorFormal.Lib

open List

section runs
variable {σ ℓ : Type}

/-- States reached by steps that all meet a condition on the state before. -/
inductive Reached (step : ℓ → σ → σ → Prop) (allowed : ℓ → σ → Prop) (first : σ) : σ → Prop where
  | start : Reached step allowed first first
  | step {state next : σ} {label : ℓ} (reached : Reached step allowed first state)
      (meets : allowed label state) (moved : step label state next) : Reached step allowed first next

def Always (_ : ℓ) (_ : σ) : Prop := True

variable {step : ℓ → σ → σ → Prop} {allowed : ℓ → σ → Prop} {first : σ}

theorem Reached.next {state next : σ} {label : ℓ} (reached : Reached step allowed first state)
    (moved : step label state next) (meets : allowed label state) : Reached step allowed first next :=
  .step reached meets moved

theorem Reached.trans {state last : σ} (reached : Reached step allowed first state)
    (later : Reached step allowed state last) : Reached step allowed first last := by
  induction later with
  | start => exact reached
  | step _ meets moved ih => exact .step ih meets moved

theorem Reached.invariant {kept : σ → Prop} (starts : kept first)
    (keeps : ∀ label state next, allowed label state → step label state next → kept state → kept next)
    {state : σ} (reached : Reached step allowed first state) : kept state := by
  induction reached with
  | start => exact starts
  | step _ meets moved ih => exact keeps _ _ _ meets moved ih

theorem Reached.first_step {state : σ} (reached : Reached step allowed first state) :
    state = first ∨ ∃ label next, allowed label first ∧ step label first next ∧
      Reached step allowed next state := by
  induction reached with
  | start => exact .inl rfl
  | step _ meets moved ih =>
    right
    rcases ih with rfl | ⟨label, next, allows, moves, later⟩
    · exact ⟨_, _, meets, moved, .start⟩
    · exact ⟨label, next, allows, moves, .step later meets moved⟩

theorem Reached.always {state : σ} (reached : Reached step allowed first state) :
    Reached step Always first state := by
  induction reached with
  | start => exact .start
  | step _ _ moved ih => exact .step ih trivial moved

/-- Whatever steps are taken, the goal is reached: until then there is a next step. -/
inductive Inevitable (step : ℓ → σ → σ → Prop) (allowed : ℓ → σ → Prop) (goal : σ → Prop) : σ → Prop where
  | now {state : σ} (there : goal state) : Inevitable step allowed goal state
  | later {state : σ} (moves : ∃ label next, allowed label state ∧ step label state next)
      (each : ∀ label next, allowed label state → step label state next → Inevitable step allowed goal next) :
      Inevitable step allowed goal state

theorem inevitable_of_rank {β : Type} {less : β → β → Prop} (founded : WellFounded less) (rank : σ → β)
    {goal kept : σ → Prop}
    (moves : ∀ state, kept state → goal state ∨ ∃ label next, allowed label state ∧ step label state next)
    (sinks : ∀ label state next, kept state → allowed label state → step label state next →
      goal next ∨ kept next ∧ less (rank next) (rank state)) {state : σ} (starts : kept state) :
    Inevitable step allowed goal state := by
  induction ranked : rank state using founded.induction generalizing state with
  | _ height ih =>
    rcases moves state starts with there | next
    · exact .now there
    · apply Inevitable.later next
      intro label next meets moved
      rcases sinks label state next starts meets moved with there | ⟨keeps, sunk⟩
      · exact .now there
      · rw [ranked] at sunk
        exact ih _ sunk keeps rfl

end runs

section placed
variable {α : Type} {front back : List α} {after element : α}

theorem mem_placed (before : α) (member : element ∈ front ++ after :: back) :
    element = after ∨ element ∈ front ++ before :: back := by
  simp only [mem_append, mem_cons] at member ⊢
  tauto

theorem mem_others (member : element ∈ front ++ after :: back) : element = after ∨ element ∈ front ++ back := by
  simp only [mem_append, mem_cons] at member ⊢
  tauto

theorem mem_of_others (inside : element ∈ front ++ back) : element ∈ front ++ after :: back :=
  ((sublist_cons_self after back).append_left front).subset inside

variable {p : α → Prop}

theorem forall_placed {before : α} (all : ∀ element ∈ front ++ before :: back, p element)
    (here : p after) : ∀ element ∈ front ++ after :: back, p element := by
  intro element member
  rcases mem_placed before member with rfl | inside
  · exact here
  · exact all element inside

theorem forall_snoc {list : List α} {last : α} (all : ∀ element ∈ list, p element)
    (new : p last) : ∀ element ∈ list ++ [last], p element :=
  forall_mem_append.mpr ⟨all, forall_mem_singleton.mpr new⟩

theorem exists_placed {before : α} (some : ∃ element ∈ front ++ before :: back, p element)
    (here : p before → p after) : ∃ element ∈ front ++ after :: back, p element := by
  obtain ⟨element, member, holds⟩ := some
  rcases mem_others member with rfl | inside
  · exact ⟨after, by simp, here holds⟩
  · exact ⟨element, mem_of_others inside, holds⟩

theorem getElem?_placed (before : α) {index : Nat} (found : (front ++ after :: back)[index]? = some element) :
    index = front.length ∧ element = after ∨
      index ≠ front.length ∧ (front ++ before :: back)[index]? = some element := by
  rcases Nat.lt_trichotomy index front.length with less | same | more
  · right
    rw [getElem?_append_left less] at found ⊢
    exact ⟨Nat.ne_of_lt less, found⟩
  · left
    subst same
    simpa [eq_comm] using found
  · right
    obtain ⟨rest, rfl⟩ := Nat.exists_eq_add_of_lt more
    rw [getElem?_append_right (Nat.le_of_lt more)] at found ⊢
    rw [show front.length + rest + 1 - front.length = rest + 1 by omega] at found ⊢
    exact ⟨Nat.ne_of_gt more, found⟩

theorem flatMap_placed {β : Type} (f : α → List β) (element : α) (front back : List α) :
    ((front ++ element :: back).flatMap f).Perm (f element ++ (front ++ back).flatMap f) := by
  rw [flatMap_append, flatMap_cons, flatMap_append, ← append_assoc, ← append_assoc]
  exact perm_append_comm.append_right _

theorem getElem?_snoc_eq_some (list : List α) (last : α) (index : Nat) :
    (list ++ [last])[index]? = some element ↔ list[index]? = some element ∨ index = list.length ∧ element = last := by
  rcases Nat.lt_trichotomy index list.length with less | same | more
  · rw [getElem?_append_left less]
    simp [Nat.ne_of_lt less]
  · subst same
    simp [eq_comm]
  · rw [getElem?_eq_none (by simp; omega), getElem?_eq_none (Nat.le_of_lt more)]
    simp [Nat.ne_of_gt more]

end placed

structure Threads (σ π : Type) where
  shared : σ
  positions : List π

variable {σ π : Type}

inductive Turn (move : σ → π → σ → π → Prop) : Threads σ π → Threads σ π → Prop where
  | mk {before after : σ} {here there : π} (front back : List π) (moved : move before here after there) :
      Turn move ⟨before, front ++ here :: back⟩ ⟨after, front ++ there :: back⟩

variable {move : σ → π → σ → π → Prop} {first state next : Threads σ π}

def Interleaves (move : σ → π → σ → π → Prop) : Threads σ π → Threads σ π → Prop :=
  Relation.ReflTransGen (Turn move)

theorem Interleaves.start : Interleaves move first first := Relation.ReflTransGen.refl

theorem Interleaves.turn {before after : σ} {here there : π} (front back : List π)
    (reached : Interleaves move first ⟨before, front ++ here :: back⟩) (moved : move before here after there) :
    Interleaves move first ⟨after, front ++ there :: back⟩ :=
  Relation.ReflTransGen.tail reached (.mk front back moved)

theorem Interleaves.invariant {kept : Threads σ π → Prop} (starts : kept first)
    (keeps : ∀ state next, Turn move state next → kept state → kept next)
    (reached : Interleaves move first state) : kept state := by
  induction reached with
  | refl => exact starts
  | tail _ turn ih => exact keeps _ _ turn ih

/-- Moves of one thread in a row. -/
inductive Solo (move : σ → π → σ → π → Prop) (first : σ) (place : π) : σ → π → Prop where
  | start : Solo move first place first place
  | next {before after : σ} {here there : π} (moves : Solo move first place before here)
      (moved : move before here after there) : Solo move first place after there

theorem Interleaves.moves {before after : σ} {here there : π} {positions others : List π}
    (reached : Interleaves move first ⟨before, positions⟩) (moves : Solo move before here after there)
    (placed : positions.Perm (here :: others)) :
    ∃ last, Interleaves move first ⟨after, last⟩ ∧ last.Perm (there :: others) := by
  obtain ⟨front, back, rfl⟩ := append_of_mem (placed.mem_iff.mpr mem_cons_self)
  have rest : (front ++ back).Perm others := (perm_middle.symm.trans placed).cons_inv
  refine ⟨front ++ there :: back, ?_, perm_middle.trans (rest.cons there)⟩
  induction moves with
  | start => exact reached
  | next _ moved ih => exact ih.turn front back moved

theorem Turn.mover (turn : Turn move state next) :
    ∃ here ∈ state.positions, ∃ after there, move state.shared here after there := by
  cases turn with
  | mk front back moved => exact ⟨_, mem_append_right _ mem_cons_self, _, _, moved⟩

variable (weight : π → Nat)

def total (positions : List π) : Nat := (positions.map weight).sum

theorem total_cons (here : π) (rest : List π) : total weight (here :: rest) = weight here + total weight rest := by
  rw [total, map_cons, sum_cons, total]

theorem total_middle (front back : List π) (here : π) :
    total weight (front ++ here :: back) = weight here + total weight (front ++ back) := by
  simp only [total, map_append, map_cons, sum_append, sum_cons]
  omega

theorem total_placed (front back : List π) (here there : π) :
    total weight (front ++ there :: back) + weight here = total weight (front ++ here :: back) + weight there := by
  rw [total_middle, total_middle]
  omega

theorem le_total {weight : π → Nat} {positions : List π} {here : π} (member : here ∈ positions) :
    weight here ≤ total weight positions := by
  induction positions with
  | nil => cases member
  | cons head rest ih =>
    rw [total_cons]
    rcases mem_cons.mp member with rfl | later
    · exact Nat.le_add_right _ _
    · exact Nat.le_add_left_of_le (ih later)

theorem total_mono {weight heavier : π → Nat} (less : ∀ here, weight here ≤ heavier here) (positions : List π) :
    total weight positions ≤ total heavier positions := by
  induction positions with
  | nil => exact Nat.le_refl _
  | cons head rest ih =>
    rw [total_cons, total_cons]
    exact Nat.add_le_add (less head) ih

theorem total_eq_zero {weight : π → Nat} {positions : List π} (none : ∀ here ∈ positions, weight here = 0) :
    total weight positions = 0 := by
  induction positions with
  | nil => rfl
  | cons head rest ih =>
    rw [forall_mem_cons] at none
    rw [total_cons, none.1, Nat.zero_add]
    exact ih none.2

end CollectorFormal.Lib
