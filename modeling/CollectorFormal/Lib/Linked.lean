import Mathlib.Data.List.Basic
import Mathlib.Logic.Relation

/-! Singly linked lists in a heap, given by the successor of each address. -/

namespace CollectorFormal.Lib

open List

variable {α : Type} {next other : α → Option α} {first : Option α} {addresses rest : List α}

/-- Following `next` from `first` visits exactly these addresses and then ends. -/
def Linked (next : α → Option α) : Option α → List α → Prop
  | first, [] => first = none
  | first, address :: rest => first = some address ∧ Linked next (next address) rest

/-- The addresses visited in at most the given number of steps. -/
def walk (next : α → Option α) : Nat → Option α → List α
  | 0, _ => []
  | _ + 1, none => []
  | fuel + 1, some address => address :: walk next fuel (next address)

theorem Linked.head? (linked : Linked next first addresses) : addresses.head? = first := by
  cases addresses with
  | nil => exact linked.symm
  | cons address rest => exact linked.1.symm

theorem Linked.unique {others : List α} (linked : Linked next first addresses)
    (also : Linked next first others) : addresses = others := by
  induction addresses generalizing first others with
  | nil =>
    cases others with
    | nil => rfl
    | cons address rest => cases (linked.symm.trans also.1)
  | cons address rest ih =>
    cases others with
    | nil => cases (also.symm.trans linked.1)
    | cons otherAddress others =>
      obtain rfl := Option.some.inj (linked.1.symm.trans also.1)
      rw [ih linked.2 also.2]

theorem Linked.suffix {front : List α} {address : α} (linked : Linked next first (front ++ address :: rest)) :
    Linked next (some address) (address :: rest) := by
  induction front generalizing first with
  | nil => exact ⟨rfl, linked.2⟩
  | cons head front ih => exact ih linked.2

theorem Linked.nodup (linked : Linked next first addresses) : addresses.Nodup := by
  induction addresses generalizing first with
  | nil => exact nodup_nil
  | cons address rest ih =>
    refine nodup_cons.mpr ⟨fun again => ?_, ih linked.2⟩
    obtain ⟨front, back, here⟩ := append_of_mem again
    have whole : Linked next (some address) (address :: rest) := ⟨rfl, linked.2⟩
    have later : Linked next (some address) (address :: back) := by
      have split : Linked next (some address) ((address :: front) ++ address :: back) := by
        rw [cons_append, ← here]
        exact whole
      exact split.suffix
    have same := congrArg List.length (whole.unique later)
    rw [here] at same
    simp at same
    omega

theorem Linked.congr (linked : Linked next first addresses)
    (same : ∀ address ∈ addresses, other address = next address) : Linked other first addresses := by
  induction addresses generalizing first with
  | nil => exact linked
  | cons address rest ih =>
    refine ⟨linked.1, ?_⟩
    rw [same address mem_cons_self]
    exact ih linked.2 fun later member => same later (mem_cons_of_mem _ member)

theorem Linked.snoc {front : List α} {last fresh : α} (linked : Linked next first (front ++ [last]))
    (same : ∀ address ∈ front, other address = next address) (link : other last = some fresh)
    (ends : other fresh = none) : Linked other first (front ++ [last] ++ [fresh]) := by
  induction front generalizing first with
  | nil => exact ⟨linked.1, link, ends⟩
  | cons address front ih =>
    refine ⟨linked.1, ?_⟩
    rw [same address mem_cons_self]
    exact ih linked.2 fun later member => same later (mem_cons_of_mem _ member)

theorem Linked.walk (linked : Linked next first addresses) {fuel : Nat}
    (enough : addresses.length ≤ fuel) : Lib.walk next fuel first = addresses := by
  induction addresses generalizing first fuel with
  | nil =>
    obtain rfl : first = none := linked
    cases fuel <;> rfl
  | cons address rest ih =>
    obtain ⟨rfl, linked⟩ := linked
    cases fuel with
    | zero => cases enough
    | succ fuel =>
      rw [Lib.walk, ih linked]
      exact Nat.le_of_succ_le_succ enough

theorem Linked.reaches_last {address last : α} (linked : Linked next (some address) addresses)
    (ends : addresses.getLast? = some last) :
    Relation.ReflTransGen (fun here there => next here = some there) address last ∧ next last = none := by
  induction addresses generalizing address with
  | nil => cases ends
  | cons head rest ih =>
    obtain ⟨same, linked⟩ := linked
    obtain rfl := Option.some.inj same
    cases rest with
    | nil =>
      obtain rfl : address = last := Option.some.inj ends
      exact ⟨.refl, linked⟩
    | cons second rest =>
      have link := linked.1
      obtain ⟨path, final⟩ := ih (link ▸ linked) ends
      exact ⟨.head link path, final⟩

end CollectorFormal.Lib
