import CollectorFormal.Lib.Linked
import Mathlib.Data.List.Perm.Subperm

/-! The linked list of the memory queue. Nodes are never reused, so an address is a
position in the list of all nodes made so far. -/

namespace CollectorFormal.Queue

open Lib List

variable {Ctx T Done : Type}

structure Item (Ctx T Done : Type) where
  ctx : Ctx
  data : T
  done : Done
  deriving DecidableEq

structure Node (Ctx T Done : Type) extends Item Ctx T Done where
  next : Option Nat := none

def setNext (address : Nat) (next : Option Nat) (nodes : List (Node Ctx T Done)) : List (Node Ctx T Done) :=
  nodes.modify address fun node => { node with next := next }

theorem setNext_item (address other : Nat) (next : Option Nat) (nodes : List (Node Ctx T Done)) :
    (setNext address next nodes)[other]?.map (·.toItem) = nodes[other]?.map (·.toItem) := by
  rw [setNext, getElem?_modify]
  split <;> simp [Function.comp_def]

theorem setNext_next (address other : Nat) (next : Option Nat) (nodes : List (Node Ctx T Done)) :
    (setNext address next nodes)[other]?.bind (·.next) =
      if address = other ∧ other < nodes.length then next else nodes[other]?.bind (·.next) := by
  rw [setNext, getElem?_modify]
  by_cases here : address = other
  · by_cases inside : other < nodes.length <;> simp [here, inside]
  · simp [here]

structure LinkedQueue (Ctx T Done : Type) where
  nodes : List (Node Ctx T Done) := []
  head : Option Nat := none
  tail : Option Nat := none

namespace LinkedQueue

variable (ctx : Ctx) (data : T)

variable (done : Done)

def push (l : LinkedQueue Ctx T Done) : LinkedQueue Ctx T Done :=
  let n := l.nodes.length
  let nodes := l.nodes ++ [{ ctx, data, done }]
  match l.tail with
  | none => { nodes := nodes, head := some n, tail := some n }
  | some tail =>
    { l with nodes := setNext tail (some n) nodes, tail := some n }

def hasElements (l : LinkedQueue Ctx T Done) : Bool := l.head.isSome

/-- `none` stands for the panic on an empty list. -/
def pop (l : LinkedQueue Ctx T Done) : Option (LinkedQueue Ctx T Done × Item Ctx T Done) := do
  let n ← l.head
  let node ← l.nodes[n]?
  return ({ nodes := setNext n none l.nodes
            head := node.next
            tail := if node.next = none then none else l.tail }, node.toItem)

def next (l : LinkedQueue Ctx T Done) (address : Nat) : Option Nat :=
  l.nodes[address]?.bind (·.next)

def item (l : LinkedQueue Ctx T Done) (address : Nat) : Option (Item Ctx T Done) :=
  l.nodes[address]?.map (·.toItem)

def addresses (l : LinkedQueue Ctx T Done) : List Nat := walk l.next l.nodes.length l.head

def contents (l : LinkedQueue Ctx T Done) : List (Item Ctx T Done) := l.addresses.filterMap l.item

/-- From the head one reaches exactly these nodes, of which the last is the tail. -/
structure Represents (l : LinkedQueue Ctx T Done) (addresses : List Nat) : Prop where
  linked : Linked l.next l.head addresses
  allocated : ∀ address ∈ addresses, address < l.nodes.length
  tail : l.tail = addresses.getLast?

variable {l : LinkedQueue Ctx T Done} {list : List Nat}

theorem represents_empty : ({} : LinkedQueue Ctx T Done).Represents [] :=
  ⟨rfl, fun _ member => absurd member not_mem_nil, rfl⟩

theorem Represents.addresses_eq (represents : l.Represents list) : l.addresses = list := by
  apply represents.linked.walk
  have inside : list ⊆ List.range l.nodes.length := fun address member =>
    mem_range.mpr (represents.allocated address member)
  simpa using (represents.linked.nodup.subperm inside).length_le

theorem Represents.shape (represents : l.Represents list) :
    (l.tail = none ↔ l.head = none) ∧
    ∀ head, l.head = some head → ∃ tail, l.tail = some tail ∧
      Relation.ReflTransGen (fun here there => l.next here = some there) head tail ∧
      l.next tail = none := by
  have first := represents.linked.head?
  constructor
  · rw [represents.tail, ← first, getLast?_eq_none_iff, head?_eq_none_iff]
  · intro head here
    have linked := represents.linked
    rw [here] at linked first
    obtain ⟨last, ends⟩ : ∃ last, list.getLast? = some last := by
      cases list with
      | nil => cases first
      | cons address rest => exact ⟨_, getLast?_cons⟩
    exact ⟨last, represents.tail.trans ends, linked.reaches_last ends⟩

theorem push_length : (l.push ctx data done).nodes.length = l.nodes.length + 1 := by
  unfold push
  split <;> simp [setNext]

theorem push_item (address : Nat) :
    (l.push ctx data done).item address =
      if address = l.nodes.length then some ⟨ctx, data, done⟩ else l.item address := by
  have appended : ((l.nodes ++ [({ ctx, data, done } : Node Ctx T Done)])[address]?).map (·.toItem) =
      if address = l.nodes.length then some ⟨ctx, data, done⟩ else l.item address := by
    rcases Nat.lt_trichotomy address l.nodes.length with inside | rfl | outside
    · rw [getElem?_append_left inside, if_neg (Nat.ne_of_lt inside), item]
    · simp
    · rw [if_neg (Nat.ne_of_gt outside), item, getElem?_eq_none (Nat.le_of_lt outside), getElem?_eq_none]
      rw [length_append]
      exact outside
  unfold push item
  split
  · exact appended
  · exact (setNext_item _ _ _ _).trans appended

theorem push_next {tail : Nat} (here : l.tail = some tail) (inside : tail < l.nodes.length) (address : Nat) :
    (l.push ctx data done).next address = if tail = address then some l.nodes.length
      else if address < l.nodes.length then l.next address else none := by
  have appended : (l.nodes ++ [({ ctx, data, done } : Node Ctx T Done)])[address]?.bind (·.next) =
      if address < l.nodes.length then l.next address else none := by
    rcases Nat.lt_trichotomy address l.nodes.length with inside | rfl | outside
    · rw [getElem?_append_left inside, if_pos inside, next]
    · simp
    · rw [if_neg (Nat.not_lt.mpr (Nat.le_of_lt outside)), getElem?_eq_none]
      · rfl
      · rw [length_append]
        exact outside
  simp only [push, next, here, setNext_next, appended]
  by_cases same : tail = address
  · subst same
    rw [if_pos rfl, if_pos ⟨rfl, by simp; omega⟩]
  · rw [if_neg same, if_neg fun both => same both.1]

theorem push_represents (represents : l.Represents list) :
    (l.push ctx data done).Represents (list ++ [l.nodes.length]) := by
  refine ⟨?_, ?_, ?_⟩
  · rcases eq_nil_or_concat' list with rfl | ⟨front, last, rfl⟩
    · have empty : l.tail = none := represents.tail
      have final : (l.push ctx data done).next l.nodes.length = none := by
        simp [push, next, empty]
      have head : (l.push ctx data done).head = some l.nodes.length := by
        simp only [push, empty]
      exact ⟨head, final⟩
    · have tail : l.tail = some last := by
        rw [represents.tail, getLast?_concat]
      have inside := represents.allocated last (by simp)
      have head : (l.push ctx data done).head = l.head := by
        simp only [push, tail]
      rw [head]
      apply represents.linked.snoc
      · intro address member
        have other : last ≠ address := by
          rintro rfl
          exact (nodup_append.mp represents.linked.nodup).2.2 _ member _ (mem_singleton_self _) rfl
        rw [push_next _ _ _ tail inside, if_neg other, if_pos (represents.allocated address (mem_append_left _ member))]
      · rw [push_next _ _ _ tail inside, if_pos rfl]
      · rw [push_next _ _ _ tail inside, if_neg (Nat.ne_of_lt inside), if_neg (Nat.lt_irrefl _)]
  · intro address member
    rw [push_length]
    rcases mem_append.mp member with old | new
    · exact Nat.lt_succ_of_lt (represents.allocated address old)
    · rw [mem_singleton.mp new]
      exact Nat.lt_succ_self _
  · rw [getLast?_concat]
    unfold push
    split <;> rfl

theorem push_contents (represents : l.Represents list) :
    (l.push ctx data done).contents = l.contents ++ [⟨ctx, data, done⟩] := by
  rw [contents, contents, (push_represents ctx data done represents).addresses_eq,
    represents.addresses_eq, filterMap_append]
  congr 1
  · apply filterMap_congr
    intro address member
    rw [push_item, if_neg (Nat.ne_of_lt (represents.allocated address member))]
  · simp [push_item]

theorem pop_represents {first : Nat} (represents : l.Represents (first :: list)) :
    ∃ rest held, l.pop = some (rest, held) ∧ l.item first = some held ∧ rest.Represents list ∧
      rest.nodes.length = l.nodes.length ∧ ∀ address, rest.item address = l.item address := by
  have inside := represents.allocated first mem_cons_self
  obtain ⟨head, linked⟩ := represents.linked
  have node : l.nodes[first]? = some l.nodes[first] := getElem?_eq_getElem inside
  have after : l.next first = l.nodes[first].next := by rw [next, node]; rfl
  rw [after] at linked
  refine ⟨{ nodes := setNext first none l.nodes
            head := l.nodes[first].next
            tail := if l.nodes[first].next = none then none else l.tail },
    l.nodes[first].toItem, ?_, ?_, ⟨?_, ?_, ?_⟩, ?_, ?_⟩
  · simp [pop, head, node]
  · rw [item, node]
    rfl
  · apply linked.congr
    intro address member
    have other : first ≠ address := by
      rintro rfl
      exact (nodup_cons.mp represents.linked.nodup).1 member
    simp only [next, setNext_next, if_neg fun both : first = address ∧ _ => other both.1]
  · intro address member
    rw [setNext, length_modify]
    exact represents.allocated address (mem_cons_of_mem _ member)
  · simp only [represents.tail]
    cases list with
    | nil =>
      have ended : l.nodes[first].next = none := linked
      rw [if_pos ended]
      rfl
    | cons second rest =>
      rw [if_neg (by rw [linked.1]; exact Option.some_ne_none _), getLast?_cons_cons]
  · exact length_modify _ _ _
  · intro address
    exact setNext_item _ _ _ _

theorem pop_contents {first : Nat} {rest : LinkedQueue Ctx T Done} {held : Item Ctx T Done}
    (represents : l.Represents (first :: list)) (popped : l.pop = some (rest, held)) :
    l.contents = held :: rest.contents := by
  obtain ⟨rest', held', popped', here, after, -, same⟩ := pop_represents represents
  obtain ⟨rfl, rfl⟩ := Prod.mk.inj (Option.some.inj (popped'.symm.trans popped))
  have kept : list.filterMap l.item = list.filterMap rest'.item :=
    filterMap_congr fun address _ => (same address).symm
  rw [contents, contents, represents.addresses_eq, after.addresses_eq, filterMap_cons_some here, kept]

theorem hasElements_iff (represents : l.Represents list) : l.hasElements = true ↔ list ≠ [] := by
  rw [hasElements, ← represents.linked.head?, ne_eq, ← head?_eq_none_iff, Option.isSome_iff_ne_none]

end LinkedQueue

end CollectorFormal.Queue
