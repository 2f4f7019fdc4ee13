import CollectorFormal.Queue.PersistentQueue
import Mathlib.Data.Multiset.AddSub
import Mathlib.Data.Multiset.MapFold

/-! The requests a store holds for given metadata, and how the three changes of
the metadata (append, take, finish) move them. -/

namespace CollectorFormal.Queue

open Lib List

variable {Ctx T : Type} (encoding : Encoding Ctx T)

def decode : Option Bytes → Option T
  | none => none
  | some buf =>
    match encoding.unmarshal (some buf) with
    | .ok (_, req) => some req
    | .error _ => none

def requestAt (store : Store) (index : Nat) : Option T := decode encoding (store (getItemKey index))

def Metadata.waiting (metadata : Metadata) : List Nat :=
  List.range' metadata.readIndex (metadata.writeIndex - metadata.readIndex)

def Metadata.tracked (metadata : Metadata) : List Nat :=
  metadata.waiting ++ metadata.currentlyDispatchedItems

/-- Read and write index are ordered, and what is dispatched was read once. -/
structure Metadata.WellFormed (metadata : Metadata) : Prop where
  ordered : metadata.readIndex ≤ metadata.writeIndex
  unique : metadata.currentlyDispatchedItems.Nodup
  below : ∀ index ∈ metadata.currentlyDispatchedItems, index < metadata.readIndex

def contents (store : Store) (indices : List Nat) : Multiset T :=
  ↑(indices.filterMap (requestAt encoding store))

def live (store : Store) (metadata : Metadata) : Multiset T :=
  contents encoding store metadata.tracked

@[simp] theorem mem_waiting (metadata : Metadata) (index : Nat) :
    index ∈ metadata.waiting ↔ metadata.readIndex ≤ index ∧ index < metadata.writeIndex := by
  simp only [Metadata.waiting, mem_range'_1]
  omega

theorem mem_tracked (metadata : Metadata) (index : Nat) :
    index ∈ metadata.tracked ↔ (metadata.readIndex ≤ index ∧ index < metadata.writeIndex) ∨
      index ∈ metadata.currentlyDispatchedItems := by
  rw [Metadata.tracked, mem_append, mem_waiting]

theorem wellFormed_empty : Metadata.WellFormed {} :=
  ⟨le_refl 0, nodup_nil, fun _ member => absurd member not_mem_nil⟩

theorem Metadata.WellFormed.congr {metadata other : Metadata} (formed : metadata.WellFormed)
    (read : other.readIndex = metadata.readIndex) (written : other.writeIndex = metadata.writeIndex)
    (dispatched : other.currentlyDispatchedItems = metadata.currentlyDispatchedItems) :
    other.WellFormed := by
  refine ⟨?_, ?_, ?_⟩
  · rw [read, written]
    exact formed.ordered
  · rw [dispatched]
    exact formed.unique
  · rw [dispatched, read]
    exact formed.below

theorem Metadata.WellFormed.takeNext {metadata : Metadata} (formed : metadata.WellFormed)
    (more : metadata.readIndex < metadata.writeIndex) : metadata.takeNext.WellFormed := by
  refine ⟨more, ?_, ?_⟩
  · rw [Metadata.takeNext, nodup_append]
    refine ⟨formed.unique, nodup_singleton _, ?_⟩
    rintro index member last found rfl
    have smaller := formed.below index member
    rw [mem_singleton.mp found] at smaller
    exact absurd smaller (lt_irrefl _)
  · intro index member
    rcases mem_append.mp member with old | last
    · exact Nat.lt_succ_of_lt (formed.below index old)
    · rw [mem_singleton.mp last]
      exact Nat.lt_succ_self _

variable {metadata : Metadata}

theorem Metadata.WellFormed.dropDispatched (formed : metadata.WellFormed)
    (index : Nat) : (metadata.dropDispatched index).WellFormed :=
  ⟨formed.ordered, swapRemove_nodup index _ formed.unique, fun other member =>
    formed.below other (mem_of_mem_swapRemove index other _ member)⟩

theorem resetIfDrained_indices (metadata : Metadata) :
    metadata.resetIfDrained.readIndex = metadata.readIndex ∧ metadata.resetIfDrained.writeIndex = metadata.writeIndex ∧
      metadata.resetIfDrained.currentlyDispatchedItems = metadata.currentlyDispatchedItems := by
  rw [Metadata.resetIfDrained]
  split <;> exact ⟨rfl, rfl, rfl⟩

theorem Metadata.WellFormed.resetIfDrained (formed : metadata.WellFormed) :
    metadata.resetIfDrained.WellFormed := by
  obtain ⟨read, written, dispatched⟩ := resetIfDrained_indices metadata
  exact formed.congr read written dispatched

theorem contents_append (store : Store) (front back : List Nat) :
    contents encoding store (front ++ back) = contents encoding store front + contents encoding store back := by
  simp [contents]

theorem contents_perm (store : Store) {left right : List Nat} (same : left.Perm right) :
    contents encoding store left = contents encoding store right :=
  Multiset.coe_eq_coe.mpr (same.filterMap _)

theorem contents_congr {first second : Store} {indices : List Nat}
    (agree : ∀ index ∈ indices, requestAt encoding first index = requestAt encoding second index) :
    contents encoding first indices = contents encoding second indices := by
  rw [contents, contents, filterMap_congr agree]

theorem contents_singleton (store : Store) (index : Nat) (req : T)
    (present : requestAt encoding store index = some req) :
    contents encoding store [index] = {req} := by
  simp [contents, present]

theorem contents_missing (store : Store) (indices : List Nat)
    (missing : ∀ index ∈ indices, requestAt encoding store index = none) :
    contents encoding store indices = 0 := by
  have nothing : indices.filterMap (requestAt encoding store) = [] :=
    filterMap_eq_nil_iff.mpr missing
  simp [contents, nothing]

theorem requestAt_missing (store : Store) (index : Nat) (missing : store (getItemKey index) = none) :
    requestAt encoding store index = none := by
  simp [requestAt, decode, missing]

theorem requestAt_some (store : Store) (index : Nat) (req : T) (present : requestAt encoding store index = some req) :
    ∃ buf ctx, store (getItemKey index) = some buf ∧ encoding.unmarshal (some buf) = .ok (ctx, req) := by
  unfold requestAt decode at present
  split at present
  · cases present
  · next buf stored =>
      split at present
      · next ctx found decoded =>
          cases present
          exact ⟨buf, ctx, stored, decoded⟩
      · cases present

theorem waiting_append {before after : Metadata} (ordered : before.readIndex ≤ before.writeIndex)
    (read : after.readIndex = before.readIndex) (written : after.writeIndex = before.writeIndex + 1) :
    after.waiting = before.waiting ++ [before.writeIndex] := by
  have size : before.writeIndex + 1 - before.readIndex = (before.writeIndex - before.readIndex) + 1 := by omega
  have position : before.readIndex + (before.writeIndex - before.readIndex) = before.writeIndex := by omega
  rw [Metadata.waiting, read, written, size, range'_concat, Nat.one_mul, position]
  rfl

theorem live_append (first second : Store) (before after : Metadata) (req : T) (formed : before.WellFormed)
    (read : after.readIndex = before.readIndex) (written : after.writeIndex = before.writeIndex + 1)
    (dispatched : after.currentlyDispatchedItems = before.currentlyDispatchedItems)
    (added : requestAt encoding second before.writeIndex = some req)
    (kept : ∀ index, index ≠ before.writeIndex → requestAt encoding second index = requestAt encoding first index) :
    live encoding second after = req ::ₘ live encoding first before := by
  have ordered := formed.ordered
  have longer := waiting_append ordered read written
  have old : contents encoding second before.tracked = contents encoding first before.tracked := by
    apply contents_congr
    intro index member
    apply kept
    rcases (mem_tracked before index).mp member with inside | member
    · omega
    · have := formed.below index member
      omega
  calc
    live encoding second after = contents encoding second ([before.writeIndex] ++ before.tracked) := by
      apply contents_perm
      rw [Metadata.tracked, longer, dispatched, Metadata.tracked]
      simp
    _ = {req} + contents encoding first before.tracked := by
      rw [contents_append, contents_singleton encoding second _ req added, old]
    _ = req ::ₘ live encoding first before := by rw [Multiset.singleton_add]; rfl

theorem waiting_takeNext (metadata : Metadata) (more : metadata.readIndex < metadata.writeIndex) :
    metadata.waiting = metadata.readIndex :: metadata.takeNext.waiting := by
  have size : metadata.writeIndex - metadata.readIndex =
      (metadata.writeIndex - (metadata.readIndex + 1)) + 1 := by omega
  rw [Metadata.waiting, size, range'_succ]
  rfl

theorem live_takeNext (store : Store) (metadata : Metadata) (more : metadata.readIndex < metadata.writeIndex) :
    live encoding store metadata.takeNext = live encoding store metadata := by
  apply contents_perm
  rw [Metadata.tracked, Metadata.tracked, waiting_takeNext metadata more]
  simp only [Metadata.takeNext, cons_append]
  rw [← append_assoc]
  exact perm_append_singleton _ _

theorem live_dropDispatched (first second : Store) (metadata : Metadata) (index : Nat) (req : T)
    (formed : metadata.WellFormed) (dispatched : index ∈ metadata.currentlyDispatchedItems)
    (present : requestAt encoding first index = some req)
    (kept : ∀ other, other ≠ index → requestAt encoding second other = requestAt encoding first other) :
    req ::ₘ live encoding second (metadata.dropDispatched index) = live encoding first metadata := by
  have rest : live encoding second (metadata.dropDispatched index) =
      contents encoding first (metadata.dropDispatched index).tracked := by
    apply contents_congr
    intro other member
    apply kept
    rcases (mem_tracked _ other).mp member with inside | member
    · have := formed.below index dispatched
      simp only [Metadata.dropDispatched] at inside
      omega
    · exact ((mem_swapRemove index other _ formed.unique).mp member).1
  rw [rest, ← Multiset.singleton_add, ← contents_singleton encoding first index req present, ← contents_append]
  apply contents_perm
  calc
    List.Perm (index :: (metadata.waiting ++ swapRemove index metadata.currentlyDispatchedItems))
        (metadata.waiting ++ index :: swapRemove index metadata.currentlyDispatchedItems) :=
      perm_middle.symm
    List.Perm _ metadata.tracked :=
      (cons_swapRemove_perm index _ dispatched).append_left metadata.waiting

theorem live_congr (store : Store) (left right : Metadata)
    (read : left.readIndex = right.readIndex) (written : left.writeIndex = right.writeIndex)
    (dispatched : left.currentlyDispatchedItems = right.currentlyDispatchedItems) :
    live encoding store left = live encoding store right := by
  simp only [live, Metadata.tracked, Metadata.waiting, read, written, dispatched]

theorem live_stale (store : Store) (metadata : Metadata)
    (missing : ∀ index ∈ metadata.currentlyDispatchedItems, store (getItemKey index) = none) :
    live encoding store { metadata with currentlyDispatchedItems := [] } =
      live encoding store metadata := by
  have gone : contents encoding store metadata.currentlyDispatchedItems = 0 :=
    contents_missing encoding store _ fun index member =>
      requestAt_missing encoding store index (missing index member)
  rw [live, live, Metadata.tracked, Metadata.tracked, contents_append, contents_append, gone]
  simp [contents, Metadata.waiting]

end CollectorFormal.Queue
