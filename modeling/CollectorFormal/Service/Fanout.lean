import Mathlib.Data.List.Basic
import Mathlib.Data.List.Perm.Basic
import Mathlib.Data.List.Pairwise

/-! Fan-out consumers, the same for logs, traces, metrics and profiles.

Data is an object of the heap with its read-only mark. What a leaf writes and returns is arbitrary; it cannot write
into an object that is marked. -/

namespace CollectorFormal.Fanout

open List

structure Leaf (C E : Type) where
  mutatesData : Bool
  write : C → C
  result : Option E

inductive Consumer (C E : Type) where
  | leaf (leaf : Leaf C E)
  | fanout (mutable readonly : List (Consumer C E))

structure Object (C : Type) where
  content : C
  readOnly : Bool

/-- What a leaf was given: the object, with its contents and its mark at that time. -/
structure Delivery (C E : Type) where
  leaf : Leaf C E
  object : Nat
  given : Object C

structure State (C E : Type) where
  heap : List (Object C)
  deliveries : List (Delivery C E)

variable {C E : Type}

namespace Consumer

/-- Capabilities -/
def mutatesData : Consumer C E → Bool
  | .leaf l => l.mutatesData
  | .fanout mutable readonly => !mutable.isEmpty && readonly.isEmpty

/-- NewLogs: a single consumer that does not mutate is not wrapped. -/
def newFanout (lcs : List (Consumer C E)) : Consumer C E :=
  match lcs with
  | [lc] => if lc.mutatesData then .fanout [lc] [] else lc
  | _ => .fanout (lcs.filter mutatesData) (lcs.filter (!mutatesData ·))

end Consumer

namespace State

/-- cloneLogs: the new object is the last one. -/
def clone (s : State C E) (given : Object C) : State C E := { s with heap := s.heap ++ [⟨given.content, false⟩] }

def isReadOnly (s : State C E) (ld : Nat) : Bool :=
  match s.heap[ld]? with
  | some object => object.readOnly
  | none => false

def markReadOnly (s : State C E) (ld : Nat) : State C E :=
  { s with heap := s.heap.modify ld fun object => { object with readOnly := true } }

/-- The leaf writes into its object, unless it is read-only. -/
def deliver (s : State C E) (leaf : Leaf C E) (ld : Nat) (given : Object C) : State C E where
  heap := s.heap.modify ld fun object =>
    if object.readOnly then object else { object with content := leaf.write object.content }
  deliveries := s.deliveries ++ [⟨leaf, ld, given⟩]

end State

mutual

/-- ConsumeLogs. There is no object at `ld` only if the caller passes none. -/
def consume : Consumer C E → Nat → State C E → State C E × List E
  | .leaf l, ld, s =>
    match s.heap[ld]? with
    | none => (s, [])
    | some given => (s.deliver l ld given, l.result.toList)
  | .fanout mutable readonly, ld, s =>
    let (s₁, errs₁) := consumeMutable mutable readonly.isEmpty ld s
    -- the data goes to more than one consumer that reads it
    let s₂ := if 1 < readonly.length && !s₁.isReadOnly ld then s₁.markReadOnly ld else s₁
    let (s₃, errs₂) := consumeReadonly readonly ld s₂
    (s₃, errs₁ ++ errs₂)

/-- `alone` says that there are no consumers that do not mutate. -/
def consumeMutable : List (Consumer C E) → Bool → Nat → State C E → State C E × List E
  | [], _, _, s => (s, [])
  | lc :: rest, alone, ld, s =>
    match s.heap[ld]? with
    | none => (s, [])
    | some given =>
      if rest.isEmpty && alone && !given.readOnly then consume lc ld s
      else
        let (s₁, errs₁) := consume lc s.heap.length (s.clone given)
        let (s₂, errs₂) := consumeMutable rest alone ld s₁
        (s₂, errs₁ ++ errs₂)

def consumeReadonly : List (Consumer C E) → Nat → State C E → State C E × List E
  | [], _, s => (s, [])
  | lc :: rest, ld, s =>
    let (s₁, errs₁) := consume lc ld s
    let (s₂, errs₂) := consumeReadonly rest ld s₁
    (s₂, errs₁ ++ errs₂)

end

inductive Tree (C E : Type) where
  | leaf (leaf : Leaf C E)
  | node (children : List (Tree C E))

namespace Tree

mutual

/-- Every inner node is built by NewLogs. -/
def build : Tree C E → Consumer C E
  | .leaf l => .leaf l
  | .node children => Consumer.newFanout (buildAll children)

def buildAll : List (Tree C E) → List (Consumer C E)
  | [] => []
  | child :: rest => child.build :: buildAll rest

end

mutual

def leaves : Tree C E → List (Leaf C E)
  | .leaf l => [l]
  | .node children => leavesAll children

def leavesAll : List (Tree C E) → List (Leaf C E)
  | [] => []
  | child :: rest => child.leaves ++ leavesAll rest

end

end Tree

namespace Consumer

mutual

def leaves : Consumer C E → List (Leaf C E)
  | .leaf l => [l]
  | .fanout mutable readonly => leavesAll mutable ++ leavesAll readonly

def leavesAll : List (Consumer C E) → List (Leaf C E)
  | [] => []
  | lc :: rest => lc.leaves ++ leavesAll rest

end

/-- The consumers that only read do not mutate, at every level. -/
inductive Sorted : Consumer C E → Prop
  | leaf (l : Leaf C E) : Sorted (.leaf l)
  | fanout {mutable readonly : List (Consumer C E)} (reads : ∀ lc ∈ readonly, lc.mutatesData = false)
      (first : ∀ lc ∈ mutable, Sorted lc) (second : ∀ lc ∈ readonly, Sorted lc) : Sorted (.fanout mutable readonly)

end Consumer

/-- What a consumer with these leaves does with an object, from one state to another.
`new` is what its leaves were given. -/
structure Delivers (leaves : List (Leaf C E)) (mutates : Bool) (ld : Nat) (given : Object C) (s s' : State C E)
    (errs : List E) (new : List (Delivery C E)) : Prop where
  deliveries : s'.deliveries = s.deliveries ++ new
  once : new.map Delivery.leaf = leaves
  content : ∀ d ∈ new, d.given.content = given.content
  writable : ∀ d ∈ new, d.leaf.mutatesData = true → d.given.readOnly = false ∧ (d.object = ld → mutates = true)
  place : ∀ d ∈ new, d.object = ld ∨ s.heap.length ≤ d.object ∧ d.object < s'.heap.length
  marked : given.readOnly = true → ∀ d ∈ new, d.object = ld → d.given.readOnly = true
  shared : new.Pairwise fun d d' => d.object = d'.object → d.given.readOnly = true ∧ d'.given.readOnly = true
  errors : errs = new.filterMap (·.leaf.result)
  grows : s.heap.length ≤ s'.heap.length
  frame : ∀ i < s.heap.length, i ≠ ld → s'.heap[i]? = s.heap[i]?
  kept : given.readOnly = true → s'.heap[ld]? = s.heap[ld]?

namespace Delivers
variable {leaves leaves' : List (Leaf C E)} {mutates : Bool} {ld : Nat} {given : Object C} {s s₁ s₂ : State C E}
  {errs errs' : List E} {new new' : List (Delivery C E)}

theorem nothing (mutates : Bool) (ld : Nat) (given : Object C) (s : State C E) :
    Delivers [] mutates ld given s s [] [] where
  deliveries := by simp
  once := rfl
  content := by simp
  writable := by simp
  place := by simp
  marked := by simp
  shared := List.Pairwise.nil
  errors := rfl
  grows := Nat.le_refl _
  frame := by simp
  kept := by simp

/-- Two consumers one after the other: the object is passed to both only if it is marked. -/
theorem append (first : Delivers leaves mutates ld given s s₁ errs new)
    (second : Delivers leaves' mutates ld given s₁ s₂ errs' new')
    (same : s₁.heap[ld]? = s.heap[ld]?)
    (apart : (∀ d ∈ new, d.object ≠ ld) ∨ given.readOnly = true) :
    Delivers (leaves ++ leaves') mutates ld given s s₂ (errs ++ errs') (new ++ new') where
  deliveries := by rw [second.deliveries, first.deliveries, append_assoc]
  once := by rw [map_append, first.once, second.once]
  content := forall_mem_append.mpr ⟨first.content, second.content⟩
  writable := forall_mem_append.mpr ⟨first.writable, second.writable⟩
  place := by
    have grows := first.grows
    have grows' := second.grows
    rw [forall_mem_append]
    constructor
    · intro d member
      rcases first.place d member with here | fresh
      · exact .inl here
      · exact .inr ⟨fresh.1, by omega⟩
    · intro d member
      rcases second.place d member with here | fresh
      · exact .inl here
      · exact .inr ⟨by omega, fresh.2⟩
  marked := fun marked => forall_mem_append.mpr ⟨first.marked marked, second.marked marked⟩
  shared := by
    rw [pairwise_append]
    refine ⟨first.shared, second.shared, ?_⟩
    intro d member d' member' equal
    -- what each of the two has allocated lies apart, so the object is the one passed to both
    have both : d.object = ld ∧ d'.object = ld := by
      rcases first.place d member with here | fresh
      · exact ⟨here, by rw [← equal, here]⟩
      · rcases second.place d' member' with here | later <;> omega
    rcases apart with never | marked
    · exact absurd both.1 (never d member)
    · exact ⟨first.marked marked d member both.1, second.marked marked d' member' both.2⟩
  errors := by rw [filterMap_append, first.errors, second.errors]
  grows := Nat.le_trans first.grows second.grows
  frame := by
    intro i old other
    rw [second.frame i (Nat.lt_of_lt_of_le old first.grows) other, first.frame i old other]
  kept := fun marked => (second.kept marked).trans same

theorem of_clone {mutates' : Bool} (mutates : Bool) (inside : ld < s.heap.length)
    (delivers : Delivers leaves mutates' s.heap.length ⟨given.content, false⟩ (s.clone given) s₁ errs new) :
    Delivers leaves mutates ld given s s₁ errs new ∧ (∀ d ∈ new, d.object ≠ ld) ∧ s₁.heap[ld]? = s.heap[ld]? := by
  have size : (s.clone given).heap.length = s.heap.length + 1 := by simp [State.clone]
  have old : ∀ i < s.heap.length, s₁.heap[i]? = s.heap[i]? := by
    intro i inside
    rw [delivers.frame i (by omega) (by omega), State.clone, getElem?_append_left inside]
  have fresh : ∀ d ∈ new, s.heap.length ≤ d.object ∧ d.object < s₁.heap.length := by
    intro d member
    have grows := delivers.grows
    rcases delivers.place d member with here | later <;> omega
  have other : ∀ d ∈ new, d.object ≠ ld := by
    intro d member
    have above := (fresh d member).1
    omega
  refine ⟨{ delivers with
    writable := ?_, place := fun d member => .inr (fresh d member), marked := ?_, grows := ?_
    frame := fun i inside _ => old i inside, kept := fun _ => old ld inside }, other, old ld inside⟩
  · intro d member writes
    exact ⟨(delivers.writable d member writes).1, fun here => absurd here (other d member)⟩
  · intro _ d member here
    exact absurd here (other d member)
  · have grows := delivers.grows
    omega

theorem of_mark (input : s.heap[ld]? = some given)
    (delivers : Delivers leaves mutates ld { given with readOnly := true } (s.markReadOnly ld) s₁ errs new) :
    Delivers leaves mutates ld given s s₁ errs new := by
  have size : (s.markReadOnly ld).heap.length = s.heap.length := by simp [State.markReadOnly]
  refine { delivers with place := ?_, marked := ?_, grows := ?_, frame := ?_, kept := ?_ }
  · rw [← size]
    exact delivers.place
  · exact fun _ => delivers.marked rfl
  · rw [← size]
    exact delivers.grows
  · intro i inside other
    rw [delivers.frame i (by rw [size]; exact inside) other, State.markReadOnly]
    simp [Ne.symm other]
  · intro marked
    rw [delivers.kept rfl, State.markReadOnly, input]
    simp [input, ← marked]

theorem weaken {mutates' : Bool} (delivers : Delivers leaves mutates ld given s s₁ errs new)
    (more : mutates = true → mutates' = true) : Delivers leaves mutates' ld given s s₁ errs new :=
  { delivers with
    writable := fun d member writes =>
      ⟨(delivers.writable d member writes).1, fun here => more ((delivers.writable d member writes).2 here)⟩ }

end Delivers

namespace Consumer

/-- A leaf that writes may only be given data that is not marked. A fan-out may be given any. -/
def Accepts (lc : Consumer C E) (given : Object C) : Prop :=
  ∀ l, lc = .leaf l → l.mutatesData = true → given.readOnly = false

theorem accepts_of_reads {lc : Consumer C E} (reads : lc.mutatesData = false) (given : Object C) :
    lc.Accepts given := by
  rintro l rfl writes
  rw [mutatesData, writes] at reads
  cases reads

def Meets (lc : Consumer C E) : Prop :=
  ∀ (ld : Nat) (s : State C E) (given : Object C), s.heap[ld]? = some given → lc.Accepts given →
    ∃ new, Delivers lc.leaves lc.mutatesData ld given s (consume lc ld s).1 (consume lc ld s).2 new

theorem meets_leaf (l : Leaf C E) : (leaf l).Meets := by
  intro ld s given input accepts
  refine ⟨[⟨l, ld, given⟩], ?_⟩
  have called : consume (.leaf l) ld s = (s.deliver l ld given, l.result.toList) := by rw [consume, input]
  rw [called]
  refine ⟨rfl, by simp [leaves], by simp, ?_, by simp, by simp, by simp, ?_, by simp [State.deliver], ?_, ?_⟩
  · intro d member writes
    obtain rfl := mem_singleton.mp member
    exact ⟨accepts l rfl writes, fun _ => writes⟩
  · cases outcome : l.result with
    | none | some => simp [outcome]
  · intro i _ other
    simp [State.deliver, Ne.symm other]
  · intro marked
    simp [State.deliver, input, marked]

/-- Every consumer that writes gets a copy, except the last one of a fan-out that has no others. -/
theorem meets_mutable (alone : Bool) {mutable : List (Consumer C E)} (each : ∀ lc ∈ mutable, lc.Meets)
    (ld : Nat) (s : State C E) (given : Object C) (input : s.heap[ld]? = some given) :
    ∃ new, Delivers (leavesAll mutable) (!mutable.isEmpty && alone) ld given s
        (consumeMutable mutable alone ld s).1 (consumeMutable mutable alone ld s).2 new ∧
      (alone = false → (∀ d ∈ new, d.object ≠ ld) ∧ (consumeMutable mutable alone ld s).1.heap[ld]? = s.heap[ld]?) := by
  induction mutable generalizing s with
  | nil =>
    refine ⟨[], ?_, by simp [consumeMutable]⟩
    rw [consumeMutable]
    exact Delivers.nothing _ ld given s
  | cons lc rest recurse =>
    have inside : ld < s.heap.length := (List.getElem?_eq_some_iff.mp input).1
    rw [consumeMutable, input]
    dsimp only
    split
    · rename_i last
      simp only [Bool.and_eq_true, List.isEmpty_iff, Bool.not_eq_true'] at last
      obtain ⟨⟨rfl, rfl⟩, writable⟩ := last
      obtain ⟨new, delivers⟩ := each lc List.mem_cons_self ld s given input fun _ _ _ => writable
      refine ⟨new, ?_, by simp⟩
      rw [leavesAll, leavesAll, List.append_nil]
      exact delivers.weaken fun _ => rfl
    · have copied : (s.clone given).heap[s.heap.length]? = some ⟨given.content, false⟩ := by simp [State.clone]
      obtain ⟨new, delivers⟩ := each lc mem_cons_self _ _ _ copied fun _ _ _ => rfl
      obtain ⟨first, apart, same⟩ := Delivers.of_clone (!(lc :: rest).isEmpty && alone) inside delivers
      obtain ⟨new', second, kept⟩ := recurse (fun lc member => each lc (mem_cons_of_mem _ member)) _ (same.trans input)
      refine ⟨new ++ new', ?_, ?_⟩
      · rw [leavesAll]
        apply first.append (second.weaken ?_) same (.inl apart)
        simp
      · intro others
        obtain ⟨apart', same'⟩ := kept others
        exact ⟨forall_mem_append.mpr ⟨apart, apart'⟩, same'.trans (same.trans input)⟩

theorem meets_readonly {readonly : List (Consumer C E)} (each : ∀ lc ∈ readonly, lc.Meets)
    (reads : ∀ lc ∈ readonly, lc.mutatesData = false) (ld : Nat) (s : State C E) (given : Object C)
    (input : s.heap[ld]? = some given) (marked : readonly.length ≤ 1 ∨ given.readOnly = true) :
    ∃ new, Delivers (leavesAll readonly) false ld given s
      (consumeReadonly readonly ld s).1 (consumeReadonly readonly ld s).2 new := by
  induction readonly generalizing s with
  | nil =>
    refine ⟨[], ?_⟩
    rw [consumeReadonly]
    exact Delivers.nothing _ ld given s
  | cons lc rest recurse =>
    have reading := reads lc mem_cons_self
    obtain ⟨new, delivers⟩ := each lc mem_cons_self ld s given input (accepts_of_reads reading given)
    rw [reading] at delivers
    rw [consumeReadonly]
    dsimp only
    rcases marked with single | marked
    · have last : rest = [] := by simpa using single
      subst last
      refine ⟨new, ?_⟩
      rw [consumeReadonly, leavesAll, leavesAll, append_nil]
      rw [append_nil]
      exact delivers
    · have same := delivers.kept marked
      obtain ⟨new', second⟩ := recurse (fun lc member => each lc (mem_cons_of_mem _ member))
        (fun lc member => reads lc (mem_cons_of_mem _ member)) _ (same.trans input) (.inr marked)
      exact ⟨new ++ new', delivers.append second same (.inr marked)⟩

theorem meets_fanout {mutable readonly : List (Consumer C E)} (first : ∀ lc ∈ mutable, lc.Meets)
    (second : ∀ lc ∈ readonly, lc.Meets) (reads : ∀ lc ∈ readonly, lc.mutatesData = false) :
    (fanout mutable readonly).Meets := by
  intro ld s given input _
  obtain ⟨new, delivers, kept⟩ := meets_mutable readonly.isEmpty first ld s given input
  rw [consume, leaves, mutatesData]
  dsimp only
  generalize consumeMutable mutable readonly.isEmpty ld s = written at delivers kept
  cases readonly with
  | nil =>
    refine ⟨new, ?_⟩
    rw [leavesAll, consumeReadonly]
    simpa using delivers
  | cons lc rest =>
    obtain ⟨apart, same⟩ := kept rfl
    have here := same.trans input
    -- what the readers get, with or without the mark
    have rest : ∃ new', Delivers (leavesAll (lc :: rest)) false ld given written.1
        (consumeReadonly (lc :: rest) ld
          (if 1 < (lc :: rest).length && !written.1.isReadOnly ld then written.1.markReadOnly ld else written.1)).1
        (consumeReadonly (lc :: rest) ld
          (if 1 < (lc :: rest).length && !written.1.isReadOnly ld then written.1.markReadOnly ld else written.1)).2
        new' := by
      split
      · have marking : (written.1.markReadOnly ld).heap[ld]? = some { given with readOnly := true } := by
          simp [State.markReadOnly, here]
        obtain ⟨new', delivers'⟩ := meets_readonly second reads ld _ _ marking (.inr rfl)
        exact ⟨new', Delivers.of_mark here delivers'⟩
      · rename_i unmarked
        apply meets_readonly second reads ld _ given here
        rw [State.isReadOnly, here] at unmarked
        cases rest with
        | nil => exact .inl (Nat.le_refl 1)
        | cons => exact .inr (by simpa using unmarked)
    obtain ⟨new', delivers'⟩ := rest
    exact ⟨new ++ new', delivers.append (delivers'.weaken (by simp)) same (.inl apart)⟩

theorem meets_of_sorted {lc : Consumer C E} (sorted : lc.Sorted) : lc.Meets := by
  induction sorted with
  | leaf l => exact meets_leaf l
  | fanout reads _ _ first second => exact meets_fanout first second reads

theorem sorted_newFanout {lcs : List (Consumer C E)} (each : ∀ lc ∈ lcs, lc.Sorted) : (newFanout lcs).Sorted := by
  fun_cases newFanout lcs with
  | case1 lc mutates =>
    apply Sorted.fanout (by simp) each
    simp
  | case2 lc reads => exact each lc mem_cons_self
  | case3 lcs =>
    apply Sorted.fanout
    · intro lc member
      simpa using (mem_filter.mp member).2
    · intro lc member
      exact each lc (mem_filter.mp member).1
    · intro lc member
      exact each lc (mem_filter.mp member).1

theorem leavesAll_eq (lcs : List (Consumer C E)) : leavesAll lcs = lcs.flatMap leaves := by
  induction lcs with
  | nil => rw [leavesAll, flatMap_nil]
  | cons lc rest recurse => rw [leavesAll, recurse, flatMap_cons]

theorem leaves_newFanout (lcs : List (Consumer C E)) : (newFanout lcs).leaves.Perm (leavesAll lcs) := by
  fun_cases newFanout lcs with
  | case1 lc mutates => simp [leaves, leavesAll]
  | case2 lc reads => simp [leavesAll]
  | case3 lcs =>
    rw [leaves, leavesAll_eq, leavesAll_eq, leavesAll_eq, ← flatMap_append]
    exact (filter_append_perm mutatesData lcs).flatMap_right leaves

end Consumer

namespace Tree

mutual

theorem sorted_build : ∀ tree : Tree C E, tree.build.Sorted
  | .leaf l => by
      rw [build]
      exact Consumer.Sorted.leaf l
  | .node children => by
      rw [build]
      exact Consumer.sorted_newFanout (sorted_buildAll children)

theorem sorted_buildAll : ∀ children : List (Tree C E), ∀ lc ∈ buildAll children, lc.Sorted
  | [] => by simp [buildAll]
  | child :: rest => by
      rw [buildAll, forall_mem_cons]
      exact ⟨sorted_build child, sorted_buildAll rest⟩

end

mutual

theorem leaves_build : ∀ tree : Tree C E, tree.build.leaves.Perm tree.leaves
  | .leaf l => by rw [build, Consumer.leaves, leaves]
  | .node children => by
      rw [build, leaves]
      exact (Consumer.leaves_newFanout _).trans (leaves_buildAll children)

theorem leaves_buildAll : ∀ children : List (Tree C E),
    (Consumer.leavesAll (buildAll children)).Perm (leavesAll children)
  | [] => by rw [buildAll, Consumer.leavesAll, leavesAll]
  | child :: rest => by
      rw [buildAll, Consumer.leavesAll, leavesAll]
      exact (leaves_build child).append (leaves_buildAll rest)

end

theorem accepts_node (children : List (Tree C E)) (given : Object C) : (node children).build.Accepts given := by
  rw [build]
  fun_cases Consumer.newFanout (buildAll children) with
  | case1 | case3 =>
    intro l leaf
    cases leaf
  | case2 lc reads =>
    apply Consumer.accepts_of_reads
    simpa using reads

/-- One call of a tree of fan-outs, with data that may be marked already. A leaf that writes has an object that nobody
else has, apart from a caller that the root tells so. -/
theorem consume_isolates (children : List (Tree C E)) (ld : Nat) (s : State C E) (given : Object C)
    (input : s.heap[ld]? = some given) :
    ∃ new, (consume (node children).build ld s).1.deliveries = s.deliveries ++ new ∧
      (new.map Delivery.leaf).Perm (node children).leaves ∧
      (∀ d ∈ new, d.given.content = given.content) ∧
      (∀ d ∈ new, d.leaf.mutatesData = true → d.given.readOnly = false ∧
        (s.heap.length ≤ d.object ∨ d.object = ld ∧ (node children).build.mutatesData = true)) ∧
      new.Pairwise (fun d d' => d.object = d'.object → (d.given.readOnly = true ∧ d'.given.readOnly = true) ∧
        d.leaf.mutatesData = false ∧ d'.leaf.mutatesData = false) ∧
      (consume (node children).build ld s).2.Perm ((node children).leaves.filterMap Leaf.result) := by
  obtain ⟨new, delivers⟩ := Consumer.meets_of_sorted (sorted_build (node children)) ld s given input
    (accepts_node children given)
  have each : (new.map Delivery.leaf).Perm (node children).leaves := by
    rw [delivers.once]
    exact leaves_build (node children)
  have reads : ∀ d ∈ new, d.given.readOnly = true → d.leaf.mutatesData = false := by
    intro d member marked
    cases writes : d.leaf.mutatesData with
    | false => rfl
    | true =>
      rw [(delivers.writable d member writes).1] at marked
      cases marked
  refine ⟨new, delivers.deliveries, each, delivers.content, ?_, ?_, ?_⟩
  · intro d member writes
    obtain ⟨writable, caller⟩ := delivers.writable d member writes
    refine ⟨writable, ?_⟩
    rcases delivers.place d member with here | fresh
    · exact .inr ⟨here, caller here⟩
    · exact .inl fresh.1
  · apply delivers.shared.imp_of_mem
    intro d d' member member' shared equal
    obtain ⟨marked, marked'⟩ := shared equal
    exact ⟨⟨marked, marked'⟩, reads d member marked, reads d' member' marked'⟩
  · have errors := each.filterMap Leaf.result
    rw [filterMap_map] at errors
    rw [delivers.errors]
    exact errors

/-- Two writers, one below a second fan-out, with two readers of which one fails. -/
def mixed : List (Tree (List Nat) String) :=
  [.leaf ⟨true, (1 :: ·), none⟩, .leaf ⟨false, id, some "queue is full"⟩,
    .node [.leaf ⟨false, id, none⟩, .leaf ⟨true, (2 :: ·), some "timeout"⟩]]

theorem consume_isolates_mixed :
    ∃ new, (consume (node mixed).build 0 ⟨[⟨[7], true⟩], []⟩).1.deliveries = new ∧ new.length = 4 ∧
      (∀ d ∈ new, d.given.content = [7]) ∧
      (∀ d ∈ new, d.leaf.mutatesData = true → d.given.readOnly = false ∧ d.object ≠ 0) ∧
      (consume (node mixed).build 0 ⟨[⟨[7], true⟩], []⟩).2.Perm ["queue is full", "timeout"] := by
  obtain ⟨new, deliveries, each, content, writable, _, errors⟩ :=
    consume_isolates mixed 0 ⟨[⟨[7], true⟩], []⟩ ⟨[7], true⟩ rfl
  refine ⟨new, by simpa using deliveries, ?_, content, ?_, errors⟩
  · rw [← length_map Delivery.leaf, each.length_eq]
    rfl
  · intro d member writes
    obtain ⟨unmarked, fresh | here⟩ := writable d member writes
    · exact ⟨unmarked, Nat.ne_of_gt fresh⟩
    · exact absurd here.2 (by decide +kernel)

end Tree

end CollectorFormal.Fanout
