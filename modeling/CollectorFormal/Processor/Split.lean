import CollectorFormal.Batch.LogsTraces

/-! splitLogs and splitTraces of the batch processor, which differ in names: a request of exactly the given number
of records out of a larger one. The closures share the counter of what was copied. -/

namespace CollectorFormal.Processor

open Lib Batch List

variable {R S L H C : Type}

/-- totalCopied and the message that is being filled. -/
structure Copied (size : Nat) (C : Type) where
  total : Nat
  within : total ≤ size
  dest : List C := []

section definitions
variable {size : Nat}

def Copied.move (weight : Nat) (src : C) (acc : Copied size C) (fits : acc.total + weight ≤ size) :
    Copied size C where
  total := acc.total + weight
  within := fits
  dest := acc.dest ++ [src]

def copyRecord (acc : Copied size L) (src : L) : Copied size L × L × Bool :=
  if done : acc.total = size then (acc, src, false)
  else (acc.move 1 src (Nat.lt_of_le_of_ne acc.within done), src, true)

/-- A message moves as a whole if it fits. Otherwise its children are visited, and it is
kept unless that `emptied` it. -/
def copyGroup (weight : Envelope H C → Nat) (copyChild : Copied size C → C → Copied size C × C × Bool)
    (emptied : List C → Bool) (acc : Copied size (Envelope H C)) (src : Envelope H C) :
    Copied size (Envelope H C) × Envelope H C × Bool :=
  if acc.total = size then (acc, src, false)
  else if fits : acc.total + weight src ≤ size then (acc.move (weight src) src fits, src, true)
  else
    let r := removeIf copyChild { total := acc.total, within := acc.within } src.children
    ({ total := r.1.total
       within := r.1.within
       dest := acc.dest ++ [{ src with children := r.1.dest }] },
      { src with children := r.2 }, emptied r.2)

def copyScope : Copied size (Envelope S L) → Envelope S L → Copied size (Envelope S L) × Envelope S L × Bool :=
  copyGroup (·.children.length) copyRecord fun _ => false

/-- resourceLRC and resourceSC. -/
def resourceCount (src : Envelope R (Envelope S L)) : Nat :=
  (src.children.map fun scope => scope.children.length).sum

def copyResource : Copied size (Envelope R (Envelope S L)) → Envelope R (Envelope S L) →
    Copied size (Envelope R (Envelope S L)) × Envelope R (Envelope S L) × Bool :=
  copyGroup resourceCount copyScope fun rest => decide (rest.length = 0)

/-- What is returned, and what is left in the source. A small enough source is itself returned. -/
def splitTree (size : Nat) (src : List (Envelope R (Envelope S L))) :
    List (Envelope R (Envelope S L)) × List (Envelope R (Envelope S L)) :=
  if recordCount src ≤ size then (src, src)
  else
    let r := removeIf copyResource { total := 0, within := Nat.zero_le size } src
    (r.1.dest, r.2)

def splitLogs (size : Nat) (src : Logs R S L) : Logs R S L × Logs R S L := splitTree size src

def splitTraces (size : Nat) (src : Traces R S L) : Traces R S L × Traces R S L := splitTree size src

end definitions

section copies
variable {size : Nat} {β : Type}

/-- The counter is where it started plus what is in the destination. -/
def Copied.Counted (start : Nat) (content : C → List β) (acc : Copied size C) : Prop :=
  acc.total = start + (acc.dest.flatMap content).length

structure Copies (visit : Copied size C → C → Copied size C × C × Bool) (content : C → List β) : Prop where
  total : ∀ acc src, (visit acc src).1.total = min size (acc.total + (content src).length)
  counted : ∀ start acc src, acc.Counted start content → (visit acc src).1.Counted start content
  moves : Moves visit (fun acc => acc.dest.flatMap content) content

variable (acc : Copied size L)

theorem copyRecord_full (full : acc.total = size) : Halted copyRecord acc := by
  intro src
  rw [copyRecord, dif_pos full]

theorem copyRecord_room (src : L) (room : acc.total ≠ size) :
    copyRecord acc src = (acc.move 1 src (Nat.lt_of_le_of_ne acc.within room), src, true) := by
  rw [copyRecord, dif_neg room]

theorem copyRecord_copies :
    Copies (copyRecord : Copied size L → L → Copied size L × L × Bool) fun record => [record] where
  total acc src := by
    have within := acc.within
    by_cases full : acc.total = size
    · rw [copyRecord_full acc full, length_singleton]
      simp only
      omega
    · rw [copyRecord_room acc src full, length_singleton]
      simp only [Copied.move]
      omega
  counted start acc src counted := by
    by_cases full : acc.total = size
    · rw [copyRecord_full acc full]
      exact counted
    · rw [copyRecord_room acc src full]
      rw [Copied.Counted] at counted ⊢
      simp only [Copied.move, flatMap_append, length_append, flatMap_singleton, length_singleton]
      omega
  moves := {
    removed := by
      intro acc src removed
      by_cases full : acc.total = size
      · rw [copyRecord_full acc full] at removed
        cases removed
      · rw [copyRecord_room acc src full]
        simp only [Copied.move, flatMap_append, flatMap_singleton]
    kept := by
      intro acc src kept
      by_cases full : acc.total = size
      · rw [copyRecord_full acc full]
        exact ⟨copyRecord_full acc full, rfl⟩
      · rw [copyRecord_room acc src full] at kept
        cases kept }

section group
variable {weight : Envelope H C → Nat} {copyChild : Copied size C → C → Copied size C × C × Bool}
  {emptied : List C → Bool} {content : C → List β} (acc : Copied size (Envelope H C))

theorem copyGroup_full (full : acc.total = size) :
    Halted (copyGroup weight copyChild emptied) acc := by
  intro src
  rw [copyGroup, if_pos full]

theorem copyGroup_whole (src : Envelope H C) (room : acc.total ≠ size) (fits : acc.total + weight src ≤ size) :
    copyGroup weight copyChild emptied acc src = (acc.move (weight src) src fits, src, true) := by
  rw [copyGroup, if_neg room, dif_pos fits]

theorem copyGroup_cut (copies : Copies copyChild content)
    (weighs : ∀ src, weight src = (src.flatten content).length) (acc : Copied size (Envelope H C))
    (src : Envelope H C) (room : acc.total ≠ size) (large : ¬ acc.total + weight src ≤ size) :
    ∃ (next : Copied size (Envelope H C)) (cut : List C) (rest : List C),
      copyGroup weight copyChild emptied acc src = (next, { src with children := rest }, emptied rest) ∧
      next.total = size ∧ next.dest = acc.dest ++ [{ src with children := cut }] ∧
      cut.flatMap content ++ rest.flatMap content = src.children.flatMap content ∧
      (cut.flatMap content).length = size - acc.total := by
  have within := acc.within
  let start : Copied size C := { total := acc.total, within := acc.within }
  have total := removeIf_saturates Copied.total (fun child => (content child).length) size copies.total
    start src.children within
  have counted := removeIf_invariant (copies.counted acc.total) start src.children (by simp [start, Copied.Counted])
  have conserved := removeIf_conserves copies.moves start src.children
  have length : weight src = (src.children.map fun child => (content child).length).sum := by
    rw [weighs, Envelope.flatten, length_map, length_flatMap]
  refine ⟨_, _, _, by rw [copyGroup, if_neg room, dif_neg large], ?_, rfl, ?_, ?_⟩
  · rw [total]
    simp only [start]
    omega
  · simpa [start] using conserved
  · rw [Copied.Counted] at counted
    simp only [start] at total counted
    omega

theorem copyGroup_copies (copies : Copies copyChild content) (weighs : ∀ src, weight src = (src.flatten content).length)
    (empties : ∀ rest, emptied rest = true → rest = []) :
    Copies (copyGroup weight copyChild emptied) (Envelope.flatten content) where
  total acc src := by
    have within := acc.within
    rw [← weighs]
    by_cases full : acc.total = size
    · rw [copyGroup_full acc full]
      simp only
      omega
    · by_cases fits : acc.total + weight src ≤ size
      · rw [copyGroup_whole acc src full fits]
        simp only [Copied.move]
        omega
      · obtain ⟨next, cut, rest, answer, total, -⟩ := copyGroup_cut copies weighs acc src full fits
        rw [answer, total]
        omega
  counted start acc src counted := by
    have within := acc.within
    by_cases full : acc.total = size
    · rw [copyGroup_full acc full]
      exact counted
    · rw [Copied.Counted] at counted ⊢
      by_cases fits : acc.total + weight src ≤ size
      · rw [copyGroup_whole acc src full fits]
        simp only [Copied.move, flatMap_append, length_append, flatMap_singleton, ← weighs src]
        omega
      · obtain ⟨next, cut, rest, answer, total, dest, -, length⟩ :=
          copyGroup_cut copies weighs acc src full fits
        rw [answer, total, dest]
        simp only [flatMap_append, length_append, flatMap_singleton, Envelope.flatten, length_map, length]
        omega
  moves := {
    removed := by
      intro acc src removed
      by_cases full : acc.total = size
      · rw [copyGroup_full acc full] at removed
        cases removed
      · by_cases fits : acc.total + weight src ≤ size
        · rw [copyGroup_whole acc src full fits]
          simp only [Copied.move, flatMap_append, flatMap_singleton]
        · obtain ⟨next, cut, rest, answer, -, dest, whole, -⟩ :=
            copyGroup_cut copies weighs acc src full fits
          rw [answer] at removed ⊢
          rw [empties rest removed, flatMap_nil, append_nil] at whole
          simp only [dest, flatMap_append, flatMap_singleton, Envelope.flatten, whole]
    kept := by
      intro acc src kept
      by_cases full : acc.total = size
      · rw [copyGroup_full acc full]
        exact ⟨copyGroup_full acc full, rfl⟩
      · by_cases fits : acc.total + weight src ≤ size
        · rw [copyGroup_whole acc src full fits] at kept
          cases kept
        · obtain ⟨next, cut, rest, answer, total, dest, whole, -⟩ :=
            copyGroup_cut copies weighs acc src full fits
          rw [answer]
          refine ⟨copyGroup_full next total, ?_⟩
          simp only [dest, flatMap_append, flatMap_singleton, Envelope.flatten, append_assoc, ← map_append, whole] }

end group

theorem copyScope_copies :
    Copies (copyScope : Copied size (Envelope S L) → _) (Envelope.flatten fun record => [record]) :=
  copyGroup_copies copyRecord_copies (fun src => by simp [Envelope.flatten]) fun _ never => by cases never

theorem copyResource_copies : Copies (copyResource : Copied size (Envelope R (Envelope S L)) → _) flattenResource :=
  copyGroup_copies copyScope_copies (fun src => by simp [resourceCount, Envelope.flatten, length_flatMap])
    fun rest empty => length_eq_zero_iff.mp (of_decide_eq_true empty)

theorem splitTree_spec (src : List (Envelope R (Envelope S L))) (large : size < recordCount src) :
    (splitTree size src).1.flatMap flattenResource ++ (splitTree size src).2.flatMap flattenResource =
      src.flatMap flattenResource ∧
    recordCount (splitTree size src).1 = size := by
  let start : Copied size (Envelope R (Envelope S L)) := { total := 0, within := Nat.zero_le size }
  have split : splitTree size src =
      ((removeIf copyResource start src).1.dest, (removeIf copyResource start src).2) := by
    rw [splitTree, if_neg (Nat.not_le_of_lt large)]
  have total := removeIf_saturates Copied.total (fun resource => (flattenResource resource).length) size
    copyResource_copies.total start src (Nat.zero_le size)
  have counted := removeIf_invariant (copyResource_copies.counted 0) start src (by simp [start, Copied.Counted])
  have conserved := removeIf_conserves copyResource_copies.moves start src
  rw [split]
  refine ⟨conserved, ?_⟩
  rw [recordCount_eq, length_flatMap] at large
  rw [Copied.Counted, Nat.zero_add, ← recordCount_eq] at counted
  rw [← counted, total]
  simp only [start]
  omega

end copies

end CollectorFormal.Processor
