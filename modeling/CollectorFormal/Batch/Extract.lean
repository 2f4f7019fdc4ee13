import CollectorFormal.Lib.RemoveIf
import Mathlib.Algebra.BigOperators.Group.List.Basic
import Mathlib.Algebra.Order.BigOperators.Group.List
import Mathlib.Algebra.Order.Ring.Int

/-! Taking the first part, up to a capacity, out of a tree of telemetry.

The levels of the trees have one form, and so have the closures passed to RemoveIf: one for the records, which move
as a whole or not at all, and one for the messages above, which can be cut. Sizes are the source's int values. -/

namespace CollectorFormal.Batch

open Lib List

variable {H C β : Type}

/-- A message with its own content, a schema URL and repeated children. -/
structure Envelope (H C : Type) where
  header : H
  schemaUrl : String
  children : List C
  deriving DecidableEq

/-- A message as NewResourceLogs and the like return it. -/
def Envelope.new [Inhabited H] : Envelope H C := ⟨default, "", []⟩

/-- The children's content, each with the header and schema URL it came under. -/
def Envelope.flatten (content : C → List β) (message : Envelope H C) : List (H × String × β) :=
  (message.children.flatMap content).map fun entry => (message.header, message.schemaUrl, entry)

theorem flatten_childless (content : C → List β) (message : Envelope H C)
    (none : message.children.length = 0) : message.flatten content = [] := by
  rw [Envelope.flatten, length_eq_zero_iff.mp none]
  rfl

structure Extraction (C : Type) where
  dest : List C := []
  capacityLeft : Int
  removedSize : Int := 0

def Extraction.take (size : Int) (src : C) (acc : Extraction C) : Extraction C where
  dest := acc.dest ++ [src]
  capacityLeft := acc.capacityLeft - size
  removedSize := acc.removedSize + size

/-- What an extract function returns, with what it leaves in its source. -/
structure Extracted (D : Type) where
  dest : D
  rest : D
  removedSize : Int

section definitions
variable (deltaSize : Int → Int) (size : C → Int)

def takeRecord (acc : Extraction C) (src : C) : Extraction C × C × Bool :=
  if acc.capacityLeft = 0 then (acc, src, false)
  else
    let recordSize := deltaSize (size src)
    if recordSize > acc.capacityLeft then ({ acc with capacityLeft := 0 }, src, false)
    else (acc.take recordSize src, src, true)

/-- `length` is read after the extracted message may have been moved, which leaves an empty message behind. -/
def takeGroup (extract : C → Int → Extracted C) (length : C → Nat) (empty : C) (acc : Extraction C)
    (src : C) : Extraction C × C × Bool :=
  if acc.capacityLeft = 0 then (acc, src, false)
  else
    let rawSize := size src
    let groupSize := deltaSize rawSize
    if groupSize > acc.capacityLeft then
      let ext := extract src acc.capacityLeft
      let moved := if length ext.dest > 0 then (acc.dest ++ [ext.dest], empty) else (acc.dest, ext.dest)
      ({ dest := moved.1
         capacityLeft := 0
         removedSize := acc.removedSize + ext.removedSize +
           (groupSize - rawSize - (deltaSize (rawSize - ext.removedSize) - (rawSize - ext.removedSize))) },
        ext.rest, decide (length moved.2 ≠ 0))
    else (acc.take groupSize src, src, true)

def Envelope.extract (size : Envelope H C → Int) (visit : Extraction C → C → Extraction C × C × Bool)
    (src : Envelope H C) (capacity : Int) : Extracted (Envelope H C) :=
  let dest : Envelope H C := { src with children := [] }
  -- the message needs room for its own length in its parent
  let capacityLeft := capacity - (deltaSize capacity - capacity) - size dest
  let r := removeIf visit { capacityLeft := capacityLeft } src.children
  { dest := { dest with children := r.1.dest }
    rest := { src with children := r.2 }
    removedSize := r.1.removedSize }

def extractAll (size : List C → Int) (visit : Extraction C → C → Extraction C × C × Bool) (src : List C)
    (capacity : Int) : Extracted (List C) :=
  let r := removeIf visit { capacityLeft := capacity - size [] } src
  ⟨r.1.dest, r.2, r.1.removedSize⟩

end definitions

section conservation
variable {deltaSize : Int → Int} {size : C → Int} {content : C → List β}

/-- What was extracted, followed by what was left, is what there was. -/
def Conserves {D : Type} (content : D → List β) (extract : D → Int → Extracted D) : Prop :=
  ∀ src capacity, content (extract src capacity).dest ++ content (extract src capacity).rest = content src

theorem takeRecord_full (acc : Extraction C) (full : acc.capacityLeft = 0) :
    Halted (takeRecord deltaSize size) acc := by
  intro src
  rw [takeRecord, if_pos full]

theorem takeRecord_moves :
    Moves (takeRecord deltaSize size) (fun acc => acc.dest.flatMap content) content where
  removed acc src removed := by
    by_cases full : acc.capacityLeft = 0
    · rw [takeRecord_full acc full src] at removed
      cases removed
    · by_cases large : deltaSize (size src) > acc.capacityLeft
      · simp only [takeRecord, if_neg full, if_pos large] at removed
        cases removed
      · simp [takeRecord, Extraction.take, if_neg full, if_neg large]
  kept acc src kept := by
    by_cases full : acc.capacityLeft = 0
    · rw [takeRecord_full acc full src]
      exact ⟨takeRecord_full acc full, rfl⟩
    · by_cases large : deltaSize (size src) > acc.capacityLeft
      · simp only [takeRecord, if_neg full, if_pos large]
        exact ⟨takeRecord_full _ rfl, trivial⟩
      · simp only [takeRecord, if_neg full, if_neg large] at kept
        cases kept

variable {extract : C → Int → Extracted C} {length : C → Nat} {empty : C}

theorem takeGroup_full (acc : Extraction C) (full : acc.capacityLeft = 0) :
    Halted (takeGroup deltaSize size extract length empty) acc := by
  intro src
  rw [takeGroup, if_pos full]

theorem takeGroup_cut_kept (nothing : length empty = 0) (ext : C) (dest : List C) :
    decide (length (if length ext > 0 then (dest ++ [ext], empty) else (dest, ext)).2 ≠ 0) = false := by
  split
  · simp [nothing]
  · next none => simpa using none

theorem takeGroup_moves (conserves : Conserves content extract) (nothing : length empty = 0)
    (without : ∀ message, length message = 0 → content message = []) :
    Moves (takeGroup deltaSize size extract length empty) (fun acc => acc.dest.flatMap content) content where
  removed acc src removed := by
    by_cases full : acc.capacityLeft = 0
    · rw [takeGroup_full acc full src] at removed
      cases removed
    · by_cases large : deltaSize (size src) > acc.capacityLeft
      · simp only [takeGroup, if_neg full, if_pos large, takeGroup_cut_kept nothing] at removed
        cases removed
      · simp [takeGroup, Extraction.take, if_neg full, if_neg large]
  kept acc src kept := by
    by_cases full : acc.capacityLeft = 0
    · rw [takeGroup_full acc full src]
      exact ⟨takeGroup_full acc full, rfl⟩
    · by_cases large : deltaSize (size src) > acc.capacityLeft
      · simp only [takeGroup, if_neg full, if_pos large]
        refine ⟨takeGroup_full _ rfl, ?_⟩
        have cut := conserves src acc.capacityLeft
        split
        · simp only [flatMap_append, flatMap_singleton, append_assoc, cut]
        · next none =>
            rw [without _ (Nat.eq_zero_of_not_pos none), nil_append] at cut
            rw [cut]
      · simp only [takeGroup, if_neg full, if_neg large] at kept
        cases kept

variable {visit : Extraction C → C → Extraction C × C × Bool}

section
variable (moves : Moves visit (fun acc => acc.dest.flatMap content) content)
include moves

theorem extractAll_conserves {size : List C → Int} :
    Conserves (fun src : List C => src.flatMap content) (extractAll size visit) := by
  intro src capacity
  exact removeIf_conserves moves _ src

theorem Envelope.extract_conserves {size : Envelope H C → Int} :
    Conserves (Envelope.flatten content) (Envelope.extract deltaSize size visit) := by
  intro src capacity
  simp only [Envelope.flatten, Envelope.extract]
  rw [← map_append, removeIf_conserves moves]
  rfl

end

end conservation

section fitting
variable {deltaSize : Int → Int} {size : C → Int} {extract : C → Int → Extracted C} {length : C → Nat} {empty : C}

theorem takeGroup_grows (acc : Extraction C) (src : C) :
    acc.dest <+: (takeGroup deltaSize size extract length empty acc src).1.dest := by
  unfold takeGroup
  simp only
  split
  · exact prefix_rfl
  · split
    · simp only
      split
      · exact prefix_append _ _
      · exact prefix_rfl
    · exact prefix_append _ _

theorem takeGroup_takes_fitting (front back : List C) (acc : Extraction C)
    (positive : ∀ src ∈ front, 0 < deltaSize (size src))
    (fits : (front.map fun src => deltaSize (size src)).sum ≤ acc.capacityLeft) :
    acc.dest ++ front <+: (removeIf (takeGroup deltaSize size extract length empty) acc (front ++ back)).1.dest := by
  induction front generalizing acc with
  | nil =>
    have grows (state : Extraction C) (src : C) (grown : acc.dest <+: state.dest) :
        acc.dest <+: (takeGroup deltaSize size extract length empty state src).1.dest :=
      grown.trans (takeGroup_grows state src)
    rw [append_nil]
    exact removeIf_invariant grows acc back prefix_rfl
  | cons src front ih =>
    have here := positive src mem_cons_self
    have others : ∀ other ∈ front, 0 < deltaSize (size other) := by
      intro other member
      exact positive other (mem_cons_of_mem src member)
    have rest : 0 ≤ (front.map fun src => deltaSize (size src)).sum := by
      apply sum_nonneg
      simp only [mem_map]
      rintro _ ⟨other, member, rfl⟩
      exact (others other member).le
    rw [map_cons, sum_cons] at fits
    have visit : takeGroup deltaSize size extract length empty acc src =
        (acc.take (deltaSize (size src)) src, src, true) := by
      rw [takeGroup, if_neg (by omega), if_neg (by omega)]
    rw [cons_append, removeIf, visit]
    have taken := ih (acc.take (deltaSize (size src)) src) others (by simp only [Extraction.take]; omega)
    simpa [Extraction.take] using taken

end fitting

end CollectorFormal.Batch
