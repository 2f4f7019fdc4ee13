import CollectorFormal.Batch.Sizer
import CollectorFormal.Batch.MergeSplit

/-! Bytes taken out and bytes left, by sizes on the wire.

An extraction takes the children that fit one after the other and then meets the first one that does not, which
decides whether the batch stays within its limit. -/

namespace CollectorFormal.Batch

open Lib List Envelope

variable {H C β : Type}

section fitting
variable (size : C → Int)

def fitting : Int → List C → List C
  | _, [] => []
  | capacity, src :: rest =>
    if capacity = 0 ∨ protoDelta (size src) > capacity then []
    else src :: fitting (capacity - protoDelta (size src)) rest

/-- The first child that does not fit, with the capacity left for it. -/
def cutAt : Int → List C → Option (C × Int)
  | _, [] => none
  | capacity, src :: rest =>
    if capacity = 0 then none
    else if protoDelta (size src) > capacity then some (src, capacity)
    else cutAt (capacity - protoDelta (size src)) rest

variable {size}

@[simp]
theorem repeatedSize_nil : repeatedSize size [] = 0 := rfl

@[simp]
theorem repeatedSize_cons (src : C) (rest : List C) :
    repeatedSize size (src :: rest) = protoDelta (size src) + repeatedSize size rest :=
  sum_cons

@[simp]
theorem repeatedSize_append (front back : List C) :
    repeatedSize size (front ++ back) = repeatedSize size front + repeatedSize size back := by
  simp [repeatedSize]

theorem fitting_le (capacity : Int) (list : List C) (some : fitting size capacity list ≠ []) :
    repeatedSize size (fitting size capacity list) ≤ capacity := by
  induction list generalizing capacity with
  | nil => exact absurd rfl some
  | cons src rest ih =>
    by_cases stop : capacity = 0 ∨ protoDelta (size src) > capacity
    · rw [fitting, if_pos stop] at some
      exact absurd rfl some
    · rw [fitting, if_neg stop, repeatedSize_cons]
      by_cases last : fitting size (capacity - protoDelta (size src)) rest = []
      · rw [last, repeatedSize_nil]
        omega
      · have := ih _ last
        omega

theorem fitting_add_cutAt {capacity left : Int} {list : List C} {src : C}
    (cut : cutAt size capacity list = some (src, left)) :
    repeatedSize size (fitting size capacity list) + left = capacity ∧ src ∈ list := by
  induction list generalizing capacity with
  | nil => cases cut
  | cons first rest ih =>
    by_cases full : capacity = 0
    · rw [cutAt, if_pos full] at cut
      cases cut
    · by_cases large : protoDelta (size first) > capacity
      · rw [cutAt, if_neg full, if_pos large] at cut
        cases cut
        rw [fitting, if_pos (.inr large)]
        simp
      · rw [cutAt, if_neg full, if_neg large] at cut
        obtain ⟨balance, member⟩ := ih cut
        rw [fitting, if_neg (by omega), repeatedSize_cons]
        exact ⟨by omega, mem_cons_of_mem first member⟩

theorem fitting_map (capacity : Int) (list : List C) :
    (fitting size capacity list).map size = fitting id capacity (list.map size) := by
  induction list generalizing capacity with
  | nil => rfl
  | cons src rest ih =>
    simp only [fitting, map_cons, id_eq]
    split
    · rfl
    · rw [map_cons, ih]

theorem repeatedSize_map (list : List C) : repeatedSize id (list.map size) = repeatedSize size list := by
  simp [repeatedSize, Function.comp_def]

end fitting

section visits
variable (deltaSize : Int → Int) {size : C → Int} {extract : C → Int → Extracted C} {length : C → Nat} {empty : C}

variable (size) in
theorem takeRecord_cases (acc : Extraction C) (src : C) :
    (¬(acc.capacityLeft = 0 ∨ deltaSize (size src) > acc.capacityLeft) ∧
      takeRecord deltaSize size acc src = (acc.take (deltaSize (size src)) src, src, true)) ∨
    ((acc.capacityLeft = 0 ∨ deltaSize (size src) > acc.capacityLeft) ∧
      takeRecord deltaSize size acc src = ({ acc with capacityLeft := 0 }, src, false)) := by
  by_cases full : acc.capacityLeft = 0
  · right
    refine ⟨.inl full, ?_⟩
    rw [takeRecord_full acc full src, ← full]
  · by_cases large : deltaSize (size src) > acc.capacityLeft
    · right
      rw [takeRecord, if_neg full]
      exact ⟨.inr large, if_pos large⟩
    · left
      rw [takeRecord, if_neg full]
      exact ⟨by tauto, if_neg large⟩

/-- What is taken out of a child that does not fit, if there is anything. -/
def cutOff (extract : C → Int → Extracted C) (length : C → Nat) (cut : C × Int) : List C :=
  let dest := (extract cut.1 cut.2).dest
  if length dest > 0 then [dest] else []

variable (size extract) in
theorem takeGroup_cases (nothing : length empty = 0) (acc : Extraction C) (src : C) :
    (¬(acc.capacityLeft = 0 ∨ deltaSize (size src) > acc.capacityLeft) ∧
      takeGroup deltaSize size extract length empty acc src = (acc.take (deltaSize (size src)) src, src, true)) ∨
    (acc.capacityLeft = 0 ∧ takeGroup deltaSize size extract length empty acc src = (acc, src, false)) ∨
    (acc.capacityLeft ≠ 0 ∧ deltaSize (size src) > acc.capacityLeft ∧
      takeGroup deltaSize size extract length empty acc src =
        ({ dest := acc.dest ++ cutOff extract length (src, acc.capacityLeft)
           capacityLeft := 0
           removedSize := acc.removedSize + (deltaSize (size src) -
             deltaSize (size src - (extract src acc.capacityLeft).removedSize)) },
          (extract src acc.capacityLeft).rest, false)) := by
  by_cases full : acc.capacityLeft = 0
  · exact .inr (.inl ⟨full, takeGroup_full acc full src⟩)
  · by_cases large : deltaSize (size src) > acc.capacityLeft
    · refine .inr (.inr ⟨full, large, ?_⟩)
      simp only [takeGroup, if_neg full, if_pos large, takeGroup_cut_kept nothing, cutOff, Prod.mk.injEq,
        Extraction.mk.injEq, and_true, true_and]
      constructor
      · split
        · rfl
        · rw [append_nil]
      · omega
    · refine .inl ⟨by tauto, ?_⟩
      rw [takeGroup, if_neg full]
      exact if_neg large

end visits

section contents
variable {size : C → Int} {extract : C → Int → Extracted C} {length : C → Nat} {empty : C}

variable (size) in
theorem takeRecord_dest (acc : Extraction C) (list : List C) :
    (removeIf (takeRecord protoDelta size) acc list).1.dest = acc.dest ++ fitting size acc.capacityLeft list ∧
      (removeIf (takeRecord protoDelta size) acc list).1.removedSize =
        acc.removedSize + repeatedSize size (fitting size acc.capacityLeft list) := by
  induction list generalizing acc with
  | nil => simp [removeIf, fitting]
  | cons src rest ih =>
    rcases takeRecord_cases protoDelta size acc src with ⟨small, visit⟩ | ⟨stop, visit⟩
    · obtain ⟨dest, removed⟩ := ih (acc.take (protoDelta (size src)) src)
      rw [removeIf_taken visit, fitting, if_neg small, dest, removed, repeatedSize_cons]
      simp only [Extraction.take, append_assoc, singleton_append, true_and]
      omega
    · rw [removeIf_kept visit, removeIf_halted (takeRecord_full _ rfl), fitting, if_pos stop]
      simp

theorem takeGroup_dest (nothing : length empty = 0) (acc : Extraction C) (list : List C) :
    (removeIf (takeGroup protoDelta size extract length empty) acc list).1.dest =
      acc.dest ++ fitting size acc.capacityLeft list ++
        (cutAt size acc.capacityLeft list).toList.flatMap (cutOff extract length) := by
  induction list generalizing acc with
  | nil => simp [removeIf, fitting, cutAt]
  | cons src rest ih =>
    rcases takeGroup_cases protoDelta size extract nothing acc src with ⟨small, visit⟩ | ⟨full, _⟩ | ⟨room, large, visit⟩
    · rw [removeIf_taken visit, fitting, if_neg small, cutAt, if_neg (by tauto), if_neg (by tauto), ih]
      simp [Extraction.take]
    · rw [removeIf_halted (takeGroup_full acc full), fitting, if_pos (.inl full), cutAt, if_pos full]
      simp
    · rw [removeIf_kept visit, removeIf_halted (takeGroup_full _ rfl), fitting, if_pos (.inr large), cutAt,
        if_neg room, if_pos large]
      simp

end contents

section accounts
variable {size : C → Int} {extract : C → Int → Extracted C} {length : C → Nat} {empty : C}

/-- The size that is reported as removed is what the source has become smaller by. -/
def Exact {D : Type} (size : D → Int) (extract : D → Int → Extracted D) : Prop :=
  ∀ src capacity, (extract src capacity).removedSize + size (extract src capacity).rest = size src

/-- The size that one call reports as removed is what its source has become smaller by. -/
def ExactAt {D : Type} (size : D → Int) (extract : D → Int → Extracted D) (src : D) (capacity : Int) : Prop :=
  (extract src capacity).removedSize + size (extract src capacity).rest = size src

/-- At most what the source has become smaller by is reported, for sizes of an int. -/
def Covers {D : Type} (size : D → Int) (extract : D → Int → Extracted D) : Prop :=
  ∀ src capacity, size src < 2 ^ 63 → 0 ≤ (extract src capacity).removedSize ∧
    (extract src capacity).removedSize + size (extract src capacity).rest ≤ size src

variable {visit : Extraction C → C → Extraction C × C × Bool}

/-- A visit reports what its child has become smaller by, all of it when the child leaves. -/
def Balanced (size : C → Int) (visit : Extraction C → C → Extraction C × C × Bool) : Prop :=
  ∀ acc src, (visit acc src).1.removedSize +
    (if (visit acc src).2.2 then 0 else protoDelta (size (visit acc src).2.1)) = acc.removedSize + protoDelta (size src)

theorem removeIf_balanced (balanced : Balanced size visit) (acc : Extraction C) (list : List C) :
    (removeIf visit acc list).1.removedSize + repeatedSize size (removeIf visit acc list).2 =
      acc.removedSize + repeatedSize size list := by
  induction list generalizing acc with
  | nil => rfl
  | cons src rest ih =>
    obtain ⟨next, after, removed, visited⟩ : ∃ next after removed,
        visit acc src = (next, after, removed) := ⟨_, _, _, rfl⟩
    have here := balanced acc src
    have later := ih next
    rw [visited] at here
    cases removed with
    | true =>
      rw [removeIf_taken visited, later, repeatedSize_cons]
      simp only [if_true] at here
      omega
    | false =>
      rw [removeIf_kept visited, repeatedSize_cons, repeatedSize_cons]
      simp only [Bool.false_eq_true, if_false] at here ⊢
      omega

variable (size) in
theorem takeRecord_balanced : Balanced size (takeRecord protoDelta size) := by
  intro acc src
  rcases takeRecord_cases protoDelta size acc src with ⟨_, visited⟩ | ⟨_, visited⟩
  · simp [visited, Extraction.take]
  · simp [visited]

theorem takeGroup_balanced (nothing : length empty = 0) (exact : Exact size extract) :
    Balanced size (takeGroup protoDelta size extract length empty) := by
  intro acc src
  rcases takeGroup_cases protoDelta size extract nothing acc src with ⟨_, visited⟩ | ⟨_, visited⟩ | ⟨_, _, visited⟩
  · simp [visited, Extraction.take]
  · simp [visited]
  · have left : size (extract src acc.capacityLeft).rest = size src - (extract src acc.capacityLeft).removedSize := by
      have := exact src acc.capacityLeft
      omega
    simp only [visited, Bool.false_eq_true, if_false, left]
    omega

/-- A visit that reports no more than its child has become smaller by. -/
def Cautious (size : C → Int) (visit : Extraction C → C → Extraction C × C × Bool) : Prop :=
  ∀ acc src, size src < 2 ^ 63 → acc.removedSize ≤ (visit acc src).1.removedSize ∧
    (visit acc src).1.removedSize +
      (if (visit acc src).2.2 then 0 else protoDelta (size (visit acc src).2.1)) ≤
        acc.removedSize + protoDelta (size src)

theorem removeIf_cautious (cautious : Cautious size visit) (acc : Extraction C) (list : List C)
    (small : ∀ src ∈ list, size src < 2 ^ 63) :
    acc.removedSize ≤ (removeIf visit acc list).1.removedSize ∧
      (removeIf visit acc list).1.removedSize + repeatedSize size (removeIf visit acc list).2 ≤
        acc.removedSize + repeatedSize size list := by
  induction list generalizing acc with
  | nil => exact ⟨le_refl _, le_refl _⟩
  | cons src rest ih =>
    obtain ⟨next, after, removed, visited⟩ : ∃ next after removed,
        visit acc src = (next, after, removed) := ⟨_, _, _, rfl⟩
    have here := cautious acc src (small src mem_cons_self)
    have later := ih next fun other member => small other (mem_cons_of_mem src member)
    rw [visited] at here
    cases removed with
    | true =>
      rw [removeIf_taken visited, repeatedSize_cons]
      simp only [if_true] at here
      omega
    | false =>
      rw [removeIf_kept visited, repeatedSize_cons, repeatedSize_cons]
      simp only [Bool.false_eq_true, if_false] at here ⊢
      omega

theorem takeGroup_cautious (nothing : length empty = 0) (nonneg : ∀ src, 0 ≤ size src)
    (covers : Covers size extract) : Cautious size (takeGroup protoDelta size extract length empty) := by
  intro acc src small
  have positive := protoDelta_pos (nonneg src)
  rcases takeGroup_cases protoDelta size extract nothing acc src with ⟨_, visited⟩ | ⟨_, visited⟩ | ⟨_, _, visited⟩
  · simp only [visited, Extraction.take, if_true]
    omega
  · simp [visited]
  · obtain ⟨removed, left⟩ := covers src acc.capacityLeft small
    have rest := nonneg (extract src acc.capacityLeft).rest
    have shrinks : protoDelta (size (extract src acc.capacityLeft).rest) ≤
        protoDelta (size src - (extract src acc.capacityLeft).removedSize) :=
      protoDelta_mono rest (by omega) (by omega)
    have reported : protoDelta (size src - (extract src acc.capacityLeft).removedSize) ≤ protoDelta (size src) :=
      protoDelta_mono (by omega) (by omega) (by omega)
    simp only [visited, Bool.false_eq_true, if_false]
    omega

end accounts

/-- What a message has for its children when `capacity` bytes are left in its parent. -/
def capacityIn (base capacity : Int) : Int := capacity - (protoDelta capacity - capacity) - base

/-- What a message has for its children, beside its own content. -/
def Envelope.childCapacity (headerSize : H → Int) (size : C → Int) (message : Envelope H C) (capacity : Int) : Int :=
  capacityIn (({ message with children := [] } : Envelope H C).sizeProto headerSize size) capacity

section messages
variable {headerSize : H → Int} {childSize : C → Int} {visit : Extraction C → C → Extraction C × C × Bool}

theorem Envelope.sizeProto_eq (message : Envelope H C) :
    message.sizeProto headerSize childSize =
      ({ message with children := [] } : Envelope H C).sizeProto headerSize childSize +
        repeatedSize childSize message.children := by
  simp only [Envelope.sizeProto, repeatedSize_nil]
  omega

theorem protoDelta_le_repeatedSize (nonneg : ∀ child, 0 ≤ childSize child) {child : C} {children : List C}
    (member : child ∈ children) : protoDelta (childSize child) ≤ repeatedSize childSize children := by
  obtain ⟨front, back, rfl⟩ := append_of_mem member
  have before := repeatedSize_nonneg nonneg front
  have after := repeatedSize_nonneg nonneg back
  rw [repeatedSize_append, repeatedSize_cons]
  omega

theorem le_protoDelta (size : Int) : size ≤ protoDelta size := by
  have := sov_pos size
  unfold protoDelta
  omega

theorem le_repeatedSize (nonneg : ∀ child, 0 ≤ childSize child) {child : C} {children : List C}
    (member : child ∈ children) : childSize child ≤ repeatedSize childSize children :=
  (le_protoDelta _).trans (protoDelta_le_repeatedSize nonneg member)

theorem Envelope.extract_exact (balanced : Balanced childSize visit) :
    Exact (Envelope.sizeProto headerSize childSize)
      (Envelope.extract protoDelta (Envelope.sizeProto headerSize childSize) visit) := by
  intro src capacity
  have balance := removeIf_balanced balanced { capacityLeft := capacity - (protoDelta capacity - capacity) -
    ({ src with children := [] } : Envelope H C).sizeProto headerSize childSize } src.children
  rw [sizeProto_eq src, sizeProto_eq (Envelope.extract _ _ _ _ _).rest]
  simp only [Envelope.extract] at balance ⊢
  omega

theorem extractAll_exact (balanced : Balanced childSize visit) :
    Exact (repeatedSize childSize) (extractAll (repeatedSize childSize) visit) := by
  intro src capacity
  have balance := removeIf_balanced balanced { capacityLeft := capacity - repeatedSize childSize [] } src
  simp only [extractAll] at balance ⊢
  omega

theorem Envelope.extract_covers (headers : ∀ header, 0 ≤ headerSize header)
    (nonneg : ∀ child, 0 ≤ childSize child) (cautious : Cautious childSize visit) :
    Covers (Envelope.sizeProto headerSize childSize)
      (Envelope.extract protoDelta (Envelope.sizeProto headerSize childSize) visit) := by
  intro src capacity small
  have base := sizeProto_nonneg headers nonneg { src with children := [] }
  rw [sizeProto_eq src] at small ⊢
  have children : ∀ child ∈ src.children, childSize child < 2 ^ 63 := by
    intro child member
    have part := le_repeatedSize nonneg member
    omega
  have account := removeIf_cautious cautious { capacityLeft := capacity - (protoDelta capacity - capacity) -
    ({ src with children := [] } : Envelope H C).sizeProto headerSize childSize } src.children children
  rw [sizeProto_eq (Envelope.extract _ _ _ _ _).rest]
  simp only [Envelope.extract] at account ⊢
  omega

theorem extractAll_covers (nonneg : ∀ child, 0 ≤ childSize child) (cautious : Cautious childSize visit) :
    Covers (repeatedSize childSize) (extractAll (repeatedSize childSize) visit) := by
  intro src capacity small
  have children : ∀ child ∈ src, childSize child < 2 ^ 63 := by
    intro child member
    have part := le_repeatedSize nonneg member
    omega
  have account := removeIf_cautious cautious { capacityLeft := capacity - repeatedSize childSize [] } src children
  simp only [extractAll] at account ⊢
  omega

end messages

section limits
variable {size : C → Int} {extract : C → Int → Extracted C} {length : C → Nat} {empty : C}

theorem takeGroup_within_iff (nothing : length empty = 0) {capacity slack : Int}
    (room : 0 ≤ capacity → 0 ≤ slack) (nonneg : ∀ src, 0 ≤ size src) (list : List C) {dest : List C}
    (taken : (removeIf (takeGroup protoDelta size extract length empty)
      { capacityLeft := capacity } list).1.dest = dest) :
    (dest ≠ [] → repeatedSize size dest ≤ capacity + slack) ↔
      ∀ src left, cutAt size capacity list = some (src, left) → length (extract src left).dest > 0 →
        protoDelta (size (extract src left).dest) ≤ left + slack := by
  have fits : fitting size capacity list ≠ [] → repeatedSize size (fitting size capacity list) ≤ capacity + slack := by
    intro some
    have within := fitting_le capacity list some
    have total := repeatedSize_nonneg nonneg (fitting size capacity list)
    have := room (by omega)
    omega
  rw [takeGroup_dest nothing] at taken
  subst taken
  cases cut : cutAt size capacity list with
  | none => simpa using fits
  | some place =>
    obtain ⟨src, left⟩ := place
    obtain ⟨balance, _⟩ := fitting_add_cutAt cut
    by_cases any : length (extract src left).dest > 0
    · simp [cutOff, any]
      omega
    · simpa [cutOff, any] using fits

/-- What is taken out of a message fits, with its length, into the capacity given. -/
def Fits {D : Type} (length : D → Nat) (size : D → Int) (extract : D → Int → Extracted D) : Prop :=
  ∀ src capacity, capacity < 2 ^ 63 → length (extract src capacity).dest > 0 →
    protoDelta (size (extract src capacity).dest) ≤ capacity

/-- The children a closure takes out of a list fit into the capacity it starts with. -/
def Bounded (size : C → Int) (visit : Extraction C → C → Extraction C × C × Bool) : Prop :=
  ∀ capacity list, capacity < 2 ^ 63 →
    (removeIf visit { capacityLeft := capacity } list).1.dest ≠ [] →
      repeatedSize size (removeIf visit { capacityLeft := capacity } list).1.dest ≤ capacity

theorem takeRecord_bounded : Bounded size (takeRecord protoDelta size) := by
  intro capacity list _
  rw [(takeRecord_dest size _ list).1]
  exact fitting_le capacity list

theorem takeGroup_bounded (nothing : length empty = 0) (nonneg : ∀ src, 0 ≤ size src)
    (fits : Fits length size extract) :
    Bounded size (takeGroup protoDelta size extract length empty) := by
  intro capacity list int taken
  have unused : 0 ≤ capacity → (0 : Int) ≤ 0 := fun _ => le_refl 0
  refine le_of_le_of_eq ((takeGroup_within_iff nothing unused nonneg list rfl).mpr ?_ taken) (Int.add_zero capacity)
  intro src left cut some
  obtain ⟨balance, _⟩ := fitting_add_cutAt cut
  have total := repeatedSize_nonneg nonneg (fitting size capacity list)
  rw [Int.add_zero]
  exact fits src left (by omega) some

variable {headerSize : H → Int} {visit : Extraction C → C → Extraction C × C × Bool}

theorem Envelope.extract_fits (headers : ∀ header, 0 ≤ headerSize header) (nonneg : ∀ child, 0 ≤ size child)
    (bounded : Bounded size visit) :
    Fits (fun message => message.children.length) (Envelope.sizeProto headerSize size)
      (Envelope.extract protoDelta (Envelope.sizeProto headerSize size) visit) := by
  intro src capacity int some
  have base := sizeProto_nonneg headers nonneg { src with children := [] }
  have whole := sizeProto_nonneg headers nonneg
    (Envelope.extract protoDelta (Envelope.sizeProto headerSize size) visit src capacity).dest
  have own := le_protoDelta capacity
  have within := bounded (capacity - (protoDelta capacity - capacity) -
    ({ src with children := [] } : Envelope H C).sizeProto headerSize size) src.children (by omega)
    (ne_nil_of_length_pos some)
  rw [sizeProto_eq (Envelope.extract _ _ _ _ _).dest] at whole ⊢
  simp only [Envelope.extract] at whole ⊢
  -- the length reserved for the whole capacity is enough for what was taken
  have length := sov_mono whole (y := capacity) (by unfold protoDelta at *; omega) (by omega)
  unfold protoDelta at *
  omega

end limits

end CollectorFormal.Batch
