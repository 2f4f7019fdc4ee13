import CollectorFormal.Batch.Metrics
import CollectorFormal.Processor.Split

/-! splitMetrics of the batch processor: metrics with exactly the given number of data points out of larger ones.

The first part of a metric that is cut is built anew, without the metadata. The code is compared with what it would
do if the metric had its metadata from the start. -/

namespace CollectorFormal.Processor

open Lib Batch List

variable {R S M H C α : Type} {P : PointType → Type}

section definitions

/-- What is moved to the destination and what is left, with the two results of the split
functions. -/
structure Split (D : Type) where
  dest : D
  src : D
  copied : Nat
  remove : Bool

/-- The closure of the functions below; `i` counts what was moved. -/
def movePoint (size : Nat) (acc : Nat × List α) (dp : α) : (Nat × List α) × α × Bool :=
  let (i, dst) := acc
  if i < size then ((i + 1, dst ++ [dp]), dp, true) else (acc, dp, false)

def splitDataPoints (src dst : List α) (size : Nat) : Split (List α) :=
  let r := removeIf (movePoint size) (0, dst) src
  ⟨r.1.2, r.2, size, false⟩

def splitNumberDataPoints (src dst : List (P .number)) (size : Nat) : Split (List (P .number)) :=
  splitDataPoints src dst size

def splitHistogramDataPoints (src dst : List (P .histogram)) (size : Nat) : Split (List (P .histogram)) :=
  splitDataPoints src dst size

def splitExponentialHistogramDataPoints (src dst : List (P .exponentialHistogram)) (size : Nat) :
    Split (List (P .exponentialHistogram)) :=
  splitDataPoints src dst size

def splitSummaryDataPoints (src dst : List (P .summary)) (size : Nat) : Split (List (P .summary)) :=
  splitDataPoints src dst size

def splitMetric (ms dest : Metric M P) (size : Nat) : Split (Metric M P) :=
  let dest := { dest with name := ms.name, description := ms.description, unit := ms.unit }
  let finish {type : PointType} (r : Split (List (P type))) (data : List (P type) → MetricData P) : Split (Metric M P) :=
    ⟨{ dest with data := data r.dest }, { ms with data := data r.src }, r.copied, r.remove⟩
  match ms.data with
  | .gauge dataPoints => finish (splitNumberDataPoints dataPoints [] size) .gauge
  | .sum temporality isMonotonic dataPoints =>
    finish (splitNumberDataPoints dataPoints [] size) (.sum temporality isMonotonic)
  | .histogram temporality dataPoints => finish (splitHistogramDataPoints dataPoints [] size) (.histogram temporality)
  | .exponentialHistogram temporality dataPoints =>
    finish (splitExponentialHistogramDataPoints dataPoints [] size) (.exponentialHistogram temporality)
  | .summary dataPoints => finish (splitSummaryDataPoints dataPoints [] size) .summary
  | .empty => ⟨dest, ms, size, false⟩

theorem splitMetric_results (ms dest : Metric M P) (size : Nat) :
    (splitMetric ms dest size).copied = size ∧ (splitMetric ms dest size).remove = false := by
  unfold splitMetric
  split <;> exact ⟨rfl, rfl⟩

def metricDPC (ms : Metric M P) : Nat := dataPointsLen ms

def scopeMetricsDPC (ilm : ScopeMetrics S M P) : Nat := (ilm.children.map metricDPC).sum

def resourceMetricsDPC (rs : ResourceMetrics R S M P) : Nat := (rs.children.map scopeMetricsDPC).sum

variable {size : Nat}

/-- `fresh` is the metric that a first part is put into. -/
def copyMetricInto (fresh : Metric M P → Metric M P) (acc : Copied size (Metric M P)) (src : Metric M P) :
    Copied size (Metric M P) × Metric M P × Bool :=
  if acc.total = size then (acc, src, false)
  else if fits : acc.total + metricDPC src ≤ size then (acc.move (metricDPC src) src fits, src, true)
  else
    let r := splitMetric src (fresh src) (size - acc.total)
    ({ total := acc.total + r.copied
       within := by
         have within := acc.within
         rw [(splitMetric_results _ _ _).1]
         omega
       dest := acc.dest ++ [r.dest] },
      r.src, r.remove)

def copyScopeMetricsBy (copyMetric : Copied size (Metric M P) → Metric M P → Copied size (Metric M P) × Metric M P × Bool) :
    Copied size (ScopeMetrics S M P) → ScopeMetrics S M P → Copied size (ScopeMetrics S M P) × ScopeMetrics S M P × Bool :=
  copyGroup scopeMetricsDPC copyMetric fun _ => false

def copyResourceMetricsBy
    (copyMetric : Copied size (Metric M P) → Metric M P → Copied size (Metric M P) × Metric M P × Bool) :
    Copied size (ResourceMetrics R S M P) → ResourceMetrics R S M P →
      Copied size (ResourceMetrics R S M P) × ResourceMetrics R S M P × Bool :=
  copyGroup resourceMetricsDPC (copyScopeMetricsBy copyMetric) fun rest => decide (rest.length = 0)

/-- A first part goes into a metric that was appended empty. -/
def copyMetric [Inhabited M] : Copied size (Metric M P) → Metric M P → Copied size (Metric M P) × Metric M P × Bool :=
  copyMetricInto fun _ => { metadata := default }

/-- What is returned, and what is left in the source. A small enough source is itself returned. -/
def splitMetrics [Inhabited M] (size : Nat) (src : Metrics R S M P) : Metrics R S M P × Metrics R S M P :=
  if dataPointCount src ≤ size then (src, src)
  else
    let r := removeIf (copyResourceMetricsBy copyMetric) { total := 0, within := Nat.zero_le size } src
    (r.1.dest, r.2)

end definitions

section points
variable {size : Nat}

theorem removeIf_movePoint (i : Nat) (dst src : List α) (within : i ≤ size) :
    (removeIf (movePoint size) (i, dst) src).1.2 = dst ++ src.take (size - i) ∧
      (removeIf (movePoint size) (i, dst) src).2 = src.drop (size - i) := by
  induction src generalizing i dst with
  | nil => simp [removeIf]
  | cons dp rest ih =>
    by_cases room : i < size
    · have visit : movePoint size (i, dst) dp = ((i + 1, dst ++ [dp]), dp, true) := if_pos room
      have left : size - i = size - (i + 1) + 1 := by omega
      rcases ih (i + 1) (dst ++ [dp]) room with ⟨moved, kept⟩
      rw [removeIf_taken visit, moved, kept, left]
      simp
    · have halted : Halted (movePoint size) (i, dst) := fun (other : α) => if_neg room
      have none : size - i = 0 := by omega
      rw [removeIf_halted halted, none]
      simp

theorem splitDataPoints_eq (src : List α) :
    splitDataPoints src [] size = ⟨src.take size, src.drop size, size, false⟩ := by
  have moved := removeIf_movePoint 0 [] src (Nat.zero_le size)
  rw [Nat.sub_zero, nil_append] at moved
  rw [splitDataPoints, moved.1, moved.2]

theorem splitMetric_src (ms dest other : Metric M P) (size : Nat) :
    (splitMetric ms dest size).src = (splitMetric ms other size).src := by
  unfold splitMetric
  split <;> rfl

theorem splitMetric_flatten (ms dest : Metric M P) (fresh : dest.data = .empty) :
    (splitMetric ms dest size).dest.flatten =
        (ms.flatten.take size).map (fun entry => ({ entry.1 with metadata := dest.metadata }, entry.2)) ∧
      (splitMetric ms dest size).src.flatten = ms.flatten.drop size := by
  rcases ms with ⟨name, description, unit, metadata, data⟩
  cases data with
  | empty => simp [splitMetric, Metric.flatten, fresh]
  | _ =>
    simp only [splitMetric, splitNumberDataPoints, splitHistogramDataPoints, splitExponentialHistogramDataPoints,
      splitSummaryDataPoints, splitDataPoints_eq, Metric.flatten, ← map_take, ← map_drop, map_map]
    exact ⟨rfl, trivial⟩

theorem Metric.flatten_metadata (metric : Metric M P) :
    metric.flatten.map (fun entry => ({ entry.1 with metadata := metric.metadata }, entry.2)) = metric.flatten := by
  unfold Batch.Metric.flatten
  split <;> simp [Function.comp_def]

end points

section metric
variable {size : Nat} {fresh : Metric M P → Metric M P}

theorem copyMetricInto_full (acc : Copied size (Metric M P)) (full : acc.total = size) :
    Halted (copyMetricInto fresh) acc := by
  intro src
  rw [copyMetricInto, if_pos full]

theorem copyMetricInto_whole (acc : Copied size (Metric M P)) (src : Metric M P) (room : acc.total ≠ size)
    (fits : acc.total + metricDPC src ≤ size) :
    copyMetricInto fresh acc src = (acc.move (metricDPC src) src fits, src, true) := by
  rw [copyMetricInto, if_neg room, dif_pos fits]

theorem copyMetricInto_cut (fresh : Metric M P → Metric M P) (acc : Copied size (Metric M P)) (src : Metric M P)
    (room : acc.total ≠ size) (large : ¬acc.total + metricDPC src ≤ size) :
    ∃ next : Copied size (Metric M P), next.total = size ∧
      next.dest = acc.dest ++ [(splitMetric src (fresh src) (size - acc.total)).dest] ∧
      copyMetricInto fresh acc src = (next, (splitMetric src (fresh src) (size - acc.total)).src, false) := by
  have within := acc.within
  have results := splitMetric_results src (fresh src) (size - acc.total)
  have total : acc.total + (splitMetric src (fresh src) (size - acc.total)).copied = size := by omega
  refine ⟨{ total := size, within := le_refl size, dest := _ }, rfl, rfl, ?_⟩
  rw [copyMetricInto, if_neg room, dif_neg large]
  simp only [results.2, total]

/-- With its metadata in the first part, a metric would be copied as it is. -/
theorem copyMetricInto_copies (empty : ∀ src, (fresh src).data = .empty)
    (same : ∀ src, (fresh src).metadata = src.metadata) :
    Copies (copyMetricInto fresh : Copied size (Metric M P) → _) Metric.flatten where
  total acc src := by
    have within := acc.within
    have weight : metricDPC src = src.flatten.length := src.flatten_length.symm
    rw [← weight]
    by_cases full : acc.total = size
    · rw [copyMetricInto_full acc full]
      simp only
      omega
    · by_cases fits : acc.total + metricDPC src ≤ size
      · rw [copyMetricInto_whole acc src full fits]
        simp only [Copied.move]
        omega
      · rcases copyMetricInto_cut fresh acc src full fits with ⟨next, total, _, answer⟩
        rw [answer, total]
        omega
  counted start acc src counted := by
    have within := acc.within
    have weight : metricDPC src = src.flatten.length := src.flatten_length.symm
    by_cases full : acc.total = size
    · rw [copyMetricInto_full acc full]
      exact counted
    · rw [Copied.Counted] at counted ⊢
      by_cases fits : acc.total + metricDPC src ≤ size
      · rw [copyMetricInto_whole acc src full fits]
        simp only [Copied.move, flatMap_append, length_append, flatMap_singleton, ← weight]
        omega
      · rcases copyMetricInto_cut fresh acc src full fits with ⟨next, total, dest, answer⟩
        rw [answer, total, dest]
        simp only [flatMap_append, length_append, flatMap_singleton,
          (splitMetric_flatten src (fresh src) (empty src)).1, length_map, length_take]
        omega
  moves := {
    removed := by
      intro acc src removed
      by_cases full : acc.total = size
      · rw [copyMetricInto_full acc full] at removed
        cases removed
      · by_cases fits : acc.total + metricDPC src ≤ size
        · rw [copyMetricInto_whole acc src full fits]
          simp only [Copied.move, flatMap_append, flatMap_singleton]
        · rcases copyMetricInto_cut fresh acc src full fits with ⟨next, _, _, answer⟩
          rw [answer] at removed
          cases removed
    kept := by
      intro acc src kept
      by_cases full : acc.total = size
      · rw [copyMetricInto_full acc full]
        exact ⟨copyMetricInto_full acc full, rfl⟩
      · by_cases fits : acc.total + metricDPC src ≤ size
        · rw [copyMetricInto_whole acc src full fits] at kept
          cases kept
        · rcases copyMetricInto_cut fresh acc src full fits with ⟨next, total, dest, answer⟩
          rcases @splitMetric_flatten _ _ (size - acc.total) src (fresh src) (empty src) with ⟨first, rest⟩
          rw [answer]
          refine ⟨copyMetricInto_full next total, ?_⟩
          simp only [dest, flatMap_append, flatMap_singleton, append_assoc, first, rest, same]
          rw [map_take, Metric.flatten_metadata, take_append_drop] }

/-- The copy of a metric whose first part has its metadata from the start. -/
def copyMetricWhole : Copied size (Metric M P) → Metric M P → Copied size (Metric M P) × Metric M P × Bool :=
  copyMetricInto fun src => { metadata := src.metadata }

theorem copyMetricWhole_copies : Copies (copyMetricWhole : Copied size (Metric M P) → _) Metric.flatten :=
  copyMetricInto_copies (fun _ => rfl) fun _ => rfl

end metric

section agreement
variable {size : Nat} {β : Type}

/-- The first child that has more than what is left of the size, if there is something left. -/
def boundary (weight : C → Nat) : Nat → List C → Option (C × Nat)
  | _, [] => none
  | left, src :: rest =>
    if left = 0 then none
    else if weight src ≤ left then boundary weight (left - weight src) rest
    else some (src, left)

def AtBoundary (weight : C → Nat) (inside : C → Nat → Prop) (left : Nat) (list : List C) : Prop :=
  ∀ src left', boundary weight left list = some (src, left') → inside src left'

theorem atBoundary_some {weight : C → Nat} {inside : C → Nat → Prop} {left : Nat} {list : List C} {place : C × Nat}
    (found : boundary weight left list = some place) : AtBoundary weight inside left list ↔ inside place.1 place.2 := by
  rw [AtBoundary, found]
  constructor
  · intro all
    exact all _ _ rfl
  · intro inner src left' same
    cases same
    exact inner

instance AtBoundary.decidable (weight : C → Nat) (inside : C → Nat → Prop) [∀ src left, Decidable (inside src left)]
    (left : Nat) (list : List C) : Decidable (AtBoundary weight inside left list) :=
  match found : boundary weight left list with
  | none => .isTrue fun _ _ some => nomatch found.symm.trans some
  | some place => decidable_of_iff (inside place.1 place.2) (atBoundary_some found).symm

/-- Two closures that differ at most in the last child they return, in which `same` says when the content agrees. -/
def Agree (visit ideal : Copied size C → C → Copied size C × C × Bool) (content : C → List β)
    (same : Nat → List C → Prop) : Prop :=
  ∀ acc list, (removeIf visit acc list).2 = (removeIf ideal acc list).2 ∧
    (removeIf visit acc list).1.total = (removeIf ideal acc list).1.total ∧
    ((removeIf visit acc list).1.dest.flatMap content).length =
      ((removeIf ideal acc list).1.dest.flatMap content).length ∧
    ((removeIf visit acc list).1.dest.flatMap content = (removeIf ideal acc list).1.dest.flatMap content ↔
      same (size - acc.total) list)

structure CutAlike (visit ideal : Copied size C → C → Copied size C × C × Bool) (content : C → List β)
    (inside : C → Nat → Prop) (acc : Copied size C) (src : C) : Prop where
  cut : ∃ (next nextIdeal : Copied size C) (after dest destIdeal : C) (removed : Bool),
    visit acc src = (next, after, removed) ∧ ideal acc src = (nextIdeal, after, removed) ∧
    next.total = size ∧ nextIdeal.total = size ∧
    next.dest = acc.dest ++ [dest] ∧ nextIdeal.dest = acc.dest ++ [destIdeal] ∧
    (content dest).length = (content destIdeal).length ∧
    (content dest = content destIdeal ↔ inside src (size - acc.total))

variable {visit ideal : Copied size C → C → Copied size C × C × Bool} {content : C → List β} {weight : C → Nat}
  {inside : C → Nat → Prop}

theorem agree_of_cut (full : ∀ acc : Copied size C, acc.total = size → Halted visit acc ∧ Halted ideal acc)
    (whole : ∀ (acc : Copied size C) src (fits : acc.total + weight src ≤ size), acc.total ≠ size →
      visit acc src = (acc.move (weight src) src fits, src, true) ∧
        ideal acc src = (acc.move (weight src) src fits, src, true))
    (cut : ∀ (acc : Copied size C) src, acc.total ≠ size → ¬acc.total + weight src ≤ size →
      CutAlike visit ideal content inside acc src) :
    Agree visit ideal content (AtBoundary weight inside) := by
  intro acc list
  induction list generalizing acc with
  | nil => simp [removeIf, AtBoundary, boundary]
  | cons src rest ih =>
    have within := acc.within
    by_cases done : acc.total = size
    · rcases full acc done with ⟨halted, haltedIdeal⟩
      rw [removeIf_halted halted, removeIf_halted haltedIdeal, AtBoundary, boundary, if_pos (by omega)]
      simp
    · by_cases fits : acc.total + weight src ≤ size
      · rcases whole acc src fits done with ⟨moved, movedIdeal⟩
        have left : size - acc.total - weight src = size - (acc.total + weight src) := by omega
        rw [removeIf_taken moved, removeIf_taken movedIdeal, AtBoundary, boundary, if_neg (by omega),
          if_pos (by omega), left]
        exact ih (acc.move (weight src) src fits)
      · rcases cut acc src done fits with
          ⟨next, nextIdeal, after, dest, destIdeal, removed, cutOff, cutIdeal, total, totalIdeal, added, addedIdeal,
            lengths, agrees⟩
        have stopped := removeIf_halted (full next total).1 rest
        have stoppedIdeal := removeIf_halted (full nextIdeal totalIdeal).2 rest
        have found : boundary weight (size - acc.total) (src :: rest) = some (src, size - acc.total) := by
          rw [boundary, if_neg (by omega), if_neg (by omega)]
        have flat : next.dest.flatMap content = nextIdeal.dest.flatMap content ↔ inside src (size - acc.total) := by
          rw [added, addedIdeal, flatMap_append, flatMap_append, append_cancel_left_eq,
            flatMap_singleton, flatMap_singleton, agrees]
        have long : (next.dest.flatMap content).length = (nextIdeal.dest.flatMap content).length := by
          rw [added, addedIdeal, flatMap_append, flatMap_append, length_append, length_append,
            flatMap_singleton, flatMap_singleton, lengths]
        rw [atBoundary_some found, ← flat]
        cases removed with
        | true =>
          rw [removeIf_taken cutOff, removeIf_taken cutIdeal, stopped, stoppedIdeal]
          exact ⟨rfl, total.trans totalIdeal.symm, long, Iff.rfl⟩
        | false =>
          rw [removeIf_kept cutOff, removeIf_kept cutIdeal, stopped, stoppedIdeal]
          exact ⟨rfl, total.trans totalIdeal.symm, long, Iff.rfl⟩

theorem copyMetric_agrees [Inhabited M] :
    Agree (copyMetric : Copied size (Metric M P) → _) copyMetricWhole
      Metric.flatten (AtBoundary metricDPC fun metric _ => metric.metadata = default) := by
  apply agree_of_cut
  · intro acc full
    exact ⟨copyMetricInto_full acc full, copyMetricInto_full acc full⟩
  · intro acc src fits room
    exact ⟨copyMetricInto_whole acc src room fits, copyMetricInto_whole acc src room fits⟩
  · intro acc src room large
    have within := acc.within
    have weight : metricDPC src = src.flatten.length := src.flatten_length.symm
    rcases copyMetricInto_cut (fun _ => { metadata := default }) acc src room large with ⟨next, total, dest, answer⟩
    rcases copyMetricInto_cut (fun src => { metadata := src.metadata }) acc src room large with
      ⟨nextIdeal, totalIdeal, destIdeal, answerIdeal⟩
    have first := (@splitMetric_flatten _ _ (size - acc.total) src { metadata := default } rfl).1
    have firstIdeal := (@splitMetric_flatten _ _ (size - acc.total) src { metadata := src.metadata } rfl).1
    refine ⟨next, nextIdeal, _, _, _, false, answer, ?_, total, totalIdeal, dest, destIdeal, ?_, ?_⟩
    · rw [copyMetricWhole, answerIdeal, splitMetric_src src { metadata := src.metadata } { metadata := default }]
    · rw [first, firstIdeal, length_map, length_map]
    · -- the first part has a data point that tells the two apart
      have some : src.flatten.take (size - acc.total) ≠ [] := by
        rw [← length_pos_iff, length_take]
        omega
      rcases exists_mem_of_ne_nil _ some with ⟨entry, member⟩
      rw [first, firstIdeal, map_inj_left]
      constructor
      · intro all
        have same := all entry member
        simp only [Prod.mk.injEq, Descriptor.mk.injEq, true_and, and_true] at same
        exact same.symm
      · intro same entry _
        rw [same]

theorem copyGroup_agrees {visit ideal : Copied size C → C → Copied size C × C × Bool} {content : C → List β}
    {same : Nat → List C → Prop} (copies : Copies ideal content) (agree : Agree visit ideal content same)
    {weight : Envelope H C → Nat} (weighs : ∀ src, weight src = (src.flatten content).length) (emptied : List C → Bool) :
    Agree (copyGroup weight visit emptied) (copyGroup weight ideal emptied) (Envelope.flatten content)
      (AtBoundary weight fun src left => same left src.children) := by
  apply agree_of_cut
  · intro acc full
    exact ⟨copyGroup_full acc full, copyGroup_full acc full⟩
  · intro acc src fits room
    exact ⟨copyGroup_whole acc src room fits, copyGroup_whole acc src room fits⟩
  · intro acc src room large
    let start : Copied size C := { total := acc.total, within := acc.within }
    let next (copyChild : Copied size C → C → Copied size C × C × Bool) : Copied size (Envelope H C) :=
      { total := (removeIf copyChild start src.children).1.total
        within := (removeIf copyChild start src.children).1.within
        dest := acc.dest ++ [{ src with children := (removeIf copyChild start src.children).1.dest }] }
    have unfolded (copyChild : Copied size C → C → Copied size C × C × Bool) :
        copyGroup weight copyChild emptied acc src =
          (next copyChild, { src with children := (removeIf copyChild start src.children).2 },
            emptied (removeIf copyChild start src.children).2) := by
      rw [copyGroup, if_neg room, dif_neg large]
    have saturated : (removeIf ideal start src.children).1.total = size := by
      rcases @copyGroup_cut _ _ _ _ _ _ emptied _ copies weighs acc src room large with ⟨_, _, _, answer, total, _⟩
      rw [unfolded ideal] at answer
      exact (congrArg (fun answer => answer.1.total) answer).trans total
    rcases agree start src.children with ⟨rests, totals, lengths, contents⟩
    refine ⟨next visit, next ideal, _, _, _, _, unfolded visit, ?_, totals.trans saturated, saturated, rfl, rfl, ?_, ?_⟩
    · rw [unfolded ideal, rests]
    · simp only [Envelope.flatten, length_map]
      exact lengths
    · have entries : Function.Injective fun entry : β => (src.header, src.schemaUrl, entry) := by
        intro one other same
        exact (Prod.mk.inj (Prod.mk.inj same).2).2
      rw [Envelope.flatten, Envelope.flatten, (map_injective_iff.mpr entries).eq_iff]
      exact contents

/-- The metric in which the first `size` data points end, if they do not end with it, has
no metadata. -/
def CutWithoutMetadata [Inhabited M] (size : Nat) (src : Metrics R S M P) : Prop :=
  AtBoundary resourceMetricsDPC (fun rs left =>
    AtBoundary scopeMetricsDPC (fun ilm left =>
      AtBoundary metricDPC (fun metric _ => metric.metadata = default) left ilm.children) left rs.children) size src

/-- The result has exactly the first `size` data points and the source the others, and
together they are what the source was. -/
structure Preserved (size : Nat) (src : Metrics R S M P) (answer : Metrics R S M P × Metrics R S M P) : Prop where
  count : dataPointCount answer.1 = size
  others : answer.2.flatMap flattenResourceMetrics = (src.flatMap flattenResourceMetrics).drop size
  whole : answer.1.flatMap flattenResourceMetrics ++ answer.2.flatMap flattenResourceMetrics =
    src.flatMap flattenResourceMetrics

theorem scopeMetricsDPC_eq (ilm : ScopeMetrics S M P) : scopeMetricsDPC ilm = (ilm.flatten Metric.flatten).length := by
  rw [Envelope.flatten, length_map, length_flatMap]
  exact congrArg List.sum (map_congr_left fun metric _ => metric.flatten_length.symm)

theorem resourceMetricsDPC_eq (rs : ResourceMetrics R S M P) :
    resourceMetricsDPC rs = (flattenResourceMetrics rs).length := by
  rw [flattenResourceMetrics, Envelope.flatten, length_map, length_flatMap]
  exact congrArg List.sum (map_congr_left fun ilm _ => scopeMetricsDPC_eq ilm)

theorem copyScopeMetrics_copies :
    Copies (copyScopeMetricsBy copyMetricWhole :
      Copied size (ScopeMetrics S M P) → _) (Envelope.flatten Metric.flatten) :=
  copyGroup_copies copyMetricWhole_copies scopeMetricsDPC_eq fun _ never => nomatch never

theorem copyResourceMetrics_copies :
    Copies (copyResourceMetricsBy copyMetricWhole : Copied size (ResourceMetrics R S M P) → _) flattenResourceMetrics :=
  copyGroup_copies copyScopeMetrics_copies resourceMetricsDPC_eq
    fun _ empty => length_eq_zero_iff.mp (of_decide_eq_true empty)

theorem copyResourceMetrics_agree [Inhabited M] :
    Agree (copyResourceMetricsBy copyMetric : Copied size (ResourceMetrics R S M P) → _) (copyResourceMetricsBy copyMetricWhole)
      flattenResourceMetrics (AtBoundary resourceMetricsDPC fun rs left =>
        AtBoundary scopeMetricsDPC (fun ilm left =>
          AtBoundary metricDPC (fun metric _ => metric.metadata = default) left ilm.children) left rs.children) := by
  have scope : Agree (copyScopeMetricsBy copyMetric : Copied size (ScopeMetrics S M P) → _)
      (copyScopeMetricsBy copyMetricWhole) (Envelope.flatten Metric.flatten)
      (AtBoundary scopeMetricsDPC fun ilm left =>
        AtBoundary metricDPC (fun metric _ => metric.metadata = default) left ilm.children) :=
    copyGroup_agrees copyMetricWhole_copies copyMetric_agrees scopeMetricsDPC_eq _
  exact copyGroup_agrees copyScopeMetrics_copies scope resourceMetricsDPC_eq _

theorem splitMetrics_preserved_iff [Inhabited M] (size : Nat) (src : Metrics R S M P)
    (large : size < dataPointCount src) :
    Preserved size src (splitMetrics size src) ↔ CutWithoutMetadata size src := by
  let start : Copied size (ResourceMetrics R S M P) := { total := 0, within := Nat.zero_le size }
  have split : splitMetrics size src = ((removeIf (copyResourceMetricsBy copyMetric) start src).1.dest,
      (removeIf (copyResourceMetricsBy copyMetric) start src).2) := by
    rw [splitMetrics, if_neg (Nat.not_le_of_lt large)]
  have copies : Copies (copyResourceMetricsBy copyMetricWhole : Copied size (ResourceMetrics R S M P) → _) flattenResourceMetrics :=
    copyResourceMetrics_copies
  have total := removeIf_saturates Copied.total (fun rs => (flattenResourceMetrics rs).length) size copies.total start src
    (Nat.zero_le size)
  have counted := removeIf_invariant (copies.counted 0) start src (by simp [start, Copied.Counted])
  have conserved : _ = src.flatMap flattenResourceMetrics := removeIf_conserves copies.moves start src
  rcases copyResourceMetrics_agree start src with ⟨rests, _, lengths, contents⟩
  rw [dataPointCount_eq, length_flatMap] at large
  have first : ((removeIf (copyResourceMetricsBy copyMetricWhole) start src).1.dest.flatMap flattenResourceMetrics).length = size := by
    rw [Copied.Counted, Nat.zero_add] at counted
    rw [← counted, total]
    simp only [start]
    omega
  have kept : CutWithoutMetadata size src ↔ _ := contents.symm
  rw [split, kept]
  constructor
  · intro preserved
    have whole := preserved.whole
    simp only [rests] at whole
    exact append_cancel_right (whole.trans conserved.symm)
  · intro same
    constructor
    · rw [dataPointCount_eq, lengths, first]
    · rw [rests, ← conserved, drop_left' first]
    · simp only [same, rests]
      exact conserved

end agreement

def twoPoints (metadata : String) : Metrics Unit Unit String fun _ => Nat :=
  [⟨(), "", [⟨(), "", [{ name := "up", metadata := metadata, data := .gauge [1, 2] }]⟩]⟩]

theorem splitMetrics_preserved_iff_plain : Preserved 1 (twoPoints "") (splitMetrics 1 (twoPoints "")) := by
  apply (splitMetrics_preserved_iff 1 (twoPoints "") (by decide)).mpr
  unfold CutWithoutMetadata
  decide

/-- The first half of the metric has lost its metadata. -/
theorem splitMetrics_metadata_lost : splitMetrics 1 (twoPoints "unit test") =
    ([⟨(), "", [⟨(), "", [{ name := "up", metadata := "", data := .gauge [1] }]⟩]⟩],
      [⟨(), "", [⟨(), "", [{ name := "up", metadata := "unit test", data := .gauge [2] }]⟩]⟩]) := rfl

end CollectorFormal.Processor
