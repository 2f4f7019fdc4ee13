import CollectorFormal.Batch.GiveUp
import CollectorFormal.Batch.MetricsLimit

/-! The size kept for a metrics request while it is split by bytes.

Of a metric that is cut only the bytes of its data points are reported, and not those of the length of their
message. -/

namespace CollectorFormal.Batch

open Lib Envelope

variable {R S M H C β : Type} {P : PointType → Type}

section calls
variable {size : C → Int} {extract : C → Int → Extracted C} {length : C → Nat} {empty : C}

theorem protoDelta_lt {x y : Int} (nonneg : 0 ≤ x) (less : x < y) (word : y < 2 ^ 64) :
    protoDelta x < protoDelta y := by
  have := sov_mono nonneg less.le word
  unfold protoDelta
  omega

theorem cut_exact_iff {src : C} {left : Int} (nonneg : ∀ src, 0 ≤ size src) (covers : Covers size extract)
    (small : size src < 2 ^ 63) :
    protoDelta (size src - (extract src left).removedSize) = protoDelta (size (extract src left).rest) ↔
      ExactAt size extract src left := by
  rcases covers src left small with ⟨removed, account⟩
  have rest := nonneg (extract src left).rest
  unfold ExactAt
  constructor
  · intro same
    by_contra inexact
    have less : size (extract src left).rest < size src - (extract src left).removedSize := by omega
    have := protoDelta_lt rest less (by omega)
    omega
  · intro exact
    congr 1
    omega

variable {steady : C → Int → Prop} (nothing : length empty = 0) (nonneg : ∀ src, 0 ≤ size src)
  (covers : Covers size extract)
  (exact : ∀ src left, size src < 2 ^ 63 → (ExactAt size extract src left ↔ steady src left))

include nothing nonneg covers exact

theorem takeGroup_exact_iff (acc : Extraction C) (list : List C) (small : ∀ src ∈ list, size src < 2 ^ 63) :
    (removeIf (takeGroup protoDelta size extract length empty) acc list).1.removedSize +
          repeatedSize size (removeIf (takeGroup protoDelta size extract length empty) acc list).2 =
        acc.removedSize + repeatedSize size list ↔
      ∀ src left, cutAt size acc.capacityLeft list = some (src, left) → steady src left := by
  induction list generalizing acc with
  | nil => simp [removeIf, cutAt]
  | cons src rest ih =>
    rcases takeGroup_cases protoDelta size extract nothing acc src with ⟨fits, visit⟩ | ⟨full, _⟩ | ⟨room, large, visit⟩
    · have later := ih (acc.take (protoDelta (size src)) src) fun other member =>
        small other (List.mem_cons_of_mem src member)
      rw [removeIf_taken visit, cutAt, if_neg (by tauto), if_neg (by tauto), repeatedSize_cons, ← Int.add_assoc]
      exact later
    · rw [removeIf_halted (takeGroup_full acc full), cutAt, if_pos full]
      simp
    · have own := small src List.mem_cons_self
      have here : _ ↔ steady src acc.capacityLeft :=
        (cut_exact_iff nonneg covers own).trans (exact src acc.capacityLeft own)
      rw [removeIf_kept visit, removeIf_halted (takeGroup_full _ rfl), cutAt, if_neg room, if_pos large,
        repeatedSize_cons, repeatedSize_cons]
      dsimp only
      constructor
      · intro same _ _ cut
        cases cut
        exact here.mp (by omega)
      · intro kept
        have same := here.mpr (kept _ _ rfl)
        omega

variable {headerSize : H → Int}

theorem Envelope.extract_exactAt_iff (headers : ∀ header, 0 ≤ headerSize header) (src : Envelope H C) (capacity : Int)
    (small : src.sizeProto headerSize size < 2 ^ 63) :
    ExactAt (Envelope.sizeProto headerSize size) (Envelope.extract protoDelta (Envelope.sizeProto headerSize size)
        (takeGroup protoDelta size extract length empty)) src capacity ↔
      ∀ child left, cutAt size (src.childCapacity headerSize size capacity) src.children = some (child, left) →
        steady child left := by
  have base := sizeProto_nonneg headers nonneg { src with children := [] }
  rw [sizeProto_eq src] at small
  have children : ∀ child ∈ src.children, size child < 2 ^ 63 := by
    intro child member
    have part := le_repeatedSize nonneg member
    omega
  have account := takeGroup_exact_iff nothing nonneg covers exact
    { capacityLeft := src.childCapacity headerSize size capacity } src.children children
  rw [← account, ExactAt, sizeProto_eq src, sizeProto_eq (Envelope.extract _ _ _ _ _).rest]
  simp only [Envelope.extract, Envelope.childCapacity, capacityIn]
  constructor <;> intro same <;> omega

theorem extractAll_exactAt_iff (src : List C) (capacity : Int) (small : repeatedSize size src < 2 ^ 63) :
    ExactAt (repeatedSize size) (extractAll (repeatedSize size) (takeGroup protoDelta size extract length empty)) src
        capacity ↔
      ∀ child left, cutAt size capacity src = some (child, left) → steady child left := by
  have children : ∀ child ∈ src, size child < 2 ^ 63 := by
    intro child member
    have part := le_repeatedSize nonneg member
    omega
  have account := takeGroup_exact_iff nothing nonneg covers exact { capacityLeft := capacity - 0 } src children
  rw [Int.sub_zero] at account
  rw [← account, ExactAt]
  simp [extractAll]

end calls

section splitter
variable (splitter : Splitter C β) (maxSize : Int)

/-- The cached size stays the size, and split returns no request without items, unless it was given none, and no error
that drops nothing. -/
structure Splitter.Faithful (req : SignalRequest C) : Prop where
  exact : ∀ state next, splitter.Iterates maxSize ⟨[], req⟩ state → splitter.iterate maxSize state = some next →
    ExactAt splitter.size splitter.extract state.req.data maxSize ∧ next.req.cachedSize = splitter.size next.req.data
  returned : splitter.count req.data ≠ 0 →
    ∀ request ∈ (splitter.split maxSize [] req).1, splitter.count request.data ≠ 0
  error : ∀ item, (splitter.split maxSize [] req).2 ≠ some (.oversized item 0)

/-- Every iteration reports what it takes, and leaves items. -/
def Splitter.Leaves (req : SignalRequest C) : Prop :=
  ∀ state next, splitter.Iterates maxSize ⟨[], req⟩ state → splitter.iterate maxSize state = some next →
    ExactAt splitter.size splitter.extract state.req.data maxSize ∧
      splitter.count (splitter.extract state.req.data maxSize).dest < splitter.count state.req.data

variable {splitter maxSize}

theorem Splitter.Iterates.count_le (positive : 0 < maxSize) {first state : SplitLoop C}
    (reached : splitter.Iterates maxSize first state) :
    splitter.count state.req.data ≤ splitter.count first.req.data := by
  induction reached with
  | start => exact le_refl _
  | @step state _ _ _ _ iterated before =>
    have parts := splitter.count_extract state.req.data maxSize
    rcases splitter.iterate_eq_some positive iterated with ⟨_, rfl⟩
    dsimp only
    omega

theorem Splitter.gives_up_itemless {state : SplitLoop C}
    (exceeds : (state.req.sized splitter.size).cachedSize > maxSize) (none : splitter.count state.req.data = 0) :
    splitter.split maxSize state.res state.req = (state.res, some (.oversized splitter.item 0)) := by
  have parts := splitter.count_extract state.req.data maxSize
  rw [splitter.split_gives_up exceeds (by omega), none]

variable {req : SignalRequest C}

theorem Splitter.Faithful.leaves (faithful : splitter.Faithful maxSize req) (positive : 0 < maxSize) :
    splitter.Leaves maxSize req := by
  intro state next reached iterated
  refine ⟨(faithful.exact state next reached iterated).1, ?_⟩
  by_contra all
  have parts := splitter.count_extract state.req.data maxSize
  have taken := splitter.iterate_takes iterated
  have given := reached.count_le positive
  have after := Splitter.Iterates.then reached iterated
  have none : splitter.count next.req.data = 0 := by
    rcases splitter.iterate_eq_some positive iterated with ⟨_, rfl⟩
    dsimp only
    omega
  -- what is left without items ends the loop, one way or the other
  by_cases exceeds : (next.req.sized splitter.size).cachedSize > maxSize
  · apply faithful.error splitter.item
    rw [after.split_eq, splitter.gives_up_itemless exceeds none]
  · apply faithful.returned (by dsimp only at given; omega) (next.req.sized splitter.size) _ none
    rw [after.split_eq, splitter.split_finishes (not_lt.mp exceeds)]
    simp

theorem Splitter.Leaves.measured (leaves : splitter.Leaves maxSize req) (positive : 0 < maxSize)
    (measured : req.Measured splitter.size) {state : SplitLoop C}
    (reached : splitter.Iterates maxSize ⟨[], req⟩ state) : state.req.Measured splitter.size := by
  induction reached with
  | start => exact measured
  | step before _ iterated ih =>
    exact .inr (splitter.iterate_cached positive (leaves _ _ before iterated).1 ih iterated)

theorem Splitter.Leaves.items (leaves : splitter.Leaves maxSize req) (positive : 0 < maxSize) {state : SplitLoop C}
    (reached : splitter.Iterates maxSize ⟨[], req⟩ state) :
    state = ⟨[], req⟩ ∨ splitter.count state.req.data ≠ 0 := by
  rcases reached.last with same | ⟨before, earlier, iterated⟩
  · exact .inl same
  · right
    have parts := splitter.count_extract before.req.data maxSize
    have fewer := (leaves _ _ earlier iterated).2
    rcases splitter.iterate_eq_some positive iterated with ⟨_, rfl⟩
    dsimp only
    omega

theorem Splitter.faithful_iff (positive : 0 < maxSize) (measured : req.Measured splitter.size) :
    splitter.Faithful maxSize req ↔
      (splitter.count req.data = 0 → splitter.size req.data ≤ maxSize) ∧ splitter.Leaves maxSize req := by
  constructor
  · intro faithful
    refine ⟨fun none => ?_, faithful.leaves positive⟩
    by_contra large
    have exceeds : (req.sized splitter.size).cachedSize > maxSize := by
      rw [measured.sized]
      exact not_le.mp large
    apply faithful.error splitter.item
    rw [@Splitter.gives_up_itemless _ _ splitter maxSize ⟨[], req⟩ exceeds none]
  · intro condition
    rcases condition with ⟨small, leaves⟩
    constructor
    · intro state next reached iterated
      have exact := (leaves state next reached iterated).1
      exact ⟨exact, splitter.iterate_cached positive exact (leaves.measured positive measured reached) iterated⟩
    · intro some
      apply (splitter.forall_split (fun data => splitter.count data ≠ 0) [] req).mpr
      refine ⟨by simp, fun state next _ iterated => splitter.iterate_takes iterated, fun state reached _ => ?_⟩
      rcases leaves.items positive reached with rfl | left
      · exact some
      · exact left
    · intro item error
      rcases splitter.loop_ends [] req with ⟨state, reached, ended⟩
      rw [reached.split_eq] at error
      by_cases exceeds : (state.req.sized splitter.size).cachedSize > maxSize
      · have none : splitter.count (splitter.extract state.req.data maxSize).dest = 0 := by
          by_contra some
          rw [Splitter.iterate, if_pos ⟨exceeds, some⟩] at ended
          cases ended
        rw [splitter.split_gives_up exceeds none] at error
        simp only [Option.some.injEq, MergeError.oversized.injEq] at error
        rcases leaves.items positive reached with rfl | left
        · rw [measured.sized] at exceeds
          exact absurd (small error.2) (not_le.mpr exceeds)
        · exact left error.2
      · rw [splitter.split_finishes (not_lt.mp exceeds)] at error
        cases error

end splitter

section metrics
variable (wire : MetricsWire R S M P)

/-- The length of the data points' message does not become shorter with what is taken. -/
def Metric.Steady (metric : Metric M P) (capacity : Int) : Prop :=
  let points := repeatedSize id (metric.data.pointSizes wire)
  let taken := repeatedSize id (metric.pointsTaken wire capacity)
  sov (points - taken + metric.data.fieldsSize) = sov (points + metric.data.fieldsSize)

def ScopeSteady (sm : ScopeMetrics S M P) (capacity : Int) : Prop :=
  ∀ metric left, cutAt (metricsBytesSizer wire).metricSize
      (sm.childCapacity wire.scope (metricsBytesSizer wire).metricSize capacity) sm.children = some (metric, left) →
    metric.Steady wire left

def ResourceSteady (rm : ResourceMetrics R S M P) (capacity : Int) : Prop :=
  ∀ sm left, cutAt (metricsBytesSizer wire).scopeMetricsSize
      (rm.childCapacity wire.resource (metricsBytesSizer wire).scopeMetricsSize capacity) rm.children = some (sm, left) →
    ScopeSteady wire sm left

/-- If the first `capacity` bytes of the metrics end inside a metric, the length of its message keeps its length. -/
def CutSteady (capacity : Int) (md : Metrics R S M P) : Prop :=
  ∀ rm left, cutAt (metricsBytesSizer wire).resourceMetricsSize capacity md = some (rm, left) →
    ResourceSteady wire rm left

def Metric.pointsWithin (metric : Metric M P) (capacity : Int) : Nat := (metric.pointsTaken wire capacity).length

def scopePointsWithin (sm : ScopeMetrics S M P) (capacity : Int) : Nat :=
  takenFrom dataPointsLen (metricsBytesSizer wire).metricSize (Metric.pointsWithin wire)
    (sm.childCapacity wire.scope (metricsBytesSizer wire).metricSize capacity) sm.children

def resourcePointsWithin (rm : ResourceMetrics R S M P) (capacity : Int) : Nat :=
  takenFrom (Envelope.count dataPointsLen) (metricsBytesSizer wire).scopeMetricsSize (scopePointsWithin wire)
    (rm.childCapacity wire.resource (metricsBytesSizer wire).scopeMetricsSize capacity) rm.children

def pointsWithin (capacity : Int) (md : Metrics R S M P) : Nat :=
  takenFrom (Envelope.count (Envelope.count dataPointsLen)) (metricsBytesSizer wire).resourceMetricsSize
    (resourcePointsWithin wire) capacity md

variable {wire}

theorem Metric.exactAt_iff (src : Metric M P) (capacity : Int) :
    ExactAt (Metric.sizeProto wire) (extractMetricDataPoints (metricsBytesSizer wire)) src capacity ↔
      src.Steady wire capacity := by
  have cut : MetricCut wire src capacity _ := extractMetricDataPoints_cut src capacity
  rw [ExactAt]
  generalize extractMetricDataPoints (metricsBytesSizer wire) src capacity = ext at cut
  have removed := cut.points.removed
  have balance := cut.points.rest
  rw [Metric.sizeProto_eq, Metric.sizeProto_eq src, cut.descriptor.2]
  unfold Metric.Steady Metric.pointsTaken
  by_cases none : src.data = .empty
  · rw [none, cut.data.2.mpr none]
    simp only [none, MetricData.pointSizes, fitting, repeatedSize_nil] at removed ⊢
    simp [removed]
  · have rest : ext.rest.data ≠ .empty := mt cut.data.2.mp none
    have left : ext.removedSize + repeatedSize id (ext.rest.data.pointSizes wire) - ext.removedSize =
        repeatedSize id (ext.rest.data.pointSizes wire) := by omega
    rw [MetricData.sizeProto_eq none, MetricData.sizeProto_eq rest, cut.fields.2, ← removed, ← balance]
    simp only [left, protoDelta]
    constructor <;> intro same <;> omega

theorem Metric.count_dest (src : Metric M P) (capacity : Int) :
    dataPointsLen (extractMetricDataPoints (metricsBytesSizer wire) src capacity).dest =
      src.pointsWithin wire capacity := by
  rw [dataPointsLen_eq wire, (extractMetricDataPoints_cut src capacity).points.dest]
  rfl

variable [Inhabited M]

theorem extractScopeMetrics_exactAt_iff (sizes : wire.Nonneg) (sm : ScopeMetrics S M P) (capacity : Int)
    (small : (metricsBytesSizer wire).scopeMetricsSize sm < 2 ^ 63) :
    ExactAt (metricsBytesSizer wire).scopeMetricsSize (extractScopeMetrics (metricsBytesSizer wire)) sm capacity ↔
      ScopeSteady wire sm capacity :=
  extract_exactAt_iff (by rfl) (Metric.sizeProto_nonneg sizes) (extractMetricDataPoints_covers sizes)
    (fun metric left _ => metric.exactAt_iff left) sizes.scope sm capacity small

theorem scopeMetrics_count_dest (sm : ScopeMetrics S M P) (capacity : Int) :
    (extractScopeMetrics (metricsBytesSizer wire) sm capacity).dest.count dataPointsLen =
      scopePointsWithin wire sm capacity :=
  takeGroup_takenFrom (by rfl) (fun _ none => none) Metric.count_dest _ sm.children

variable [Inhabited S]

theorem extractResourceMetrics_exactAt_iff (sizes : wire.Nonneg) (rm : ResourceMetrics R S M P) (capacity : Int)
    (small : (metricsBytesSizer wire).resourceMetricsSize rm < 2 ^ 63) :
    ExactAt (metricsBytesSizer wire).resourceMetricsSize (extractResourceMetrics (metricsBytesSizer wire)) rm capacity ↔
      ResourceSteady wire rm capacity :=
  extract_exactAt_iff (by rfl) (scopeMetrics_nonneg sizes) (extractScopeMetrics_covers sizes)
    (extractScopeMetrics_exactAt_iff sizes) sizes.resource rm capacity small

theorem resourceMetrics_count_dest (rm : ResourceMetrics R S M P) (capacity : Int) :
    (extractResourceMetrics (metricsBytesSizer wire) rm capacity).dest.count (Envelope.count dataPointsLen) =
      resourcePointsWithin wire rm capacity :=
  takeGroup_takenFrom (by rfl) count_childless scopeMetrics_count_dest _ rm.children

variable [Inhabited R]

theorem extractMetrics_exactAt_iff (sizes : wire.Nonneg) (md : Metrics R S M P) (capacity : Int)
    (small : (metricsBytesSizer wire).metricsSize md < 2 ^ 63) :
    ExactAt (metricsBytesSizer wire).metricsSize (extractMetrics (metricsBytesSizer wire)) md capacity ↔
      CutSteady wire capacity md :=
  extractAll_exactAt_iff (by rfl) (resourceMetrics_nonneg sizes) (extractResourceMetrics_covers sizes)
    (extractResourceMetrics_exactAt_iff sizes) md capacity small

theorem metrics_count_dest (md : Metrics R S M P) (capacity : Int) :
    dataPointCount (extractMetrics (metricsBytesSizer wire) md capacity).dest = pointsWithin wire capacity md := by
  calc
    dataPointCount (extractMetrics (metricsBytesSizer wire) md capacity).dest = pointsWithin wire (capacity - 0) md :=
      takeGroup_takenFrom (by rfl) count_childless resourceMetrics_count_dest _ md
    _ = pointsWithin wire capacity md := by rw [Int.sub_zero]

/-- One call is exact iff the metric that it cuts, if any, keeps the length of its data points' message. A request
whose cached size is unknown or right is split faithfully iff every iteration is exact and data points are left by it.
-/
theorem metrics_cached_exact_iff (sizes : wire.Nonneg) :
    (∀ (md : Metrics R S M P) capacity, (metricsBytesSizer wire).metricsSize md < 2 ^ 63 →
      (ExactAt (metricsBytesSizer wire).metricsSize (extractMetrics (metricsBytesSizer wire)) md capacity ↔
        CutSteady wire capacity md)) ∧
    ∀ (maxSize : Int) (req : MetricsRequest R S M P), 0 < maxSize →
      req.Measured (metricsBytesSizer wire).metricsSize → (metricsBytesSizer wire).metricsSize req.data < 2 ^ 63 →
      ((metricsSplitter (metricsBytesSizer wire)).Faithful maxSize req ↔
        (dataPointCount req.data = 0 → (metricsBytesSizer wire).metricsSize req.data ≤ maxSize) ∧
        ∀ state next, (metricsSplitter (metricsBytesSizer wire)).Iterates maxSize ⟨[], req⟩ state →
          (metricsSplitter (metricsBytesSizer wire)).iterate maxSize state = some next →
            CutSteady wire maxSize state.req.data ∧
              pointsWithin wire maxSize state.req.data < dataPointCount state.req.data) := by
  refine ⟨extractMetrics_exactAt_iff sizes, fun maxSize req positive measured small => ?_⟩
  have ints : ∀ state, (metricsSplitter (metricsBytesSizer wire)).Iterates maxSize ⟨[], req⟩ state →
      (metricsBytesSizer wire).metricsSize state.req.data < 2 ^ 63 := by
    intro state reached
    have kept : state.req.Covered (metricsBytesSizer wire).metricsSize ∧
        (metricsBytesSizer wire).metricsSize state.req.data < 2 ^ 63 := by
      induction reached with
      | start => exact ⟨measured.sized.ge, small⟩
      | step _ _ iterated before =>
        exact Splitter.iterate_covered (extractMetrics_covers sizes) (repeatedSize_nonneg (resourceMetrics_nonneg sizes)) positive before
          iterated
    exact kept.2
  refine (Splitter.faithful_iff positive measured).trans (and_congr_right fun _ => ?_)
  refine forall_congr' fun state => forall_congr' fun next => imp_congr_right fun reached => imp_congr_right fun _ => ?_
  have exact := extractMetrics_exactAt_iff sizes state.req.data maxSize (ints state reached)
  rw [← metrics_count_dest state.req.data maxSize]
  exact and_congr_left fun _ => exact

end metrics

/-- Of three data points of 8 bytes two are taken. -/
theorem metrics_cached_exact_iff_gauge :
    CutSteady plainMetricsWire 28 (metricRequest (.gauge [6, 6, 6])).data ∧
    ((metricsSplitter (metricsBytesSizer plainMetricsWire)).Faithful 28 (metricRequest (.gauge [6, 6, 6])) ↔
      (dataPointCount (metricRequest (.gauge [6, 6, 6])).data = 0 →
        (metricsBytesSizer plainMetricsWire).metricsSize (metricRequest (.gauge [6, 6, 6])).data ≤ 28) ∧
      ∀ state next, (metricsSplitter (metricsBytesSizer plainMetricsWire)).Iterates 28
          ⟨[], metricRequest (.gauge [6, 6, 6])⟩ state →
        (metricsSplitter (metricsBytesSizer plainMetricsWire)).iterate 28 state = some next →
          CutSteady plainMetricsWire 28 state.req.data ∧
            pointsWithin plainMetricsWire 28 state.req.data < dataPointCount state.req.data) := by
  constructor
  · apply ((metrics_cached_exact_iff plainMetricsWire_nonneg).1 _ 28 (by decide +kernel)).mp
    unfold ExactAt
    decide +kernel
  · exact (metrics_cached_exact_iff plainMetricsWire_nonneg).2 28 (metricRequest (.gauge [6, 6, 6])) (by decide)
      (.inl rfl) (by decide +kernel)

/-- Of two data points of 64 bytes one is taken, and the length of the other's message becomes one byte shorter: of
144 bytes 76 are left, and 67 are reported as removed. The rest, counted as 77, is split as too large, and a request
without data points follows. -/
theorem metrics_cached_size_drifts :
    (extractMetrics (metricsBytesSizer plainMetricsWire) (metricRequest (.gauge [62, 62])).data 76).removedSize = 67 ∧
    (metricsBytesSizer plainMetricsWire).metricsSize (metricRequest (.gauge [62, 62])).data = 144 ∧
    ((MetricsRequest.mergeSplit plainMetricsWire 76 .bytes none (metricRequest (.gauge [62, 62]))).1.map fun returned =>
      ((metricsBytesSizer plainMetricsWire).metricsSize returned.data, dataPointCount returned.data)) =
        [(76, 1), (76, 1), (0, 0)] := by
  decide +kernel

end CollectorFormal.Batch
