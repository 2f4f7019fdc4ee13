import CollectorFormal.Batch.BytesLimit
import CollectorFormal.Batch.Metrics

/-! Metrics split by bytes: when the batches stay within the limit.

The room made for data points leaves out how the length of their message grows and the fields that are set after
them. -/

namespace CollectorFormal.Batch

open Lib Envelope

variable {R S M H C : Type} {P : PointType → Type}

section room

/-- The largest message that takes no more than `limit` bytes with its tag and length. -/
def roomAt (limit : Int) : Int :=
  if sov (limit - sov limit) < sov limit then limit - sov limit else limit - 1 - sov limit

theorem protoDelta_le_iff {size limit : Int} (nonneg : 0 ≤ size) (int : limit < 2 ^ 63) :
    protoDelta size ≤ limit ↔ size ≤ roomAt limit := by
  have some := sov_pos size
  have one := sov_pos limit
  have many := sov_le_ten limit
  have word : size ≤ limit → sov size ≤ sov limit := fun le => sov_mono nonneg le (by omega)
  unfold roomAt protoDelta
  constructor
  · intro fits
    have near : limit ≤ size + 10 → sov limit ≤ sov size + 1 := by
      intro near
      exact sov_near nonneg (by omega) near (by omega) (by omega)
    have next : limit - sov limit ≤ size → 0 ≤ limit - sov limit → sov (limit - sov limit) ≤ sov size :=
      fun le positive => sov_mono positive le (by omega)
    split <;> omega
  · intro room
    split at room
    · next shorter =>
        have := sov_mono nonneg room (by omega)
        omega
    · have := word (by omega)
      omega

/-- How much more the children may take, when the message may exceed the capacity by `slack`. -/
def gain (capacity slack : Int) : Int := roomAt (capacity + slack) - capacityIn 0 capacity

/-- Capacities in the range of an int, with a slack that takes nothing away. -/
structure Admits (capacity slack : Int) : Prop where
  int : capacity + slack < 2 ^ 63
  some : 0 ≤ capacity → 0 ≤ slack

theorem capacityIn_add_gain (base capacity slack : Int) :
    capacityIn base capacity + gain capacity slack = roomAt (capacity + slack) - base := by
  unfold gain capacityIn
  omega

theorem roomAt_le (limit : Int) : roomAt limit ≤ limit := by
  have := sov_pos limit
  unfold roomAt
  split <;> omega

theorem Admits.gain_nonneg {capacity slack : Int} (admits : Admits capacity slack)
    (room : 0 ≤ capacityIn 0 capacity) : 0 ≤ gain capacity slack := by
  have one := sov_pos capacity
  have within : protoDelta (capacityIn 0 capacity) ≤ capacity + slack := by
    have int := admits.int
    have some := admits.some
    have length := sov_mono room (y := capacity)
    unfold capacityIn protoDelta at *
    omega
  have := (protoDelta_le_iff room admits.int).mp within
  unfold gain
  omega

theorem Admits.inside {capacity slack base left : Int} (admits : Admits capacity slack) (nonneg : 0 ≤ base)
    (less : left ≤ capacityIn base capacity) : Admits left (gain capacity slack) := by
  have total := capacityIn_add_gain base capacity slack
  have room := roomAt_le (capacity + slack)
  have int := admits.int
  constructor
  · omega
  · intro positive
    apply admits.gain_nonneg
    unfold capacityIn at *
    omega

end room

section metric
variable (wire : MetricsWire R S M P)

def MetricData.pointSizes : MetricData P → List Int
  | .empty => []
  | .gauge dataPoints => dataPoints.map (wire.dataPoint .number)
  | .sum _ _ dataPoints => dataPoints.map (wire.dataPoint .number)
  | .histogram _ dataPoints => dataPoints.map (wire.dataPoint .histogram)
  | .exponentialHistogram _ dataPoints => dataPoints.map (wire.dataPoint .exponentialHistogram)
  | .summary dataPoints => dataPoints.map (wire.dataPoint .summary)

def MetricData.fieldsSize : MetricData P → Int
  | .sum temporality isMonotonic _ => temporality.sizeProto + if isMonotonic then 2 else 0
  | .histogram temporality _ => temporality.sizeProto
  | .exponentialHistogram temporality _ => temporality.sizeProto
  | _ => 0

variable (metric : Metric M P)

def Metric.descriptorSize : Int :=
  stringSize metric.name + stringSize metric.description + stringSize metric.unit + wire.metadata metric.metadata

/-- What is left for data points, beside the descriptor and an empty message for them. -/
def Metric.pointsCapacity (capacity : Int) : Int :=
  capacityIn (metric.descriptorSize wire + 2) capacity

def Metric.pointsTaken (capacity : Int) : List Int :=
  fitting id (metric.pointsCapacity wire capacity) (metric.data.pointSizes wire)

/-- The bytes that no room is made for: fields, and a length of more than one byte. -/
def MetricData.unreserved (data : MetricData P) (taken : Int) : Int :=
  data.fieldsSize + (sov (taken + data.fieldsSize) - 1)

/-- Where the metric is cut, there is room for the bytes that were left out. -/
def Metric.Fits (capacity slack : Int) : Prop :=
  let taken := repeatedSize id (metric.pointsTaken wire capacity)
  metric.pointsTaken wire capacity ≠ [] →
    taken + metric.data.unreserved taken ≤ metric.pointsCapacity wire capacity + gain capacity slack

variable {wire}

theorem MetricData.sizeProto_eq {data : MetricData P} (some : data ≠ .empty) :
    data.sizeProto wire = protoDelta (repeatedSize id (data.pointSizes wire) + data.fieldsSize) := by
  cases data <;>
    simp [MetricData.sizeProto, MetricData.pointSizes, MetricData.fieldsSize, repeatedSize_map, add_assoc] at some ⊢

theorem Metric.sizeProto_eq : metric.sizeProto wire = metric.descriptorSize wire + metric.data.sizeProto wire := by
  unfold Metric.sizeProto Metric.descriptorSize
  omega

structure PointsCut (sizes : List Int) (capacity : Int) (dest rest : List Int) (removedSize : Int) : Prop where
  dest : dest = fitting id capacity sizes
  removed : removedSize = repeatedSize id (fitting id capacity sizes)
  rest : removedSize + repeatedSize id rest = repeatedSize id sizes

theorem Metric.sizeProto_pointless {metric : Metric M P} (some : metric.data ≠ .empty)
    (points : metric.data.pointSizes wire = []) (fields : metric.data.fieldsSize = 0) :
    metric.sizeProto wire = metric.descriptorSize wire + 2 := by
  have zero : protoDelta 0 = 2 := by decide +kernel
  rw [Metric.sizeProto_eq, MetricData.sizeProto_eq some, points, fields, repeatedSize_nil, Int.add_zero, zero]

theorem extractDataPoints_cut {src destMetric : Metric M P} {capacity : Int} {type : PointType}
    {dataPoints : List (P type)} {ext : Extracted (List (P type))}
    (cut : extractDataPoints (metricsBytesSizer wire) dataPoints destMetric capacity = ext)
    (same : destMetric.descriptorSize wire = src.descriptorSize wire) (some : destMetric.data ≠ .empty)
    (points : destMetric.data.pointSizes wire = []) (fields : destMetric.data.fieldsSize = 0) :
    PointsCut (dataPoints.map (wire.dataPoint type)) (src.pointsCapacity wire capacity)
      (ext.dest.map (wire.dataPoint type)) (ext.rest.map (wire.dataPoint type)) ext.removedSize := by
  subst cut
  let first : Extraction (P type) := { capacityLeft := capacityIn (destMetric.sizeProto wire) capacity }
  obtain ⟨dest, removed⟩ := takeRecord_dest (wire.dataPoint type) first dataPoints
  have balance := removeIf_balanced (takeRecord_balanced (wire.dataPoint type)) first dataPoints
  rw [Metric.pointsCapacity, ← same, ← Metric.sizeProto_pointless some points fields]
  constructor
  · calc
      _ = (fitting (wire.dataPoint type) (capacityIn (destMetric.sizeProto wire) capacity) dataPoints).map
          (wire.dataPoint type) := congrArg _ dest
      _ = _ := fitting_map _ dataPoints
  · calc
      _ = 0 + repeatedSize (wire.dataPoint type)
          (fitting (wire.dataPoint type) (capacityIn (destMetric.sizeProto wire) capacity) dataPoints) := removed
      _ = _ := by rw [Int.zero_add, ← fitting_map, repeatedSize_map]
  · rw [repeatedSize_map, repeatedSize_map, ← Int.zero_add (repeatedSize _ dataPoints)]
    exact balance

structure MetricCut (wire : MetricsWire R S M P) (src : Metric M P) (capacity : Int) (ext : Extracted (Metric M P)) :
    Prop where
  points : PointsCut (src.data.pointSizes wire) (src.pointsCapacity wire capacity)
    (ext.dest.data.pointSizes wire) (ext.rest.data.pointSizes wire) ext.removedSize
  fields : ext.dest.data.fieldsSize = src.data.fieldsSize ∧ ext.rest.data.fieldsSize = src.data.fieldsSize
  descriptor : ext.dest.descriptorSize wire = src.descriptorSize wire ∧
    ext.rest.descriptorSize wire = src.descriptorSize wire
  data : (ext.dest.data = .empty ↔ src.data = .empty) ∧ (ext.rest.data = .empty ↔ src.data = .empty)

theorem extractMetricDataPoints_cut (src : Metric M P) (capacity : Int) :
    MetricCut wire src capacity (extractMetricDataPoints (metricsBytesSizer wire) src capacity) := by
  obtain ⟨name, description, unit, metadata, data⟩ := src
  cases data with
  | empty => exact ⟨⟨rfl, rfl, rfl⟩, ⟨rfl, rfl⟩, ⟨rfl, rfl⟩, ⟨Iff.rfl, Iff.rfl⟩⟩
  | _ =>
    refine ⟨?_, ⟨rfl, rfl⟩, ⟨rfl, rfl⟩, ?_⟩
    · exact extractDataPoints_cut rfl rfl (by simp) rfl rfl
    · simp [extractMetricDataPoints]

/-- SizeProto is never negative. -/
structure MetricsWire.Nonneg (wire : MetricsWire R S M P) : Prop where
  resource : ∀ resource, 0 ≤ wire.resource resource
  scope : ∀ scope, 0 ≤ wire.scope scope
  metadata : ∀ metadata, 0 ≤ wire.metadata metadata
  dataPoint : ∀ type dataPoint, 0 ≤ wire.dataPoint type dataPoint

variable (wire) in
theorem dataPointsLen_eq : dataPointsLen metric = (metric.data.pointSizes wire).length := by
  obtain ⟨_, _, _, _, data⟩ := metric
  cases data <;> simp [dataPointsLen, MetricData.pointSizes]

theorem pointSizes_nonneg (sizes : wire.Nonneg) (data : MetricData P) : 0 ≤ repeatedSize id (data.pointSizes wire) := by
  cases data with
  | empty => exact le_refl 0
  | _ =>
    simp only [MetricData.pointSizes, repeatedSize_map]
    exact repeatedSize_nonneg (sizes.dataPoint _) _

theorem fieldsSize_nonneg (data : MetricData P) : 0 ≤ data.fieldsSize := by
  have temporality (value : AggregationTemporality) : 0 ≤ value.sizeProto := by
    have := sov_pos value.value
    unfold AggregationTemporality.sizeProto
    split <;> omega
  cases data with
  | sum value isMonotonic _ =>
    have := temporality value
    cases isMonotonic <;> simp [MetricData.fieldsSize] <;> omega
  | histogram value | exponentialHistogram value => exact temporality value
  | _ => exact le_refl 0

theorem stringSize_nonneg (text : String) : 0 ≤ stringSize text := by
  unfold stringSize
  split
  · exact (protoDelta_pos (Int.natCast_nonneg _)).le
  · exact le_refl 0

section
variable (sizes : wire.Nonneg)
include sizes

theorem Metric.descriptorSize_nonneg (metric : Metric M P) : 0 ≤ metric.descriptorSize wire := by
  have name := stringSize_nonneg metric.name
  have description := stringSize_nonneg metric.description
  have unit := stringSize_nonneg metric.unit
  have metadata := sizes.metadata metric.metadata
  unfold Metric.descriptorSize
  omega

theorem Metric.sizeProto_nonneg (metric : Metric M P) : 0 ≤ metric.sizeProto wire := by
  have descriptor := metric.descriptorSize_nonneg sizes
  rw [Metric.sizeProto_eq]
  by_cases none : metric.data = .empty
  · rw [none]
    exact Int.add_nonneg descriptor (le_refl 0)
  · have points := pointSizes_nonneg sizes metric.data
    have fields := fieldsSize_nonneg metric.data
    rw [MetricData.sizeProto_eq none]
    exact Int.add_nonneg descriptor (protoDelta_pos (by omega)).le

theorem Metric.cut_within_iff (src : Metric M P) {capacity slack : Int}
    (admits : Admits capacity slack) {ext : Extracted (Metric M P)} (cut : MetricCut wire src capacity ext) :
    (dataPointsLen ext.dest > 0 → protoDelta (ext.dest.sizeProto wire) ≤ capacity + slack) ↔
      src.Fits wire capacity slack := by
  rw [protoDelta_le_iff (ext.dest.sizeProto_nonneg sizes) admits.int, dataPointsLen_eq wire, gt_iff_lt,
    List.length_pos_iff, Metric.sizeProto_eq, cut.points.dest, cut.descriptor.1]
  apply imp_congr_right
  intro some
  have data : ext.dest.data ≠ .empty := by
    intro none
    apply some
    rw [← cut.points.dest, none]
    rfl
  have total := capacityIn_add_gain (src.descriptorSize wire + 2) capacity slack
  rw [MetricData.sizeProto_eq data, cut.points.dest, cut.fields.1]
  simp only [Metric.pointsTaken, Metric.pointsCapacity, MetricData.unreserved, protoDelta] at total ⊢
  omega

/-- Of a metric that is cut only the data points are reported, not the length that shrinks
with them. -/
theorem extractMetricDataPoints_covers :
    Covers (Metric.sizeProto wire) (extractMetricDataPoints (metricsBytesSizer wire)) := by
  intro src capacity small
  obtain ⟨ext, extracted⟩ : ∃ ext, extractMetricDataPoints (metricsBytesSizer wire) src capacity = ext := ⟨_, rfl⟩
  have cut : MetricCut wire src capacity ext := extracted ▸ extractMetricDataPoints_cut src capacity
  rw [extracted]
  have taken := pointSizes_nonneg sizes ext.dest.data
  have kept := pointSizes_nonneg sizes ext.rest.data
  have fields := fieldsSize_nonneg src.data
  have descriptor := src.descriptorSize_nonneg sizes
  have removed := cut.points.removed
  have balance := cut.points.rest
  rw [cut.points.dest] at taken
  rw [Metric.sizeProto_eq] at small
  rw [Metric.sizeProto_eq, Metric.sizeProto_eq src, cut.descriptor.2]
  by_cases none : src.data = .empty
  · simp only [none, MetricData.pointSizes, fitting, repeatedSize_nil] at removed
    rw [none, cut.data.2.mpr none]
    omega
  · have rest : ext.rest.data ≠ .empty := mt cut.data.2.mp none
    have own := le_protoDelta (repeatedSize id (src.data.pointSizes wire) + src.data.fieldsSize)
    rw [MetricData.sizeProto_eq none] at small ⊢
    rw [MetricData.sizeProto_eq rest, cut.fields.2]
    have shrinks : sov (repeatedSize id (ext.rest.data.pointSizes wire) + src.data.fieldsSize) ≤
        sov (repeatedSize id (src.data.pointSizes wire) + src.data.fieldsSize) :=
      sov_mono (by omega) (by omega) (by omega)
    unfold protoDelta
    omega

end

end metric

section levels
variable {size : C → Int} {extract : C → Int → Extracted C} {length : C → Nat} {empty : C} {headerSize : H → Int}

theorem Envelope.cut_within_iff (headers : ∀ header, 0 ≤ headerSize header) (nonneg : ∀ child, 0 ≤ size child)
    (nothing : length empty = 0) (src : Envelope H C) {capacity slack : Int} (admits : Admits capacity slack)
    {dest : Envelope H C} (taken : (Envelope.extract protoDelta (Envelope.sizeProto headerSize size)
      (takeGroup protoDelta size extract length empty) src capacity).dest = dest) :
    (dest.children.length > 0 → protoDelta (dest.sizeProto headerSize size) ≤ capacity + slack) ↔
      ∀ child left, cutAt size (src.childCapacity headerSize size capacity) src.children = some (child, left) →
        length (extract child left).dest > 0 →
          protoDelta (size (extract child left).dest) ≤ left + gain capacity slack := by
  have base := sizeProto_nonneg headers nonneg { src with children := [] }
  have whole := sizeProto_nonneg headers nonneg dest
  have room : 0 ≤ src.childCapacity headerSize size capacity → 0 ≤ gain capacity slack :=
    (admits.inside base (le_refl _)).some
  have total := capacityIn_add_gain (({ src with children := [] } : Envelope H C).sizeProto headerSize size)
    capacity slack
  rw [← takeGroup_within_iff nothing room nonneg src.children rfl, protoDelta_le_iff whole admits.int,
    sizeProto_eq dest]
  subst taken
  rw [gt_iff_lt, List.length_pos_iff]
  apply imp_congr_right
  intro _
  simp only [Envelope.extract, Envelope.childCapacity, capacityIn] at total ⊢
  omega

end levels

section tree
variable {wire : MetricsWire R S M P}

/-- Where the scope is cut, there is room for the bytes that were left out of its metric. -/
def ScopeFits (wire : MetricsWire R S M P) (sm : ScopeMetrics S M P) (capacity slack : Int) : Prop :=
  ∀ metric left, cutAt (metricsBytesSizer wire).metricSize
      (sm.childCapacity wire.scope (metricsBytesSizer wire).metricSize capacity) sm.children = some (metric, left) →
    metric.Fits wire left (gain capacity slack)

def ResourceFits (wire : MetricsWire R S M P) (rm : ResourceMetrics R S M P) (capacity slack : Int) : Prop :=
  ∀ sm left, cutAt (metricsBytesSizer wire).scopeMetricsSize
      (rm.childCapacity wire.resource (metricsBytesSizer wire).scopeMetricsSize capacity) rm.children =
        some (sm, left) →
    ScopeFits wire sm left (gain capacity slack)

/-- Where the first `maxSize` bytes end inside a metric, there is room for the bytes left out of that metric. -/
def CutFits (wire : MetricsWire R S M P) (maxSize : Int) (md : Metrics R S M P) : Prop :=
  ∀ rm left, cutAt (metricsBytesSizer wire).resourceMetricsSize maxSize md = some (rm, left) →
    ResourceFits wire rm left 0

theorem scopeMetrics_nonneg (sizes : wire.Nonneg) : ∀ sm, 0 ≤ (metricsBytesSizer wire).scopeMetricsSize sm :=
  sizeProto_nonneg sizes.scope (Metric.sizeProto_nonneg sizes)

theorem resourceMetrics_nonneg (sizes : wire.Nonneg) : ∀ rm, 0 ≤ (metricsBytesSizer wire).resourceMetricsSize rm :=
  sizeProto_nonneg sizes.resource (scopeMetrics_nonneg sizes)

theorem cutAt_le {size : C → Int} (nonneg : ∀ child, 0 ≤ size child) {capacity left : Int} {list : List C}
    {child : C} (cut : cutAt size capacity list = some (child, left)) : left ≤ capacity := by
  have balance := (fitting_add_cutAt cut).1
  have taken := repeatedSize_nonneg nonneg (fitting size capacity list)
  omega

variable [Inhabited M]

theorem extractScopeMetrics_within_iff (sizes : wire.Nonneg) (sm : ScopeMetrics S M P) {capacity slack : Int}
    (admits : Admits capacity slack) {dest : ScopeMetrics S M P}
    (taken : (extractScopeMetrics (metricsBytesSizer wire) sm capacity).dest = dest) :
    (dest.children.length > 0 → protoDelta ((metricsBytesSizer wire).scopeMetricsSize dest) ≤ capacity + slack) ↔
      ScopeFits wire sm capacity slack := by
  have metrics := Metric.sizeProto_nonneg sizes
  have base := sizeProto_nonneg sizes.scope metrics { sm with children := [] }
  refine (cut_within_iff sizes.scope metrics (by rfl) sm admits taken).trans ?_
  refine forall_congr' fun metric => forall_congr' fun left => imp_congr_right fun cut => ?_
  have inside := admits.inside base (cutAt_le metrics cut)
  exact Metric.cut_within_iff sizes metric inside (extractMetricDataPoints_cut metric left)

theorem extractScopeMetrics_covers (sizes : wire.Nonneg) :
    Covers (metricsBytesSizer wire).scopeMetricsSize
      (extractScopeMetrics (metricsBytesSizer wire) : ScopeMetrics S M P → Int → Extracted (ScopeMetrics S M P)) := by
  have metrics := Metric.sizeProto_nonneg sizes
  exact extract_covers sizes.scope metrics (takeGroup_cautious (by rfl) metrics (extractMetricDataPoints_covers sizes))

variable [Inhabited S]

theorem extractResourceMetrics_within_iff (sizes : wire.Nonneg) (rm : ResourceMetrics R S M P)
    {capacity slack : Int} (admits : Admits capacity slack) {dest : ResourceMetrics R S M P}
    (taken : (extractResourceMetrics (metricsBytesSizer wire) rm capacity).dest = dest) :
    (dest.children.length > 0 → protoDelta ((metricsBytesSizer wire).resourceMetricsSize dest) ≤ capacity + slack) ↔
      ResourceFits wire rm capacity slack := by
  have scopes := scopeMetrics_nonneg sizes
  have base := sizeProto_nonneg sizes.resource scopes { rm with children := [] }
  refine (cut_within_iff sizes.resource scopes (by rfl) rm admits taken).trans ?_
  refine forall_congr' fun sm => forall_congr' fun left => imp_congr_right fun cut => ?_
  have inside := admits.inside base (cutAt_le scopes cut)
  exact extractScopeMetrics_within_iff sizes sm inside rfl

theorem extractResourceMetrics_covers (sizes : wire.Nonneg) :
    Covers (metricsBytesSizer wire).resourceMetricsSize
      (extractResourceMetrics (metricsBytesSizer wire) : ResourceMetrics R S M P → Int → Extracted (ResourceMetrics R S M P)) := by
  have scopes := scopeMetrics_nonneg sizes
  exact extract_covers sizes.resource scopes (takeGroup_cautious (by rfl) scopes (extractScopeMetrics_covers sizes))

variable [Inhabited R]

theorem extractMetrics_within_iff (sizes : wire.Nonneg) {maxSize : Int} (positive : 0 < maxSize)
    (int : maxSize < 2 ^ 63) (md : Metrics R S M P) {dest : Metrics R S M P}
    (taken : (extractMetrics (metricsBytesSizer wire) md maxSize).dest = dest) :
    (metricsBytesSizer wire).metricsSize dest ≤ maxSize ↔ CutFits wire maxSize md := by
  have resources := resourceMetrics_nonneg sizes
  have slack : 0 ≤ maxSize - 0 → (0 : Int) ≤ 0 := fun _ => le_refl 0
  have within := takeGroup_within_iff (by rfl) slack resources md taken
  rw [Int.sub_zero, Int.add_zero] at within
  calc
    (metricsBytesSizer wire).metricsSize dest ≤ maxSize ↔
        (dest ≠ [] → (metricsBytesSizer wire).metricsSize dest ≤ maxSize) := by
      by_cases none : dest = []
      · rw [none]
        exact ⟨fun _ some => absurd rfl some, fun _ => positive.le⟩
      · exact ⟨fun le _ => le, fun le => le none⟩
    _ ↔ _ := within
    _ ↔ CutFits wire maxSize md := by
      refine forall_congr' fun rm => forall_congr' fun left => imp_congr_right fun cut => ?_
      have room : Admits left 0 := by
        have := cutAt_le resources cut
        exact ⟨by omega, fun _ => le_refl 0⟩
      exact extractResourceMetrics_within_iff sizes rm room rfl

theorem extractMetrics_covers (sizes : wire.Nonneg) :
    Covers (metricsBytesSizer wire).metricsSize
      (extractMetrics (metricsBytesSizer wire) : Metrics R S M P → Int → Extracted (Metrics R S M P)) := by
  have resources := resourceMetrics_nonneg sizes
  exact extractAll_covers resources (takeGroup_cautious (by rfl) resources (extractResourceMetrics_covers sizes))

/-- Any two requests whose cached sizes are unknown or not too small, and any limit: the requests returned are within
it iff in every iteration there is room for the bytes that are left out where the metrics are cut. -/
theorem metrics_within_limit_iff (sizes : wire.Nonneg) (maxSize : Int) (positive : 0 < maxSize)
    (int : maxSize < 2 ^ 63) (req : MetricsRequest R S M P) (r2 : Option (MetricsRequest R S M P))
    (covered : ∀ given ∈ req :: r2.toList, given.Covered (metricsBytesSizer wire).metricsSize)
    (small : (metricsBytesSizer wire).metricsSize (req.merged (metricsBytesSizer wire).metricsSize r2).data < 2 ^ 63) :
    (∀ returned ∈ (MetricsRequest.mergeSplit wire maxSize .bytes (r2.map .same) req).1,
        (metricsBytesSizer wire).metricsSize returned.data ≤ maxSize) ↔
      ∀ state next, (metricsSplitter (metricsBytesSizer wire)).Iterates maxSize
          ⟨[], req.merged (metricsBytesSizer wire).metricsSize r2⟩ state →
        (metricsSplitter (metricsBytesSizer wire)).iterate maxSize state = some next →
          CutFits wire maxSize state.req.data := by
  have resources := resourceMetrics_nonneg sizes
  have known : metricsSplitters wire .bytes = some (metricsSplitter (metricsBytesSizer wire)) := rfl
  have merged : (req.merged (metricsBytesSizer wire).metricsSize r2).Covered (metricsBytesSizer wire).metricsSize :=
    SignalRequest.Covered.merged (repeatedSize_nonneg resources) repeatedSize_append covered
  rw [MetricsRequest.mergeSplit, mergeSplit_eq_split _ positive.ne' known]
  refine (Splitter.split_within_iff (extractMetrics_covers sizes) (repeatedSize_nonneg resources) positive merged
    small).trans ?_
  refine forall_congr' fun state => forall_congr' fun next => imp_congr_right fun _ => imp_congr_right fun _ => ?_
  exact extractMetrics_within_iff sizes positive int state.req.data rfl

end tree

/-- Data points of the given sizes, under empty resources, scopes and descriptors. -/
def plainMetricsWire : MetricsWire Unit Unit Unit fun _ => Nat :=
  ⟨fun _ => 0, fun _ => 0, fun _ => 0, fun _ size => size⟩

theorem plainMetricsWire_nonneg : plainMetricsWire.Nonneg :=
  ⟨fun _ => le_refl 0, fun _ => le_refl 0, fun _ => le_refl 0, fun _ size => Int.natCast_nonneg size⟩

def metricRequest (data : MetricData fun _ => Nat) : MetricsRequest Unit Unit Unit fun _ => Nat :=
  { data := [⟨(), "", [⟨(), "", [{ metadata := (), data := data }]⟩]⟩] }

/-- A monotonic cumulative sum, of which two data points are taken. -/
theorem metrics_within_limit_iff_sum :
    (∀ returned ∈ (MetricsRequest.mergeSplit plainMetricsWire 28 .bytes none
        (metricRequest (.sum .cumulative true [6, 6, 6]))).1,
      (metricsBytesSizer plainMetricsWire).metricsSize returned.data ≤ 28) ↔
    ∀ state next, (metricsSplitter (metricsBytesSizer plainMetricsWire)).Iterates 28
        ⟨[], metricRequest (.sum .cumulative true [6, 6, 6])⟩ state →
      (metricsSplitter (metricsBytesSizer plainMetricsWire)).iterate 28 state = some next →
        CutFits plainMetricsWire 28 state.req.data := by
  apply metrics_within_limit_iff plainMetricsWire_nonneg 28 (by decide) (by decide) _ none
  · simp [SignalRequest.Covered, SignalRequest.sized, metricRequest]
  · decide +kernel

/-- The two data points leave no room for the fields of a sum, and those of the gauge none
for the second byte of a length. -/
theorem metrics_limit_exceeded :
    ((MetricsRequest.mergeSplit plainMetricsWire 28 .bytes none
        (metricRequest (.sum .cumulative true [6, 6, 6]))).1.map fun returned =>
      (metricsBytesSizer plainMetricsWire).metricsSize returned.data) = [32, 24] ∧
    ((MetricsRequest.mergeSplit plainMetricsWire 143 .bytes none
        (metricRequest (.gauge [62, 62, 62]))).1.map fun returned =>
      (metricsBytesSizer plainMetricsWire).metricsSize returned.data) = [144, 76] := by
  decide +kernel

end CollectorFormal.Batch
