import CollectorFormal.Batch.MergeSplit
import CollectorFormal.Batch.Sizer

/-! Metrics: resources with scopes with metrics with data points of one of four types. -/

namespace CollectorFormal.Batch

open Lib List

inductive PointType where
  | number
  | histogram
  | exponentialHistogram
  | summary
  deriving DecidableEq

inductive AggregationTemporality where
  | unspecified
  | delta
  | cumulative
  /-- A value the enumeration does not name, as it may come off the wire. -/
  | unrecognized (value : Int)
  deriving DecidableEq

def AggregationTemporality.value : AggregationTemporality → Int
  | .unspecified => 0
  | .delta => 1
  | .cumulative => 2
  | .unrecognized value => value

/-- The oneof of a metric; `P` gives the data points of each type. -/
inductive MetricData (P : PointType → Type) where
  | empty
  | gauge (dataPoints : List (P .number))
  | sum (temporality : AggregationTemporality) (isMonotonic : Bool) (dataPoints : List (P .number))
  | histogram (temporality : AggregationTemporality) (dataPoints : List (P .histogram))
  | exponentialHistogram (temporality : AggregationTemporality) (dataPoints : List (P .exponentialHistogram))
  | summary (dataPoints : List (P .summary))

structure Metric (M : Type) (P : PointType → Type) where
  name : String := ""
  description : String := ""
  unit : String := ""
  metadata : M
  data : MetricData P := .empty

abbrev ScopeMetrics (S M : Type) (P : PointType → Type) := Envelope S (Metric M P)
abbrev ResourceMetrics (R S M : Type) (P : PointType → Type) := Envelope R (ScopeMetrics S M P)
abbrev Metrics (R S M : Type) (P : PointType → Type) := List (ResourceMetrics R S M P)
abbrev MetricsRequest (R S M : Type) (P : PointType → Type) := SignalRequest (ResourceMetrics R S M P)

variable {R S M : Type} {P : PointType → Type}

def dataPointsLen (metric : Metric M P) : Nat :=
  match metric.data with
  | .empty => 0
  | .gauge dataPoints => dataPoints.length
  | .sum _ _ dataPoints => dataPoints.length
  | .histogram _ dataPoints => dataPoints.length
  | .exponentialHistogram _ dataPoints => dataPoints.length
  | .summary dataPoints => dataPoints.length

def dataPointCount (md : Metrics R S M P) : Nat :=
  (md.map fun rm => (rm.children.map fun sm => (sm.children.map dataPointsLen).sum).sum).sum

section sizers

/-- The interface MetricsSizer, with one function for the four types of data points. -/
structure MetricsSizer (R S M : Type) (P : PointType → Type) where
  metricsSize : Metrics R S M P → Int
  resourceMetricsSize : ResourceMetrics R S M P → Int
  scopeMetricsSize : ScopeMetrics S M P → Int
  metricSize : Metric M P → Int
  dataPointSize : ∀ type, P type → Int
  deltaSize : Int → Int

def metricsCountSizer : MetricsSizer R S M P where
  metricsSize md := dataPointCount md
  resourceMetricsSize rm := (rm.children.map fun sm => (sm.children.map dataPointsLen).sum).sum
  scopeMetricsSize sm := (sm.children.map dataPointsLen).sum
  metricSize := fun metric => dataPointsLen metric
  dataPointSize _ _ := 1
  deltaSize newItemSize := newItemSize

/-- SizeProto of the messages at the leaves, and of all metadata of a metric. -/
structure MetricsWire (R S M : Type) (P : PointType → Type) where
  resource : R → Int
  scope : S → Int
  metadata : M → Int
  dataPoint : ∀ type, P type → Int

def AggregationTemporality.sizeProto (temporality : AggregationTemporality) : Int :=
  if temporality.value ≠ 0 then 1 + sov temporality.value else 0

def MetricData.sizeProto (wire : MetricsWire R S M P) : MetricData P → Int
  | .empty => 0
  | .gauge dataPoints => protoDelta (repeatedSize (wire.dataPoint .number) dataPoints)
  | .sum temporality isMonotonic dataPoints =>
    protoDelta (repeatedSize (wire.dataPoint .number) dataPoints + temporality.sizeProto +
      if isMonotonic then 2 else 0)
  | .histogram temporality dataPoints =>
    protoDelta (repeatedSize (wire.dataPoint .histogram) dataPoints + temporality.sizeProto)
  | .exponentialHistogram temporality dataPoints =>
    protoDelta (repeatedSize (wire.dataPoint .exponentialHistogram) dataPoints + temporality.sizeProto)
  | .summary dataPoints => protoDelta (repeatedSize (wire.dataPoint .summary) dataPoints)

def Metric.sizeProto (wire : MetricsWire R S M P) (metric : Metric M P) : Int :=
  stringSize metric.name + stringSize metric.description + stringSize metric.unit +
    metric.data.sizeProto wire + wire.metadata metric.metadata

def metricsBytesSizer (wire : MetricsWire R S M P) : MetricsSizer R S M P where
  metricsSize :=
    repeatedSize (Envelope.sizeProto wire.resource (Envelope.sizeProto wire.scope (Metric.sizeProto wire)))
  resourceMetricsSize :=
    Envelope.sizeProto wire.resource (Envelope.sizeProto wire.scope (Metric.sizeProto wire))
  scopeMetricsSize := Envelope.sizeProto wire.scope (Metric.sizeProto wire)
  metricSize := Metric.sizeProto wire
  dataPointSize := wire.dataPoint
  deltaSize := protoDelta

end sizers

section extract
variable (sz : MetricsSizer R S M P)

/-- Takes data points out up to the capacity; the metric they go to is measured while it
has none, before its temporality is set. -/
def extractDataPoints {type : PointType} (dataPoints : List (P type)) (destMetric : Metric M P)
    (capacity : Int) : Extracted (List (P type)) :=
  let capacityLeft := capacity - (sz.deltaSize capacity - capacity) - sz.metricSize destMetric
  let r := removeIf (takeRecord sz.deltaSize (sz.dataPointSize type)) { capacityLeft := capacityLeft } dataPoints
  ⟨r.1.dest, r.2, r.1.removedSize⟩

def extractGaugeDataPoints (dataPoints : List (P .number)) (destMetric : Metric M P) (capacity : Int) :
    Extracted (List (P .number)) :=
  extractDataPoints sz dataPoints { destMetric with data := .gauge [] } capacity

def extractSumDataPoints (dataPoints : List (P .number)) (destMetric : Metric M P) (capacity : Int) :
    Extracted (List (P .number)) :=
  extractDataPoints sz dataPoints { destMetric with data := .sum .unspecified false [] } capacity

def extractHistogramDataPoints (dataPoints : List (P .histogram)) (destMetric : Metric M P)
    (capacity : Int) : Extracted (List (P .histogram)) :=
  extractDataPoints sz dataPoints { destMetric with data := .histogram .unspecified [] } capacity

def extractExponentialHistogramDataPoints (dataPoints : List (P .exponentialHistogram))
    (destMetric : Metric M P) (capacity : Int) : Extracted (List (P .exponentialHistogram)) :=
  extractDataPoints sz dataPoints { destMetric with data := .exponentialHistogram .unspecified [] } capacity

def extractSummaryDataPoints (dataPoints : List (P .summary)) (destMetric : Metric M P) (capacity : Int) :
    Extracted (List (P .summary)) :=
  extractDataPoints sz dataPoints { destMetric with data := .summary [] } capacity

def extractMetricDataPoints (srcMetric : Metric M P) (capacity : Int) : Extracted (Metric M P) :=
  let destMetric : Metric M P := { srcMetric with data := .empty }
  let cut {type : PointType} (r : Extracted (List (P type))) (data : List (P type) → MetricData P) :
      Extracted (Metric M P) :=
    ⟨{ destMetric with data := data r.dest }, { srcMetric with data := data r.rest }, r.removedSize⟩
  match srcMetric.data with
  | .gauge dataPoints => cut (extractGaugeDataPoints sz dataPoints destMetric capacity) .gauge
  | .sum temporality isMonotonic dataPoints =>
    cut (extractSumDataPoints sz dataPoints destMetric capacity) (.sum temporality isMonotonic)
  | .histogram temporality dataPoints =>
    cut (extractHistogramDataPoints sz dataPoints destMetric capacity) (.histogram temporality)
  | .exponentialHistogram temporality dataPoints =>
    cut (extractExponentialHistogramDataPoints sz dataPoints destMetric capacity) (.exponentialHistogram temporality)
  | .summary dataPoints => cut (extractSummaryDataPoints sz dataPoints destMetric capacity) .summary
  | .empty => ⟨destMetric, srcMetric, 0⟩

variable [Inhabited R] [Inhabited S] [Inhabited M]

def extractScopeMetrics : ScopeMetrics S M P → Int → Extracted (ScopeMetrics S M P) :=
  Envelope.extract sz.deltaSize sz.scopeMetricsSize
    (takeGroup sz.deltaSize sz.metricSize (extractMetricDataPoints sz) dataPointsLen { metadata := default })

def extractResourceMetrics : ResourceMetrics R S M P → Int → Extracted (ResourceMetrics R S M P) :=
  Envelope.extract sz.deltaSize sz.resourceMetricsSize
    (takeGroup sz.deltaSize sz.scopeMetricsSize (extractScopeMetrics sz) (·.children.length) .new)

def extractMetrics : Metrics R S M P → Int → Extracted (Metrics R S M P) :=
  extractAll sz.metricsSize
    (takeGroup sz.deltaSize sz.resourceMetricsSize (extractResourceMetrics sz) (·.children.length) .new)

end extract

inductive MetricKind where
  | gauge
  | sum (temporality : AggregationTemporality) (isMonotonic : Bool)
  | histogram (temporality : AggregationTemporality)
  | exponentialHistogram (temporality : AggregationTemporality)
  | summary
  deriving DecidableEq

structure Descriptor (M : Type) where
  name : String
  description : String
  unit : String
  metadata : M
  kind : MetricKind

def Metric.flatten (metric : Metric M P) : List (Descriptor M × (type : PointType) × P type) :=
  let tagged {type : PointType} (kind : MetricKind) (dataPoints : List (P type)) :
      List (Descriptor M × (type : PointType) × P type) :=
    dataPoints.map fun dataPoint =>
      (⟨metric.name, metric.description, metric.unit, metric.metadata, kind⟩, ⟨type, dataPoint⟩)
  match metric.data with
  | .empty => []
  | .gauge dataPoints => tagged .gauge dataPoints
  | .sum temporality isMonotonic dataPoints => tagged (.sum temporality isMonotonic) dataPoints
  | .histogram temporality dataPoints => tagged (.histogram temporality) dataPoints
  | .exponentialHistogram temporality dataPoints => tagged (.exponentialHistogram temporality) dataPoints
  | .summary dataPoints => tagged .summary dataPoints

def flattenResourceMetrics (rm : ResourceMetrics R S M P) :
    List (R × String × S × String × Descriptor M × (type : PointType) × P type) :=
  rm.flatten (Envelope.flatten Metric.flatten)

theorem Metric.flatten_length (metric : Metric M P) : metric.flatten.length = dataPointsLen metric := by
  unfold Metric.flatten dataPointsLen
  split <;> simp

theorem dataPointCount_eq (md : Metrics R S M P) : dataPointCount md = (md.flatMap flattenResourceMetrics).length := by
  simp [dataPointCount, flattenResourceMetrics, Envelope.flatten, length_flatMap, Metric.flatten_length]

theorem extractDataPoints_conserves (sz : MetricsSizer R S M P) {type : PointType}
    (dataPoints : List (P type)) (destMetric : Metric M P) (capacity : Int) :
    (extractDataPoints sz dataPoints destMetric capacity).dest ++
      (extractDataPoints sz dataPoints destMetric capacity).rest = dataPoints := by
  have moves : Moves (takeRecord sz.deltaSize (sz.dataPointSize type))
      (fun acc => acc.dest.flatMap fun dataPoint => [dataPoint]) fun dataPoint => [dataPoint] :=
    takeRecord_moves
  simpa [extractDataPoints] using removeIf_conserves moves
    { capacityLeft := capacity - (sz.deltaSize capacity - capacity) - sz.metricSize destMetric } dataPoints

theorem extractMetricDataPoints_conserves (sz : MetricsSizer R S M P) :
    Conserves Metric.flatten (extractMetricDataPoints sz) := by
  intro srcMetric capacity
  obtain ⟨name, description, unit, metadata, data⟩ := srcMetric
  cases data with
  | empty => rfl
  | _ =>
    simp only [extractMetricDataPoints, Metric.flatten, extractGaugeDataPoints, extractSumDataPoints,
      extractHistogramDataPoints, extractExponentialHistogramDataPoints, extractSummaryDataPoints]
    rw [← map_append, extractDataPoints_conserves]

section conservation
variable [Inhabited R] [Inhabited S] [Inhabited M] (sz : MetricsSizer R S M P)

omit [Inhabited R] [Inhabited S] in
theorem extractScopeMetrics_conserves : Conserves (Envelope.flatten Metric.flatten) (extractScopeMetrics sz) := by
  refine Envelope.extract_conserves (takeGroup_moves (extractMetricDataPoints_conserves sz) rfl ?_)
  intro metric none
  rw [← length_eq_zero_iff, Metric.flatten_length]
  exact none

omit [Inhabited R] in
theorem extractResourceMetrics_conserves : Conserves flattenResourceMetrics (extractResourceMetrics sz) :=
  Envelope.extract_conserves (takeGroup_moves (extractScopeMetrics_conserves sz) rfl
    fun message none => flatten_childless _ message none)

theorem extractMetrics_conserves : Conserves (fun md => md.flatMap flattenResourceMetrics) (extractMetrics sz) :=
  extractAll_conserves (takeGroup_moves (extractResourceMetrics_conserves sz) rfl
    fun message none => flatten_childless _ message none)

def metricsSplitter : Splitter (ResourceMetrics R S M P)
    (R × String × S × String × Descriptor M × (type : PointType) × P type) where
  size := sz.metricsSize
  extract := extractMetrics sz
  count := dataPointCount
  item := "datapoint"
  content := flattenResourceMetrics
  counted := dataPointCount_eq
  conserves := extractMetrics_conserves sz

end conservation

section request
variable [Inhabited R] [Inhabited S] [Inhabited M] (wire : MetricsWire R S M P)

def metricsSplitters : SizerType → Option (Splitter (ResourceMetrics R S M P)
    (R × String × S × String × Descriptor M × (type : PointType) × P type))
  | .items => some (metricsSplitter metricsCountSizer)
  | .bytes => some (metricsSplitter (metricsBytesSizer wire))
  | .requests => none

def MetricsRequest.mergeSplit (maxSize : Int) (szt : SizerType)
    (r2 : Option (Incoming (ResourceMetrics R S M P))) (req : MetricsRequest R S M P) :
    List (MetricsRequest R S M P) × Option MergeError :=
  Batch.mergeSplit (metricsSplitters wire) maxSize szt r2 req

/-- The requests returned hold the data points of the first request and then those of the
second, in order and each with its resource, scope and descriptor, or a first part of
them and the error says how many are missing. -/
theorem metrics_conserved (maxSize : Int) (szt : SizerType) (req : MetricsRequest R S M P)
    (r2 : Option (MetricsRequest R S M P)) :
    Conserved flattenResourceMetrics "datapoint" szt (flattenAll flattenResourceMetrics (req :: r2.toList))
      (MetricsRequest.mergeSplit wire maxSize szt (r2.map .same) req) := by
  cases szt with
  | requests => exact rfl
  | items => exact (mergeSplit_accounts (metricsSplitters wire) maxSize .items r2 req _ rfl).conserved _
  | bytes => exact (mergeSplit_accounts (metricsSplitters wire) maxSize .bytes r2 req _ rfl).conserved _

end request

end CollectorFormal.Batch
