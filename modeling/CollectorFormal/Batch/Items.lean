import CollectorFormal.Batch.BytesLimit
import CollectorFormal.Batch.Metrics

/-! Logs, traces and metrics split by the number of their items.

A capacity in items is used up exactly, whatever empty messages there are in between. -/

namespace CollectorFormal.Batch

open Lib List Envelope

variable {R S L M H C β : Type} {P : PointType → Type}

section fills
variable {items : C → Nat} {visit : Extraction C → C → Extraction C × C × Bool}

def itemsOf (items : C → Nat) (list : List C) : Nat := (list.map items).sum

theorem itemsOf_append (front back : List C) : itemsOf items (front ++ back) = itemsOf items front + itemsOf items back := by
  rw [itemsOf, map_append, sum_append, itemsOf, itemsOf]

theorem itemsOf_singleton (src : C) : itemsOf items [src] = items src := by
  rw [itemsOf, map_singleton, sum_singleton]

theorem itemsOf_cons (src : C) (rest : List C) : itemsOf items (src :: rest) = items src + itemsOf items rest :=
  sum_cons

theorem cast_itemsOf (list : List C) : (itemsOf items list : Int) = (list.map fun src => (items src : Int)).sum := by
  induction list with
  | nil => rfl
  | cons src rest ih =>
    rw [map_cons, sum_cons, ← ih, itemsOf_cons, Nat.cast_add]

/-- What is taken out is as many items as there is capacity for, and this number is
reported. -/
structure Counts {D : Type} (items : D → Nat) (extract : D → Int → Extracted D) : Prop where
  dest : ∀ src capacity, items (extract src capacity).dest = min capacity.toNat (items src)
  removed : ∀ src capacity, (extract src capacity).removedSize = items (extract src capacity).dest

/-- A visit lowers the capacity by the items of its child, down to none, and moves as many. -/
structure Fills (items : C → Nat) (visit : Extraction C → C → Extraction C × C × Bool) : Prop where
  left : ∀ acc src, (visit acc src).1.capacityLeft.toNat = acc.capacityLeft.toNat - items src
  taken : ∀ acc src, itemsOf items (visit acc src).1.dest + (visit acc src).1.capacityLeft.toNat =
    itemsOf items acc.dest + acc.capacityLeft.toNat
  removed : ∀ acc src, (visit acc src).1.removedSize + itemsOf items acc.dest =
    acc.removedSize + itemsOf items (visit acc src).1.dest

theorem removeIf_left (fills : Fills items visit) (acc : Extraction C) (list : List C) :
    (removeIf visit acc list).1.capacityLeft.toNat = acc.capacityLeft.toNat - itemsOf items list := by
  induction list generalizing acc with
  | nil => rfl
  | cons src rest ih =>
    have here := fills.left acc src
    rcases visited : visit acc src with ⟨next, after, _ | _⟩
    · rw [visited] at here
      rw [removeIf_kept visited, ih, itemsOf_cons, here, Nat.sub_sub]
    · rw [visited] at here
      rw [removeIf_taken visited, ih, itemsOf_cons, here, Nat.sub_sub]

theorem removeIf_counts (fills : Fills items visit) (capacity : Int) (list : List C) :
    itemsOf items (removeIf visit { capacityLeft := capacity } list).1.dest = min capacity.toNat (itemsOf items list) ∧
      (removeIf visit { capacityLeft := capacity } list).1.removedSize =
        itemsOf items (removeIf visit { capacityLeft := capacity } list).1.dest := by
  have step (acc : Extraction C) (src : C)
      (before : itemsOf items acc.dest + acc.capacityLeft.toNat = capacity.toNat ∧ acc.removedSize = itemsOf items acc.dest) :
      itemsOf items (visit acc src).1.dest + (visit acc src).1.capacityLeft.toNat = capacity.toNat ∧
        (visit acc src).1.removedSize = itemsOf items (visit acc src).1.dest := by
    have taken := fills.taken acc src
    have removed := fills.removed acc src
    omega
  have left := removeIf_left fills { capacityLeft := capacity } list
  obtain ⟨taken, removed⟩ := removeIf_invariant step { capacityLeft := capacity } list ⟨Nat.zero_add _, rfl⟩
  simp only at left
  exact ⟨by omega, removed⟩

theorem takeRecord_fills : Fills (fun _ : C => 1) (takeRecord (fun size => size) fun _ => 1) := by
  constructor
  all_goals
    intro acc src
    rcases takeRecord_cases (fun size => size) (fun _ => 1) acc src with ⟨room, visited⟩ | ⟨full, visited⟩
    · simp only [visited, Extraction.take, itemsOf_append, itemsOf_singleton]
      omega
    · simp only [visited] <;> omega

variable {size : C → Int} {extract : C → Int → Extracted C} {length : C → Nat} {empty : C}

theorem cutOff_count (without : ∀ message, length message = 0 → items message = 0) (src : C) (left : Int) :
    itemsOf items (cutOff extract length (src, left)) = items (extract src left).dest := by
  simp only [cutOff]
  split
  · rw [itemsOf_singleton]
  · next childless =>
      rw [without _ (Nat.eq_zero_of_not_pos childless)]
      rfl

theorem cutOff_items (counts : Counts items extract) (without : ∀ message, length message = 0 → items message = 0)
    (src : C) {capacity : Int} (large : capacity < items src) :
    itemsOf items (cutOff extract length (src, capacity)) = capacity.toNat := by
  have cut := counts.dest src capacity
  rw [cutOff_count without]
  omega

theorem takeGroup_fills (nothing : length empty = 0) (sized : ∀ src, size src = items src)
    (counts : Counts items extract) (without : ∀ message, length message = 0 → items message = 0) :
    Fills items (takeGroup (fun size => size) size extract length empty) := by
  constructor
  all_goals
    intro acc src
    have own := sized src
    rcases takeGroup_cases (fun size => size) size extract nothing acc src with
      ⟨room, visited⟩ | ⟨full, visited⟩ | ⟨_, large, visited⟩
    · simp only [visited, Extraction.take, itemsOf_append, itemsOf_singleton]
      omega
    · simp only [visited] <;> omega
    · have moved := cutOff_items counts without src (own ▸ large)
      have cut := counts.dest src acc.capacityLeft
      have reported := counts.removed src acc.capacityLeft
      simp only [visited, itemsOf_append]
      omega

def Envelope.count (items : C → Nat) (message : Envelope H C) : Nat := itemsOf items message.children

theorem Envelope.extract_counts {size : Envelope H C → Int} (sized : ∀ message, size message = message.count items)
    (fills : Fills items visit) : Counts (Envelope.count items) (Envelope.extract (fun size => size) size visit) := by
  have room (src : Envelope H C) (capacity : Int) :
      capacity - (capacity - capacity) - size { src with children := [] } = capacity := by
    rw [sized, Envelope.count, itemsOf, map_nil, sum_nil]
    omega
  constructor
  · intro src capacity
    rw [Envelope.extract, room]
    exact (removeIf_counts fills capacity src.children).1
  · intro src capacity
    rw [Envelope.extract, room]
    exact (removeIf_counts fills capacity src.children).2

theorem extractAll_counts {size : List C → Int} (sized : size [] = 0) (fills : Fills items visit) :
    Counts (itemsOf items) (extractAll size visit) := by
  constructor
  · intro src capacity
    rw [extractAll, sized, Int.sub_zero]
    exact (removeIf_counts fills capacity src).1
  · intro src capacity
    rw [extractAll, sized, Int.sub_zero]
    exact (removeIf_counts fills capacity src).2

theorem Envelope.count_childless (message : Envelope H C) (none : message.children.length = 0) :
    message.count items = 0 := by
  rw [Envelope.count, length_eq_zero_iff.mp none]
  rfl

end fills

section splitter
variable {splitter : Splitter C β} {maxSize : Int}

/-- No error, batches of exactly the limit, a last one of no more, and as many as that
takes. -/
structure Splitter.SplitsExactly (splitter : Splitter C β) (maxSize : Int) (total : Nat)
    (answer : List (SignalRequest C) × Option MergeError) : Prop where
  err : answer.2 = none
  full : ∀ request ∈ answer.1.dropLast, splitter.count request.data = maxSize
  last : ∀ request ∈ answer.1.getLast?, splitter.count request.data ≤ maxSize
  number : answer.1.length = max 1 ((total + maxSize.toNat - 1) / maxSize.toNat)

theorem Splitter.split_items (sized : ∀ data, splitter.size data = splitter.count data)
    (counts : Counts splitter.count splitter.extract) (positive : 0 < maxSize) (res : List (SignalRequest C))
    (req : SignalRequest C) (measured : req.Measured splitter.size) : ∃ batches last,
      splitter.split maxSize res req = (res ++ batches ++ [last], none) ∧
      (∀ batch ∈ batches, splitter.count batch.data = maxSize) ∧ splitter.count last.data ≤ maxSize ∧
      batches.length = (splitter.count req.data - 1) / maxSize.toNat := by
  unfold Splitter.split
  fun_induction splitter.splitting maxSize res req with
  | case1 res req sized' exceeds ext left none =>
    have size := measured.sized
    have taken := counts.dest req.data maxSize
    have total := sized req.data
    have nothing : splitter.count (splitter.extract req.data maxSize).dest = 0 := none
    have more : (req.sized splitter.size).cachedSize > maxSize := exceeds
    omega
  | case2 res req sized' exceeds ext left some resized ih =>
    have size : (req.sized splitter.size).cachedSize = splitter.size req.data := measured.sized
    have total := sized req.data
    have more : (req.sized splitter.size).cachedSize > maxSize := exceeds
    have known : (req.sized splitter.size).cachedSize ≠ -1 := by omega
    have cached : resized.cachedSize = (req.sized splitter.size).cachedSize := if_neg known
    have taken : splitter.count ext.dest = min maxSize.toNat (splitter.count req.data) := counts.dest req.data maxSize
    have removed : ext.removedSize = splitter.count ext.dest := counts.removed req.data maxSize
    have whole : splitter.count ext.dest + splitter.count ext.rest = splitter.count req.data :=
      splitter.count_extract req.data maxSize
    have rest := sized ext.rest
    have right : resized.cachedSize - ext.removedSize = splitter.size ext.rest := by omega
    rcases ih (.inr right) with ⟨batches, last, answer, full, few, number⟩
    refine ⟨⟨ext.dest, -1⟩ :: batches, last, ?_, ?_, few, ?_⟩
    · rw [answer]
      simp
    · rw [forall_mem_cons]
      refine ⟨?_, full⟩
      show (splitter.count ext.dest : Int) = maxSize
      omega
    · have left : splitter.count req.data - 1 = splitter.count ext.rest - 1 + maxSize.toNat := by omega
      have number' : batches.length = (splitter.count ext.rest - 1) / maxSize.toNat := number
      rw [left, Nat.add_div_right _ (by omega), length_cons, number']
  | case3 res req sized' under =>
    have size : (req.sized splitter.size).cachedSize = splitter.size req.data := measured.sized
    have total := sized req.data
    have few : ¬(req.sized splitter.size).cachedSize > maxSize := under
    refine ⟨[], sized', by simp, by simp, ?_, ?_⟩
    · show (splitter.count req.data : Int) ≤ maxSize
      omega
    · rw [length_nil, Nat.div_eq_of_lt (by omega)]

theorem Splitter.split_exactly (sized : ∀ data, splitter.size data = splitter.count data)
    (counts : Counts splitter.count splitter.extract) (positive : 0 < maxSize) {req : SignalRequest C}
    (measured : req.Measured splitter.size) :
    splitter.SplitsExactly maxSize (splitter.count req.data) (splitter.split maxSize [] req) := by
  rcases splitter.split_items sized counts positive [] req measured with ⟨batches, last, answer, full, few, number⟩
  rw [answer, nil_append]
  refine ⟨rfl, ?_, ?_, ?_⟩
  · rw [dropLast_concat]
    exact full
  · rw [getLast?_concat]
    intro request same
    cases same
    exact few
  · rw [length_append, length_singleton, number]
    by_cases none : splitter.count req.data = 0
    · rw [none, Nat.zero_sub, Nat.zero_div, Nat.zero_add, Nat.div_eq_of_lt (by omega)]
      rfl
    · have round : splitter.count req.data + maxSize.toNat - 1 = splitter.count req.data - 1 + maxSize.toNat := by omega
      rw [round, Nat.add_div_right _ (by omega)]
      omega

theorem mergeSplit_exactly {splitters : SizerType → Option (Splitter C β)}
    (known : splitters .items = some splitter) (sized : ∀ data, splitter.size data = splitter.count data)
    (counts : Counts splitter.count splitter.extract) (positive : 0 < maxSize) {req : SignalRequest C}
    {r2 : Option (SignalRequest C)} (measured : ∀ given ∈ req :: r2.toList, given.Measured splitter.size) :
    splitter.SplitsExactly maxSize ((req :: r2.toList).map fun given => splitter.count given.data).sum
      (mergeSplit splitters maxSize .items (r2.map .same) req) := by
  have joined (front back : List C) : splitter.count (front ++ back) = splitter.count front + splitter.count back := by
    simp only [splitter.counted, flatMap_append, length_append]
  have sums (front back : List C) : splitter.size (front ++ back) = splitter.size front + splitter.size back := by
    rw [sized, sized, sized, joined, Nat.cast_add]
  have total : splitter.count (req.merged splitter.size r2).data =
      ((req :: r2.toList).map fun given => splitter.count given.data).sum := by
    cases r2 with
    | none => simp [SignalRequest.merged]
    | some req2 => simp [SignalRequest.merged, SignalRequest.mergeTo, joined]
  rw [mergeSplit_eq_split splitters positive.ne' known, ← total]
  exact splitter.split_exactly sized counts positive (SignalRequest.Measured.merged sums measured)

end splitter

section signals
variable [Inhabited R] [Inhabited S] [Inhabited M]

omit [Inhabited S] in
theorem Envelope.count_records (scope : Envelope S L) : scope.count (fun _ => 1) = scope.children.length := by
  simp [Envelope.count, itemsOf]

omit [Inhabited R] [Inhabited S] in
theorem recordCount_eq_itemsOf (tree : List (Envelope R (Envelope S L))) :
    recordCount tree = itemsOf (Envelope.count (Envelope.count fun _ => 1)) tree := by
  have records : Envelope.count (fun _ => 1) = fun scope : Envelope S L => scope.children.length :=
    funext count_records
  rw [records]
  rfl

theorem countSizer_extract_counts : Counts (recordCount : List (Envelope R (Envelope S L)) → Nat)
    (extractTree countSizer (extractResource countSizer (extractScope (countSizer : TreeSizer R S L)))) := by
  have scopes (message : Envelope S L) :
      (countSizer : TreeSizer R S L).scopeSize message = message.count fun _ => 1 := by
    rw [count_records]
    rfl
  have resources (message : Envelope R (Envelope S L)) :
      countSizer.resourceSize message = message.count (Envelope.count fun _ => 1) := by
    rw [Envelope.count, cast_itemsOf]
    simp only [count_records]
    rfl
  have scope : Counts (Envelope.count fun _ => 1) (extractScope (countSizer : TreeSizer R S L)) :=
    extract_counts scopes takeRecord_fills
  have resource : Counts (Envelope.count (Envelope.count fun _ => 1))
      (extractResource countSizer (extractScope (countSizer : TreeSizer R S L))) :=
    extract_counts resources (takeGroup_fills (by rfl) scopes scope count_childless)
  have tree : Counts (itemsOf (Envelope.count (Envelope.count fun _ => 1)))
      (extractTree countSizer (extractResource countSizer (extractScope (countSizer : TreeSizer R S L)))) :=
    extractAll_counts rfl (takeGroup_fills (by rfl) resources resource count_childless)
  rw [← funext recordCount_eq_itemsOf] at tree
  exact tree

omit [Inhabited R] [Inhabited S] [Inhabited M] in
theorem extractDataPoints_counts {type : PointType} (dataPoints : List (P type)) {destMetric : Metric M P}
    (pointless : dataPointsLen destMetric = 0) (capacity : Int) {ext : Extracted (List (P type))}
    (cut : extractDataPoints (metricsCountSizer : MetricsSizer R S M P) dataPoints destMetric capacity = ext) :
    ext.dest.length = min capacity.toNat dataPoints.length ∧ ext.removedSize = ext.dest.length := by
  have room : capacity - (capacity - capacity) - dataPointsLen destMetric = capacity := by omega
  have counts := removeIf_counts (takeRecord_fills : Fills (fun _ : P type => 1) _) capacity dataPoints
  subst cut
  have length (list : List (P type)) : itemsOf (fun _ => 1) list = list.length := by simp [itemsOf]
  rw [length, length] at counts
  simp only [extractDataPoints, metricsCountSizer, room]
  exact counts

omit [Inhabited R] [Inhabited S] [Inhabited M] in
theorem extractMetricDataPoints_counts :
    Counts dataPointsLen (extractMetricDataPoints (metricsCountSizer : MetricsSizer R S M P)) := by
  have both (src : Metric M P) (capacity : Int) :
      dataPointsLen (extractMetricDataPoints (metricsCountSizer : MetricsSizer R S M P) src capacity).dest =
          min capacity.toNat (dataPointsLen src) ∧
        (extractMetricDataPoints (metricsCountSizer : MetricsSizer R S M P) src capacity).removedSize =
          dataPointsLen (extractMetricDataPoints (metricsCountSizer : MetricsSizer R S M P) src capacity).dest := by
    rcases src with ⟨name, description, unit, metadata, data⟩
    cases data with
    | empty => exact ⟨(Nat.min_zero _).symm, rfl⟩
    | _ => exact extractDataPoints_counts _ (by rfl) capacity rfl
  exact ⟨fun src capacity => (both src capacity).1, fun src capacity => (both src capacity).2⟩

theorem metricsCountSizer_extract_counts : Counts (dataPointCount : Metrics R S M P → Nat)
    (extractMetrics metricsCountSizer) := by
  have scopes (message : ScopeMetrics S M P) :
      (metricsCountSizer : MetricsSizer R S M P).scopeMetricsSize message = message.count dataPointsLen := rfl
  have resources (message : ResourceMetrics R S M P) :
      metricsCountSizer.resourceMetricsSize message = message.count (Envelope.count dataPointsLen) := by
    rw [Envelope.count, cast_itemsOf]
    rfl
  have scope : Counts (Envelope.count dataPointsLen) (extractScopeMetrics (metricsCountSizer : MetricsSizer R S M P)) :=
    extract_counts scopes (takeGroup_fills (by rfl) (fun _ => rfl) extractMetricDataPoints_counts fun _ none => none)
  have resource : Counts (Envelope.count (Envelope.count dataPointsLen))
      (extractResourceMetrics (metricsCountSizer : MetricsSizer R S M P)) :=
    extract_counts resources (takeGroup_fills (by rfl) scopes scope count_childless)
  exact extractAll_counts rfl (takeGroup_fills (by rfl) resources resource count_childless)

/-- For all three signals, any two requests (the second may be absent) whose cached sizes
are unknown or right, and any limit. -/
theorem items_split_exactly (logs : TreeWire R S L) (traces : TreeWire R S L) (metrics : MetricsWire R S M P)
    (maxSize : Int) (positive : 0 < maxSize) :
    (∀ (req : LogsRequest R S L) (r2 : Option (LogsRequest R S L)),
      (∀ given ∈ req :: r2.toList, given.Measured logsCountSizer.treeSize) →
      (logsSplitter logsCountSizer).SplitsExactly maxSize
        ((req :: r2.toList).map fun given => logRecordCount given.data).sum
        (LogsRequest.mergeSplit logs maxSize .items (r2.map .same) req)) ∧
    (∀ (req : TracesRequest R S L) (r2 : Option (TracesRequest R S L)),
      (∀ given ∈ req :: r2.toList, given.Measured tracesCountSizer.treeSize) →
      (tracesSplitter tracesCountSizer).SplitsExactly maxSize
        ((req :: r2.toList).map fun given => spanCount given.data).sum
        (TracesRequest.mergeSplit traces maxSize .items (r2.map .same) req)) ∧
    ∀ (req : MetricsRequest R S M P) (r2 : Option (MetricsRequest R S M P)),
      (∀ given ∈ req :: r2.toList, given.Measured metricsCountSizer.metricsSize) →
      (metricsSplitter metricsCountSizer).SplitsExactly maxSize
        ((req :: r2.toList).map fun given => dataPointCount given.data).sum
        (MetricsRequest.mergeSplit metrics maxSize .items (r2.map .same) req) := by
  refine ⟨fun req r2 measured => ?_, fun req r2 measured => ?_, fun req r2 measured => ?_⟩
  · have counts : Counts (logsSplitter logsCountSizer).count (logsSplitter (logsCountSizer : LogsSizer R S L)).extract :=
      countSizer_extract_counts
    have known : logsSplitters logs .items = some (logsSplitter logsCountSizer) := rfl
    exact mergeSplit_exactly known (fun _ => rfl) counts positive measured
  · have counts : Counts (tracesSplitter tracesCountSizer).count
        (tracesSplitter (tracesCountSizer : TracesSizer R S L)).extract := countSizer_extract_counts
    have known : tracesSplitters traces .items = some (tracesSplitter tracesCountSizer) := rfl
    exact mergeSplit_exactly known (fun _ => rfl) counts positive measured
  · have counts : Counts (metricsSplitter metricsCountSizer).count
        (metricsSplitter (metricsCountSizer : MetricsSizer R S M P)).extract := metricsCountSizer_extract_counts
    have known : metricsSplitters metrics .items = some (metricsSplitter metricsCountSizer) := rfl
    exact mergeSplit_exactly known (fun _ => rfl) counts positive measured

end signals

/-- Three records in two scopes, with an empty resource in front, by twos. -/
theorem items_split_exactly_two : (logsSplitter logsCountSizer).SplitsExactly 2 3
    (LogsRequest.mergeSplit plainWire 2 .items none
      ⟨[⟨(), "", []⟩, ⟨(), "", [⟨(), "", [5]⟩, ⟨(), "", [9, 4]⟩]⟩], -1⟩) := by
  have metrics : MetricsWire Unit Unit Unit fun _ => Nat := ⟨fun _ => 0, fun _ => 0, fun _ => 0, fun _ _ => 0⟩
  have exactly := (items_split_exactly plainWire plainWire metrics 2 (by decide)).1
    ⟨[⟨(), "", []⟩, ⟨(), "", [⟨(), "", [5]⟩, ⟨(), "", [9, 4]⟩]⟩], -1⟩ none
  exact exactly (by simp [SignalRequest.Measured])

end CollectorFormal.Batch
