import CollectorFormal.Batch.MergeSplit
import CollectorFormal.Batch.Sizer

/-! Logs and traces: resources with scopes with records. They differ in names and in the text of one error. -/

namespace CollectorFormal.Batch

variable {R S L : Type}

/-- The interface of LogsSizer and TracesSizer. -/
structure TreeSizer (R S L : Type) where
  treeSize : List (Envelope R (Envelope S L)) → Int
  resourceSize : Envelope R (Envelope S L) → Int
  scopeSize : Envelope S L → Int
  recordSize : L → Int
  deltaSize : Int → Int

/-- SizeProto of the messages at the leaves. -/
structure TreeWire (R S L : Type) where
  resource : R → Int
  scope : S → Int
  record : L → Int

section tree

def recordCount (tree : List (Envelope R (Envelope S L))) : Nat :=
  (tree.map fun resource => (resource.children.map fun scope => scope.children.length).sum).sum

def countSizer : TreeSizer R S L where
  treeSize tree := recordCount tree
  resourceSize resource := (resource.children.map fun scope => scope.children.length).sum
  scopeSize scope := scope.children.length
  recordSize _ := 1
  deltaSize newItemSize := newItemSize

def bytesSizer (wire : TreeWire R S L) : TreeSizer R S L where
  treeSize := repeatedSize (Envelope.sizeProto wire.resource (Envelope.sizeProto wire.scope wire.record))
  resourceSize := Envelope.sizeProto wire.resource (Envelope.sizeProto wire.scope wire.record)
  scopeSize := Envelope.sizeProto wire.scope wire.record
  recordSize := wire.record
  deltaSize := protoDelta

def extractScope (sz : TreeSizer R S L) : Envelope S L → Int → Extracted (Envelope S L) :=
  Envelope.extract sz.deltaSize sz.scopeSize (takeRecord sz.deltaSize sz.recordSize)

def extractResource [Inhabited S] (sz : TreeSizer R S L)
    (extractScope : Envelope S L → Int → Extracted (Envelope S L)) :
    Envelope R (Envelope S L) → Int → Extracted (Envelope R (Envelope S L)) :=
  Envelope.extract sz.deltaSize sz.resourceSize
    (takeGroup sz.deltaSize sz.scopeSize extractScope (·.children.length) .new)

def extractTree [Inhabited R] (sz : TreeSizer R S L)
    (extractResource : Envelope R (Envelope S L) → Int → Extracted (Envelope R (Envelope S L))) :
    List (Envelope R (Envelope S L)) → Int → Extracted (List (Envelope R (Envelope S L))) :=
  extractAll sz.treeSize (takeGroup sz.deltaSize sz.resourceSize extractResource (·.children.length) .new)

abbrev extractResourceBytes [Inhabited S] (wire : TreeWire R S L) :
    Envelope R (Envelope S L) → Int → Extracted (Envelope R (Envelope S L)) :=
  extractResource (bytesSizer wire) (extractScope (bytesSizer wire))

abbrev extractBytes [Inhabited R] [Inhabited S] (wire : TreeWire R S L) :
    List (Envelope R (Envelope S L)) → Int → Extracted (List (Envelope R (Envelope S L))) :=
  extractTree (bytesSizer wire) (extractResourceBytes wire)

def flattenResource (resource : Envelope R (Envelope S L)) : List (R × String × S × String × L) :=
  resource.flatten (Envelope.flatten fun record => [record])

theorem recordCount_eq (tree : List (Envelope R (Envelope S L))) :
    recordCount tree = (tree.flatMap flattenResource).length := by
  simp [recordCount, flattenResource, Envelope.flatten, List.length_flatMap]

section conservation
variable {β : Type} (sz : TreeSizer R S L) (content : L → List β)

theorem extractScope_conserves : Conserves (Envelope.flatten content) (extractScope sz) :=
  Envelope.extract_conserves takeRecord_moves

theorem extractResource_conserves [Inhabited S] :
    Conserves (Envelope.flatten (Envelope.flatten content)) (extractResource sz (extractScope sz)) :=
  Envelope.extract_conserves
    (takeGroup_moves (extractScope_conserves sz content) rfl fun message none => flatten_childless _ message none)

theorem extractTree_conserves_content [Inhabited R] [Inhabited S] :
    Conserves (fun tree => tree.flatMap (Envelope.flatten (Envelope.flatten content)))
      (extractTree sz (extractResource sz (extractScope sz))) :=
  extractAll_conserves
    (takeGroup_moves (extractResource_conserves sz content) rfl fun message none => flatten_childless _ message none)

theorem extractTree_conserves [Inhabited R] [Inhabited S] :
    Conserves (fun tree => tree.flatMap flattenResource) (extractTree sz (extractResource sz (extractScope sz))) :=
  extractTree_conserves_content sz fun record => [record]

end conservation

end tree

section logs

abbrev ScopeLogs (S L : Type) := Envelope S L
abbrev ResourceLogs (R S L : Type) := Envelope R (ScopeLogs S L)
abbrev Logs (R S L : Type) := List (ResourceLogs R S L)
abbrev LogsRequest (R S L : Type) := SignalRequest (ResourceLogs R S L)
abbrev LogsSizer (R S L : Type) := TreeSizer R S L

def logRecordCount (ld : Logs R S L) : Nat := recordCount ld

def logsCountSizer : LogsSizer R S L := countSizer

def logsBytesSizer (wire : TreeWire R S L) : LogsSizer R S L := bytesSizer wire

def extractScopeLogs (sz : LogsSizer R S L) : ScopeLogs S L → Int → Extracted (ScopeLogs S L) :=
  extractScope sz

variable [Inhabited R] [Inhabited S]

def extractResourceLogs (sz : LogsSizer R S L) : ResourceLogs R S L → Int → Extracted (ResourceLogs R S L) :=
  extractResource sz (extractScopeLogs sz)

def extractLogs (sz : LogsSizer R S L) : Logs R S L → Int → Extracted (Logs R S L) :=
  extractTree sz (extractResourceLogs sz)

example : extractLogs (logsCountSizer : LogsSizer String String Nat)
    [⟨"resource", "url", [⟨"scope", "", [1, 2, 3]⟩]⟩] 2 =
      ⟨[⟨"resource", "url", [⟨"scope", "", [1, 2]⟩]⟩], [⟨"resource", "url", [⟨"scope", "", [3]⟩]⟩], 2⟩ := rfl

def logsSplitter (sz : LogsSizer R S L) : Splitter (ResourceLogs R S L) (R × String × S × String × L) where
  size := sz.treeSize
  extract := extractLogs sz
  count := logRecordCount
  item := "log record"
  content := flattenResource
  counted := recordCount_eq
  conserves := extractTree_conserves sz

def logsSplitters (wire : TreeWire R S L) :
    SizerType → Option (Splitter (ResourceLogs R S L) (R × String × S × String × L))
  | .items => some (logsSplitter logsCountSizer)
  | .bytes => some (logsSplitter (logsBytesSizer wire))
  | .requests => none

def LogsRequest.mergeSplit (wire : TreeWire R S L) (maxSize : Int) (szt : SizerType)
    (r2 : Option (Incoming (ResourceLogs R S L))) (req : LogsRequest R S L) :
    List (LogsRequest R S L) × Option MergeError :=
  Batch.mergeSplit (logsSplitters wire) maxSize szt r2 req

end logs

section traces

abbrev ScopeSpans (S L : Type) := Envelope S L
abbrev ResourceSpans (R S L : Type) := Envelope R (ScopeSpans S L)
abbrev Traces (R S L : Type) := List (ResourceSpans R S L)
abbrev TracesRequest (R S L : Type) := SignalRequest (ResourceSpans R S L)
abbrev TracesSizer (R S L : Type) := TreeSizer R S L

def spanCount (td : Traces R S L) : Nat := recordCount td

def tracesCountSizer : TracesSizer R S L := countSizer

def tracesBytesSizer (wire : TreeWire R S L) : TracesSizer R S L := bytesSizer wire

def extractScopeSpans (sz : TracesSizer R S L) : ScopeSpans S L → Int → Extracted (ScopeSpans S L) :=
  extractScope sz

variable [Inhabited R] [Inhabited S]

def extractResourceSpans (sz : TracesSizer R S L) : ResourceSpans R S L → Int → Extracted (ResourceSpans R S L) :=
  extractResource sz (extractScopeSpans sz)

def extractTraces (sz : TracesSizer R S L) : Traces R S L → Int → Extracted (Traces R S L) :=
  extractTree sz (extractResourceSpans sz)

def tracesSplitter (sz : TracesSizer R S L) :
    Splitter (ResourceSpans R S L) (R × String × S × String × L) where
  size := sz.treeSize
  extract := extractTraces sz
  count := spanCount
  item := "span"
  content := flattenResource
  counted := recordCount_eq
  conserves := extractTree_conserves sz

def tracesSplitters (wire : TreeWire R S L) :
    SizerType → Option (Splitter (ResourceSpans R S L) (R × String × S × String × L))
  | .items => some (tracesSplitter tracesCountSizer)
  | .bytes => some (tracesSplitter (tracesBytesSizer wire))
  | .requests => none

def TracesRequest.mergeSplit (wire : TreeWire R S L) (maxSize : Int) (szt : SizerType)
    (r2 : Option (Incoming (ResourceSpans R S L))) (req : TracesRequest R S L) :
    List (TracesRequest R S L) × Option MergeError :=
  Batch.mergeSplit (tracesSplitters wire) maxSize szt r2 req

end traces

/-- The requests returned hold the records of the first request and then those of the second, in order and each under
its own resource and scope, or a first part of them and the error says how many are missing. -/
theorem logs_traces_conserved [Inhabited R] [Inhabited S] (wire : TreeWire R S L) (maxSize : Int) (szt : SizerType) :
    (∀ (req : LogsRequest R S L) (r2 : Option (LogsRequest R S L)),
      Conserved flattenResource "log record" szt (flattenAll flattenResource (req :: r2.toList))
        (LogsRequest.mergeSplit wire maxSize szt (r2.map .same) req)) ∧
    ∀ (req : TracesRequest R S L) (r2 : Option (TracesRequest R S L)),
      Conserved flattenResource "span" szt (flattenAll flattenResource (req :: r2.toList))
        (TracesRequest.mergeSplit wire maxSize szt (r2.map .same) req) := by
  refine ⟨fun req r2 => ?_, fun req r2 => ?_⟩
  · cases szt with
    | requests => exact rfl
    | items => exact (mergeSplit_accounts (logsSplitters wire) maxSize .items r2 req _ rfl).conserved _
    | bytes => exact (mergeSplit_accounts (logsSplitters wire) maxSize .bytes r2 req _ rfl).conserved _
  · cases szt with
    | requests => exact rfl
    | items => exact (mergeSplit_accounts (tracesSplitters wire) maxSize .items r2 req _ rfl).conserved _
    | bytes => exact (mergeSplit_accounts (tracesSplitters wire) maxSize .bytes r2 req _ rfl).conserved _

end CollectorFormal.Batch
