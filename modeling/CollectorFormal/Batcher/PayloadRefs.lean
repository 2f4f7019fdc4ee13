import CollectorFormal.Batcher.Acknowledge
import CollectorFormal.Batcher.MultiBatcher

/-! References to the payloads of requests on their way through a queue to the batcher of a partition. The container
of a payload is recycled when its count reaches zero.

MergeSplit moves the data of a request to the container of the one it is called on, and takes parts out of that to
containers of their own. The queue may have room for a payload or not. -/

namespace CollectorFormal.Batcher

open Lib List
open CollectorFormal.Batch

/-- A request, and the payload whose container it has, if it is not one that extractLogs made. -/
structure PayloadRequest (R S L : Type) where
  logs : LogsRequest R S L
  payload : Option Nat

inductive QueueKind where
  | memory (waitForResult : Bool)
  | persistent

structure QueueConfig where
  kind : QueueKind
  sizer : SizerType
  capacity : Int
  numConsumers : Nat

/-- A goroutine that brings a payload: before Offer, in add, in the wait for the result, after Offer, without a
reference. -/
inductive Producer where
  | offer
  | add
  | wait
  | leave
  | gone

structure Payload (R S L : Type) where
  data : Logs R S L
  refs : Int
  producer : Producer

structure PipelineState (R S L : Type) where
  payloads : List (Payload R S L) := []
  queue : List Nat := []
  stored : List (Logs R S L) := []
  /-- The consumers of the queue, each with its payload and its call of Consume. -/
  consuming : List (Nat × Nat) := []
  workers : Nat
  batcher : PartitionState (PayloadRequest R S L) MergeError := newPartition false

inductive PipelineLabel where
  | producer
  | consumer
  | batcher

variable {R S L : Type} [Inhabited R] [Inhabited S]

/-- The last request has the container that MergeSplit was called on. -/
def withContainer (payload : Option Nat) (reqList : List (LogsRequest R S L)) : List (PayloadRequest R S L) :=
  reqList.dropLast.map (⟨·, none⟩) ++ reqList.getLast?.toList.map (⟨·, payload⟩)

def payloadKind (wire : TreeWire R S L) : RequestKind (PayloadRequest R S L) MergeError where
  sizeof szt req := logsSizeof wire szt req.logs
  mergeSplit maxSize szt req r2 :=
    let answer := (logsKind wire).mergeSplit maxSize szt req.logs (r2.map PayloadRequest.logs)
    { reqList :=
        if answer.err.isEmpty then withContainer req.payload answer.reqList
        else answer.reqList.map (⟨·, none⟩)
      err := answer.err
      receiver := ⟨answer.receiver, req.payload⟩ }

section steps
variable (wire : TreeWire R S L) (queue : QueueConfig) (cfg : BatchConfig)

def QueueConfig.sizeof (data : Logs R S L) : Int := logsSizeof wire queue.sizer { data := data }

inductive PipelineStep : PipelineLabel → PipelineState R S L → PipelineState R S L → Prop where
  /-- ConsumeLogs of refconsumer, for a payload that the pipeline does not own yet. -/
  | receive (s : PipelineState R S L) (data : Logs R S L) :
      PipelineStep .producer s { s with payloads := s.payloads ++ [⟨data, 1, .offer⟩] }
  | refuse (s : PipelineState R S L) (front back : List (Payload R S L)) (data : Logs R S L) (refs : Int)
      (waitForResult : Bool) (memory : queue.kind = .memory waitForResult)
      (size : queue.sizeof wire data ≤ 0 ∨ queue.capacity < queue.sizeof wire data)
      (payloads : s.payloads = front ++ ⟨data, refs, .offer⟩ :: back) :
      PipelineStep .producer s { s with payloads := front ++ ⟨data, refs, .leave⟩ :: back }
  | ref (s : PipelineState R S L) (front back : List (Payload R S L)) (data : Logs R S L) (refs : Int)
      (waitForResult : Bool) (memory : queue.kind = .memory waitForResult)
      (positive : 0 < queue.sizeof wire data) (fits : queue.sizeof wire data ≤ queue.capacity)
      (payloads : s.payloads = front ++ ⟨data, refs, .offer⟩ :: back) :
      PipelineStep .producer s { s with payloads := front ++ ⟨data, refs + 1, .add⟩ :: back }
  | failed (s : PipelineState R S L) (front back : List (Payload R S L)) (data : Logs R S L) (refs : Int)
      (payloads : s.payloads = front ++ ⟨data, refs, .add⟩ :: back) :
      PipelineStep .producer s { s with payloads := front ++ ⟨data, refs - 1, .leave⟩ :: back }
  | added (s : PipelineState R S L) (front back : List (Payload R S L)) (data : Logs R S L) (refs : Int)
      (waitForResult : Bool) (memory : queue.kind = .memory waitForResult)
      (payloads : s.payloads = front ++ ⟨data, refs, .add⟩ :: back) :
      PipelineStep .producer s
        { s with
          payloads := front ++ ⟨data, refs, if waitForResult then .wait else .leave⟩ :: back
          queue := s.queue ++ [front.length] }
  | result (s : PipelineState R S L) (front back : List (Payload R S L)) (data : Logs R S L) (refs : Int)
      (payloads : s.payloads = front ++ ⟨data, refs, .wait⟩ :: back) :
      PipelineStep .producer s { s with payloads := front ++ ⟨data, refs, .leave⟩ :: back }
  | store (s : PipelineState R S L) (front back : List (Payload R S L)) (data : Logs R S L) (refs : Int)
      (persistent : queue.kind = .persistent) (fits : queue.sizeof wire data ≤ queue.capacity)
      (payloads : s.payloads = front ++ ⟨data, refs, .offer⟩ :: back) :
      PipelineStep .producer s
        { s with payloads := front ++ ⟨data, refs, .leave⟩ :: back, stored := s.stored ++ [data] }
  | unstored (s : PipelineState R S L) (front back : List (Payload R S L)) (data : Logs R S L) (refs : Int)
      (persistent : queue.kind = .persistent)
      (payloads : s.payloads = front ++ ⟨data, refs, .offer⟩ :: back) :
      PipelineStep .producer s { s with payloads := front ++ ⟨data, refs, .leave⟩ :: back }
  | unref (s : PipelineState R S L) (front back : List (Payload R S L)) (data : Logs R S L) (refs : Int)
      (payloads : s.payloads = front ++ ⟨data, refs, .leave⟩ :: back) :
      PipelineStep .producer s { s with payloads := front ++ ⟨data, refs - 1, .gone⟩ :: back }
  | read (s : PipelineState R S L) (front back : List (Payload R S L)) (payload : Payload R S L)
      (rest : List Nat) (batcher : PartitionState (PayloadRequest R S L) MergeError)
      (free : s.consuming.length < queue.numConsumers) (first : s.queue = front.length :: rest)
      (payloads : s.payloads = front ++ payload :: back)
      (called : PartitionStep (payloadKind wire) cfg (.consume ⟨{ data := payload.data }, some front.length⟩)
        s.batcher batcher) :
      PipelineStep .consumer s
        { s with
          queue := rest
          consuming := s.consuming ++ [(front.length, s.batcher.calls)]
          batcher := batcher }
  /-- Read of a persistent queue, which makes a payload of its own, and the call of Consume. -/
  | decode (s : PipelineState R S L) (data : Logs R S L) (rest : List (Logs R S L))
      (batcher : PartitionState (PayloadRequest R S L) MergeError)
      (free : s.consuming.length < queue.numConsumers) (first : s.stored = data :: rest)
      (called : PartitionStep (payloadKind wire) cfg (.consume ⟨{ data := data }, some s.payloads.length⟩)
        s.batcher batcher) :
      PipelineStep .consumer s
        { s with
          stored := rest
          payloads := s.payloads ++ [⟨data, 1, .gone⟩]
          consuming := s.consuming ++ [(s.payloads.length, s.batcher.calls)]
          batcher := batcher }
  | consumed (s : PipelineState R S L) (front back : List (Payload R S L)) (data : Logs R S L) (refs : Int)
      (producer : Producer) (before after : List (Nat × Nat)) (call : Nat) (req : PayloadRequest R S L)
      (consuming : s.consuming = before ++ (front.length, call) :: after)
      (returned : ⟨.consume call req, .returned⟩ ∈ s.batcher.threads)
      (payloads : s.payloads = front ++ ⟨data, refs, producer⟩ :: back) :
      PipelineStep .consumer s
        { s with
          payloads := front ++ ⟨data, refs - 1, producer⟩ :: back
          consuming := before ++ after }
  | inside (s : PipelineState R S L) (batcher : PartitionState (PayloadRequest R S L) MergeError)
      (label : PartitionLabel (PayloadRequest R S L)) (workers : Nat)
      (pool : label.workers s.workers = some workers)
      (moved : PartitionStep (payloadKind wire) cfg label s.batcher batcher) :
      PipelineStep .batcher s { s with workers := workers, batcher := batcher }
  | shutdown (s : PipelineState R S L) (batcher : PartitionState (PayloadRequest R S L) MergeError)
      (called : PartitionStep (payloadKind wire) cfg (.shutdown false) s.batcher batcher) :
      PipelineStep .batcher s { s with batcher := batcher }

end steps

def newPipeline (maxWorkers : Nat) : PipelineState R S L := { workers := maxWorkers }

/-- The references that a producer has, with that of an element that is not in the queue yet. -/
def Producer.refs : Producer → Int
  | .offer => 1
  | .add => 2
  | .wait => 1
  | .leave => 1
  | .gone => 0

def PipelineState.claims (s : PipelineState R S L) (payload : Nat) : Int :=
  s.queue.count payload + s.consuming.countP fun entry => entry.1 = payload

structure Counted (s : PipelineState R S L) : Prop where
  refs : ∀ index payload, s.payloads[index]? = some payload → payload.refs = payload.producer.refs + s.claims index
  queued : ∀ index ∈ s.queue, index < s.payloads.length
  consumed : ∀ entry ∈ s.consuming, entry.1 < s.payloads.length

section counted
variable {wire : TreeWire R S L} {queue : QueueConfig} {cfg : BatchConfig} {label : PipelineLabel}
  {s t : PipelineState R S L}

omit [Inhabited R] [Inhabited S] in
theorem Counted.placed (counted : Counted s) {front back : List (Payload R S L)} {old new : Payload R S L}
    (payloads : s.payloads = front ++ old :: back) (now : t.payloads = front ++ new :: back)
    (queued : ∀ index ∈ t.queue, index < s.payloads.length)
    (consumed : ∀ entry ∈ t.consuming, entry.1 < s.payloads.length)
    (here : new.refs - new.producer.refs - t.claims front.length = old.refs - old.producer.refs - s.claims front.length)
    (others : ∀ index, index ≠ front.length → t.claims index = s.claims index) : Counted t := by
  have length : t.payloads.length = s.payloads.length := by
    rw [now, payloads, length_append, length_append, length_cons, length_cons]
  refine ⟨fun index payload found => ?_, length ▸ queued, length ▸ consumed⟩
  rw [now] at found
  rcases getElem?_placed old found with ⟨rfl, rfl⟩ | ⟨other, same⟩
  · have before := counted.refs front.length old (by rw [payloads]; simp)
    omega
  · rw [others index other]
    exact counted.refs index payload (payloads ▸ same)

omit [Inhabited R] [Inhabited S] in
theorem Counted.unclaimed (counted : Counted s) : s.claims s.payloads.length = 0 := by
  have queued : s.queue.count s.payloads.length = 0 :=
    count_eq_zero.mpr fun member => Nat.lt_irrefl _ (counted.queued _ member)
  have consumed : s.consuming.countP (fun entry => entry.1 = s.payloads.length) = 0 := by
    refine countP_eq_zero.mpr fun entry member same => ?_
    have less := counted.consumed entry member
    rw [of_decide_eq_true same] at less
    exact Nat.lt_irrefl _ less
  rw [PipelineState.claims, queued, consumed]
  rfl

omit [Inhabited R] [Inhabited S] in
theorem Counted.new (counted : Counted s) {payload : Payload R S L} (now : t.payloads = s.payloads ++ [payload])
    (queued : ∀ index ∈ t.queue, index < s.payloads.length + 1)
    (consumed : ∀ entry ∈ t.consuming, entry.1 < s.payloads.length + 1)
    (here : payload.refs = payload.producer.refs + t.claims s.payloads.length)
    (others : ∀ index, index ≠ s.payloads.length → t.claims index = s.claims index) : Counted t := by
  have length : t.payloads.length = s.payloads.length + 1 := by
    rw [now, length_append, length_singleton]
  refine ⟨fun index old found => ?_, length ▸ queued, length ▸ consumed⟩
  rw [now] at found
  rcases (getElem?_snoc_eq_some _ _ _).mp found with before | ⟨rfl, rfl⟩
  · have less := (List.getElem?_eq_some_iff.mp before).1
    rw [others index (Nat.ne_of_lt less)]
    exact counted.refs index old before
  · exact here

theorem Counted.step (counted : Counted s) (step : PipelineStep wire queue cfg label s t) : Counted t := by
  have known : ∀ index ∈ s.queue, index < s.payloads.length + 1 :=
    fun index member => Nat.lt_succ_of_lt (counted.queued index member)
  have consumer {bound payload : Nat} (all : s.payloads.length ≤ bound) (here : payload < bound) :
      ∀ entry ∈ s.consuming ++ [(payload, s.batcher.calls)], entry.1 < bound :=
    forall_snoc (fun entry member => (counted.consumed entry member).trans_le all) here
  cases step with
  | receive _ data =>
    have consumed : ∀ entry ∈ s.consuming, entry.1 < s.payloads.length + 1 :=
      fun entry member => Nat.lt_succ_of_lt (counted.consumed entry member)
    refine counted.new rfl known consumed ?_ fun _ _ => rfl
    have none := counted.unclaimed
    change (1 : Int) = 1 + s.claims s.payloads.length
    omega
  | refuse _ _ _ _ _ _ _ _ payloads | result _ _ _ _ _ payloads | store _ _ _ _ _ _ _ payloads
  | unstored _ _ _ _ _ _ payloads =>
    exact counted.placed payloads rfl counted.queued counted.consumed rfl fun _ _ => rfl
  | ref _ _ _ _ _ _ _ _ _ payloads | failed _ _ _ _ _ payloads | unref _ _ _ _ _ payloads =>
    refine counted.placed payloads rfl counted.queued counted.consumed ?_ fun _ _ => rfl
    simp only [Producer.refs, PipelineState.claims]
    omega
  | added _ front back data refs waitForResult memory payloads =>
    refine counted.placed payloads rfl ?_ counted.consumed ?_ fun index other => ?_
    · apply forall_snoc counted.queued
      rw [payloads]
      simp
    · cases waitForResult with
      | false | true =>
        simp [PipelineState.claims, Producer.refs]
        omega
    · simp [PipelineState.claims, Ne.symm other]
  | read _ front back payload rest batcher free first payloads called =>
    have here : front.length < s.payloads.length := counted.queued _ (first ▸ mem_cons_self)
    refine counted.placed payloads payloads ?_ (consumer le_rfl here) ?_ fun index other => ?_
    · exact fun index member => counted.queued index (first ▸ mem_cons_of_mem _ member)
    · simp [PipelineState.claims, first]
      omega
    · simp [PipelineState.claims, first, Ne.symm other]
  | decode _ data rest batcher free first called =>
    refine counted.new rfl known (consumer (Nat.le_succ _) (Nat.lt_succ_self _)) ?_ fun index other => ?_
    · have none := counted.unclaimed
      simp only [PipelineState.claims] at none
      simp [PipelineState.claims, Producer.refs]
      omega
    · simp [PipelineState.claims, Ne.symm other]
  | consumed _ front back data refs producer before after call req consuming returned payloads =>
    refine counted.placed payloads rfl counted.queued ?_ ?_ fun index other => ?_
    · exact fun entry member => counted.consumed entry (consuming ▸ mem_of_others member)
    · simp [PipelineState.claims, consuming]
      omega
    · simp [PipelineState.claims, consuming, Ne.symm other]
  | inside | shutdown => exact { counted with }

omit [Inhabited R] [Inhabited S] in
theorem Counted.nonneg (counted : Counted s) : ∀ payload ∈ s.payloads, 0 ≤ payload.refs := by
  intro payload member
  obtain ⟨index, found⟩ := mem_iff_getElem?.mp member
  have refs := counted.refs index payload found
  have producer : 0 ≤ payload.producer.refs := by
    cases payload.producer <;> decide
  unfold PipelineState.claims at refs
  omega

theorem Reached.counted {maxWorkers : Nat}
    (reached : Reached (PipelineStep wire queue cfg) Always (newPipeline maxWorkers) s) : Counted s := by
  refine reached.invariant ⟨?_, nofun, nofun⟩ fun _ _ _ _ step counted => counted.step step
  intro index payload found
  cases found

end counted

end CollectorFormal.Batcher
