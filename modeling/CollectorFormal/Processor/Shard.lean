import Mathlib.Data.List.Induction
import CollectorFormal.Client
import CollectorFormal.Processor.Split

/-! A shard of the batch processor: what it receives, how it batches and what it exports.

The shard's goroutine handles one event after the other. A request counts as exported when it is given to the next
consumer. -/

namespace CollectorFormal.Processor

open Lib Batch Client List Bool

structure Config where
  timeout : Int
  sendBatchSize : Nat
  sendBatchMaxSize : Nat
  metadataKeys : List Text

inductive ConfigError where
  /-- "send_batch_max_size must be greater or equal to send_batch_size" -/
  | maxSize
  /-- "duplicate entry in metadata_keys", with the entry in lower case. -/
  | duplicateEntry (entry : Text)
  /-- "timeout must be greater or equal to 0" -/
  | timeout
  deriving DecidableEq

def Config.validate (toLower : Text → Text) (cfg : Config) : Option ConfigError :=
  if cfg.sendBatchMaxSize > 0 ∧ cfg.sendBatchMaxSize < cfg.sendBatchSize then some .maxSize
  else
    match checkKeys toLower [] cfg.metadataKeys with
    | some entry => some (.duplicateEntry entry)
    | none => if cfg.timeout < 0 then some .timeout else none

variable {R S L : Type}

abbrev Tree (R S L : Type) := List (Envelope R (Envelope S L))

/-- batchLogs and batchTraces: the pending data and logCount or spanCount. -/
structure TreeBatch (R S L : Type) where
  data : Tree R S L := []
  itemCount : Int := 0

def TreeBatch.add (item : Tree R S L) (batch : TreeBatch R S L) : TreeBatch R S L :=
  let newCount := recordCount item
  if newCount = 0 then batch
  else { data := batch.data ++ item, itemCount := batch.itemCount + newCount }

structure ShardState (R S L : Type) where
  batch : TreeBatch R S L := {}
  exported : List (Tree R S L) := []

/-- processItem before its loop. -/
def accept (item : Tree R S L) (b : ShardState R S L) : ShardState R S L :=
  { b with batch := b.batch.add item }

inductive Event (R S L : Type) where
  | item (item : Tree R S L)
  | tick

section definitions
variable (splitItems : Nat → Tree R S L → Tree R S L × Tree R S L)

def TreeBatch.split (sendBatchMaxSize : Nat) (batch : TreeBatch R S L) : Tree R S L × TreeBatch R S L :=
  if sendBatchMaxSize > 0 ∧ batch.itemCount > sendBatchMaxSize then
    let r := splitItems sendBatchMaxSize batch.data
    (r.1, { data := r.2, itemCount := batch.itemCount - sendBatchMaxSize })
  else (batch.data, {})

variable (cfg : Config)

def Config.hasTimer : Bool := cfg.timeout ≠ 0 && cfg.sendBatchSize ≠ 0

variable (b : ShardState R S L)

def sendItems : ShardState R S L :=
  let r := b.batch.split splitItems cfg.sendBatchMaxSize
  { batch := r.2, exported := b.exported ++ [r.1] }

/-- The condition of the loop in processItem. -/
def mustSend : Bool :=
  b.batch.itemCount > 0 && (!cfg.hasTimer || b.batch.itemCount ≥ cfg.sendBatchSize)

theorem sendItems_decreases (must : mustSend cfg b = true) :
    (sendItems splitItems cfg b).batch.itemCount.toNat < b.batch.itemCount.toNat := by
  simp only [mustSend, and_eq_true, decide_eq_true_eq] at must
  unfold sendItems TreeBatch.split
  split <;>
  · simp only
    omega

def sendLoop (b : ShardState R S L) : ShardState R S L :=
  if mustSend cfg b then sendLoop (sendItems splitItems cfg b) else b
termination_by b.batch.itemCount.toNat
decreasing_by next must => exact sendItems_decreases splitItems cfg b must

def processItem (item : Tree R S L) (b : ShardState R S L) : ShardState R S L :=
  sendLoop splitItems cfg (accept item b)

/-- One round of the loop; without a timer no tick is ever received. -/
def handle : Event R S L → ShardState R S L
  | .item item => processItem splitItems cfg item b
  | .tick => if cfg.hasTimer && b.batch.itemCount > 0 then sendItems splitItems cfg b else b

/-- The events up to the close of shutdownC and the items that were left in newItem. -/
def startLoop (events : List (Event R S L)) : ShardState R S L := events.foldl (handle splitItems cfg) {}

def shutdown : ShardState R S L :=
  if b.batch.itemCount > 0 then sendItems splitItems cfg b else b

end definitions

def items (events : List (Event R S L)) : List (Tree R S L) :=
  events.filterMap fun
    | .item item => some item
    | .tick => none

/-- The records of requests in order, each with its resource, scope and schema URLs. -/
def records (requests : List (Tree R S L)) : List (R × String × S × String × L) :=
  requests.flatMap fun request => request.flatMap flattenResource

section proofs
variable {cfg : Config} {received : List (Tree R S L)} {b : ShardState R S L}

theorem records_append (first second : List (Tree R S L)) :
    records (first ++ second) = records first ++ records second :=
  flatMap_append

theorem records_singleton (request : Tree R S L) : records [request] = request.flatMap flattenResource :=
  flatMap_singleton _ _

theorem flatten_of_recordCount_zero {data : Tree R S L} (none : recordCount data = 0) :
    data.flatMap flattenResource = [] := by
  rwa [recordCount_eq, length_eq_zero_iff] at none

theorem recordCount_append (first second : Tree R S L) :
    recordCount (first ++ second) = recordCount first + recordCount second := by
  simp [recordCount]

/-- The counter is right, nothing is lost, and what was exported has the right sizes. -/
structure Accounted (cfg : Config) (received : List (Tree R S L)) (b : ShardState R S L) : Prop where
  counted : b.batch.itemCount = recordCount b.batch.data
  conserved : records b.exported ++ b.batch.data.flatMap flattenResource = records received
  sized : ∀ request ∈ b.exported, recordCount request ≠ 0 ∧
    (0 < cfg.sendBatchMaxSize → recordCount request ≤ cfg.sendBatchMaxSize)

theorem Accounted.add (accounted : Accounted cfg received b) (item : Tree R S L) :
    Accounted cfg (received ++ [item]) (accept item b) := by
  obtain ⟨counted, conserved, sized⟩ := accounted
  unfold accept TreeBatch.add
  by_cases none : recordCount item = 0
  · refine ⟨?_, ?_, sized⟩
    · simp only [if_pos none]
      exact counted
    · simp only [if_pos none]
      rw [records_append, records_singleton, flatten_of_recordCount_zero none, append_nil, conserved]
  · refine ⟨?_, ?_, sized⟩
    · simp only [if_neg none]
      rw [recordCount_append, counted, Nat.cast_add]
    · simp only [if_neg none]
      rw [flatMap_append, ← append_assoc, conserved, records_append, records_singleton]

theorem Accounted.send (accounted : Accounted cfg received b) (some : b.batch.itemCount > 0) :
    Accounted cfg received (sendItems splitTree cfg b) := by
  obtain ⟨counted, conserved, sized⟩ := accounted
  unfold sendItems TreeBatch.split
  split
  · next large =>
      have more : cfg.sendBatchMaxSize < recordCount b.batch.data := by omega
      obtain ⟨whole, exactly⟩ := splitTree_spec b.batch.data more
      have both := congrArg List.length whole
      rw [length_append, ← recordCount_eq, ← recordCount_eq, ← recordCount_eq] at both
      refine ⟨?_, ?_, ?_⟩
      · simp only
        omega
      · rw [records_append, records_singleton, append_assoc]
        simp only
        rw [whole, conserved]
      · refine forall_mem_append.mpr ⟨sized, forall_mem_singleton.mpr ?_⟩
        simp only
        omega
  · next small =>
      refine ⟨rfl, ?_, ?_⟩
      · rw [records_append, records_singleton, flatMap_nil, append_nil]
        exact conserved
      · refine forall_mem_append.mpr ⟨sized, forall_mem_singleton.mpr ?_⟩
        simp only
        omega

def Settled (cfg : Config) (b : ShardState R S L) : Prop := mustSend cfg b = false

theorem sendLoop_rounds (accounted : Accounted cfg received b) :
    ∃ rounds, sendLoop splitTree cfg b = (sendItems splitTree cfg)^[rounds] b ∧
      Settled cfg ((sendItems splitTree cfg)^[rounds] b) ∧
      (∀ n < rounds, mustSend cfg ((sendItems splitTree cfg)^[n] b) = true) ∧
      ∀ n ≤ rounds, Accounted cfg received ((sendItems splitTree cfg)^[n] b) := by
  fun_induction sendLoop splitTree cfg b with
  | case1 b must ih =>
    have some : b.batch.itemCount > 0 := by
      simp only [mustSend, and_eq_true, decide_eq_true_eq] at must
      exact must.1
    obtain ⟨rounds, same, settled, before, right⟩ := ih (accounted.send some)
    refine ⟨rounds + 1, same, settled, ?_, ?_⟩
    · intro n less
      cases n with
      | zero => exact must
      | succ n => exact before n (by omega)
    · intro n less
      cases n with
      | zero => exact accounted
      | succ n => exact right n (by omega)
  | case2 b done =>
    refine ⟨0, rfl, by simpa [Settled] using done, by simp, ?_⟩
    intro n less
    obtain rfl : n = 0 := by omega
    exact accounted

theorem Settled.send (settled : Settled cfg b) (some : b.batch.itemCount > 0) :
    Settled cfg (sendItems splitTree cfg b) := by
  simp only [Settled, mustSend, some, decide_true, Bool.true_and, Bool.or_eq_false_iff,
    decide_eq_false_iff_not] at settled
  have less : (sendItems splitTree cfg b).batch.itemCount ≤ b.batch.itemCount := by
    unfold sendItems TreeBatch.split
    split <;>
    · simp only
      omega
  simp only [Settled, mustSend, and_eq_false_iff, or_eq_false_iff, decide_eq_false_iff_not]
  right
  exact ⟨settled.1, by omega⟩

theorem handle_accounted {handled : List (Event R S L)} (accounted : Accounted cfg (items handled) b)
    (settled : Settled cfg b) (event : Event R S L) :
    Accounted cfg (items (handled ++ [event])) (handle splitTree cfg b event) ∧
      Settled cfg (handle splitTree cfg b event) := by
  cases event with
  | item item =>
    obtain ⟨rounds, same, done, _, right⟩ := sendLoop_rounds (accounted.add item)
    have received : items (handled ++ [.item item]) = items handled ++ [item] := by simp [items]
    simp only [handle, processItem, received, same]
    exact ⟨right rounds le_rfl, done⟩
  | tick =>
    have received : items (handled ++ [.tick]) = items handled := by simp [items]
    simp only [handle, received]
    split
    · next due =>
        simp only [and_eq_true, decide_eq_true_eq] at due
        exact ⟨accounted.send due.2, settled.send due.2⟩
    · exact ⟨accounted, settled⟩

theorem startLoop_snoc (handled : List (Event R S L)) (event : Event R S L) :
    startLoop splitTree cfg (handled ++ [event]) =
      handle splitTree cfg (startLoop splitTree cfg handled) event := by
  simp [startLoop]

theorem startLoop_accounted (cfg : Config) (events : List (Event R S L)) :
    Accounted cfg (items events) (startLoop splitTree cfg events) ∧
      Settled cfg (startLoop splitTree cfg events) := by
  induction events using List.reverseRecOn with
  | nil =>
    refine ⟨⟨rfl, rfl, ?_⟩, rfl⟩
    intro request member
    exact absurd member not_mem_nil
  | append_singleton handled event ih =>
    rw [startLoop_snoc]
    exact handle_accounted ih.1 ih.2 event

theorem shutdown_accounted (fits : 0 < cfg.sendBatchMaxSize → cfg.sendBatchSize ≤ cfg.sendBatchMaxSize)
    (accounted : Accounted cfg received b) (settled : Settled cfg b) :
    Accounted cfg received (shutdown splitTree cfg b) ∧
      (shutdown splitTree cfg b).batch.data.flatMap flattenResource = [] := by
  unfold shutdown
  split
  · next some =>
      refine ⟨accounted.send some, ?_⟩
      simp only [Settled, mustSend, some, decide_true, Bool.true_and, Bool.or_eq_false_iff,
        decide_eq_false_iff_not] at settled
      unfold sendItems TreeBatch.split
      rw [if_neg (by omega)]
      rfl
  · next none =>
      have counted := accounted.counted
      exact ⟨accounted, flatten_of_recordCount_zero (by omega)⟩

theorem records_nonempty (requests : List (Tree R S L)) :
    records (requests.filter fun request => recordCount request ≠ 0) = records requests := by
  induction requests with
  | nil => rfl
  | cons request rest ih =>
    by_cases none : recordCount request = 0
    · rw [filter_cons_of_neg (by simpa using none), ih]
      unfold records
      rw [flatMap_cons, flatten_of_recordCount_zero none, nil_append]
    · rw [filter_cons_of_pos (by simpa using none)]
      unfold records at ih ⊢
      rw [flatMap_cons, flatMap_cons, ih]

theorem validate_fits {toLower : Text → Text} (valid : cfg.validate toLower = none) :
    0 < cfg.sendBatchMaxSize → cfg.sendBatchSize ≤ cfg.sendBatchMaxSize := by
  intro positive
  by_contra larger
  rw [Config.validate, if_pos (by omega)] at valid
  cases valid

end proofs

def TrueCount (b : ShardState R S L) : Prop := b.batch.itemCount = recordCount b.batch.data

/-- What a shard is for, over the whole of a run that ends with the shutdown. -/
structure Delivers (splitItems : Nat → Tree R S L → Tree R S L × Tree R S L) (cfg : Config)
    (events : List (Event R S L)) : Prop where
  conserved : records (shutdown splitItems cfg (startLoop splitItems cfg events)).exported =
    records ((items events).filter fun item => recordCount item ≠ 0)
  sized : ∀ request ∈ (shutdown splitItems cfg (startLoop splitItems cfg events)).exported,
    recordCount request ≠ 0 ∧ (0 < cfg.sendBatchMaxSize → recordCount request ≤ cfg.sendBatchMaxSize)
  counted : TrueCount (shutdown splitItems cfg (startLoop splitItems cfg events)) ∧
    ∀ handled, handled <+: events → TrueCount (startLoop splitItems cfg handled)
  /-- The send loop ends after some number of rounds, and the counter is true in each. -/
  terminates : ∀ handled item, handled ++ [.item item] <+: events →
    ∃ rounds, ∃ round : Nat → ShardState R S L, round 0 = accept item (startLoop splitItems cfg handled) ∧
      (∀ n < rounds, mustSend cfg (round n) = true ∧ round (n + 1) = sendItems splitItems cfg (round n)) ∧
      mustSend cfg (round rounds) = false ∧ startLoop splitItems cfg (handled ++ [.item item]) = round rounds ∧
      ∀ n ≤ rounds, TrueCount (round n)

theorem splitTree_delivers {toLower : Text → Text} {cfg : Config} (valid : cfg.validate toLower = none)
    (events : List (Event R S L)) : Delivers splitTree cfg events := by
  obtain ⟨accounted, settled⟩ := startLoop_accounted cfg events
  obtain ⟨final, empty⟩ := shutdown_accounted (validate_fits valid) accounted settled
  refine ⟨?_, final.sized, ⟨final.counted, ?_⟩, ?_⟩
  · rw [records_nonempty, ← final.conserved, empty, append_nil]
  · intro handled _
    exact (startLoop_accounted cfg handled).1.counted
  · intro handled item _
    have added := (startLoop_accounted cfg handled).1.add item
    obtain ⟨rounds, same, done, before, right⟩ := sendLoop_rounds added
    refine ⟨rounds, fun n => (sendItems splitTree cfg)^[n] _, rfl, ?_, done, ?_, ?_⟩
    · intro n less
      exact ⟨before n less, Function.iterate_succ_apply' _ _ _⟩
    · rw [startLoop_snoc]
      exact same
    · intro n less
      exact (right n less).counted

/-- A shard loses, repeats and reorders nothing, for logs and for traces. -/
theorem shard_delivers (toLower : Text → Text) (cfg : Config) (valid : cfg.validate toLower = none)
    (events : List (Event R S L)) : Delivers splitLogs cfg events ∧ Delivers splitTraces cfg events :=
  ⟨splitTree_delivers valid events, splitTree_delivers valid events⟩

def oneByOne : Config := { timeout := 0, sendBatchSize := 1, sendBatchMaxSize := 1, metadataKeys := [] }

/-- Two records with a maximum of one, and a tick without a timer. -/
theorem shard_delivers_two :
    Config.validate asciiLower oneByOne = none ∧
      Delivers splitLogs oneByOne [Event.item [⟨(), "", [⟨(), "", [1, 2]⟩]⟩], .tick] :=
  ⟨by decide, (shard_delivers asciiLower _ (by decide) _).1⟩

end CollectorFormal.Processor
