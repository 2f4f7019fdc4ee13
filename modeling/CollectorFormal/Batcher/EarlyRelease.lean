import CollectorFormal.Batcher.FailedRequests
import CollectorFormal.Batcher.PayloadRefs

/-! Payloads that are recycled while a batch has them. The consumer of the queue gives up its reference when Consume
returns, which it does when its batches have a worker or wait to be flushed. -/

namespace CollectorFormal.Batcher

open Lib List
open CollectorFormal.Batch

variable {R S L : Type} [Inhabited R] [Inhabited S]

/-- A payload without references is in a batch that was not exported. -/
def ReleasedEarly (s : PipelineState R S L) : Prop :=
  ∃ index payload, s.payloads[index]? = some payload ∧ payload.refs = 0 ∧
    ∃ batch ∈ s.batcher.unfinished, batch.req.payload = some index

section definitions
variable (wire : TreeWire R S L) (queue : QueueConfig) (cfg : BatchConfig)

def QueueConfig.Takes (data : Logs R S L) : Prop :=
  match queue.kind with
  | .memory _ => 0 < queue.sizeof wire data ∧ queue.sizeof wire data ≤ queue.capacity
  | .persistent => queue.sizeof wire data ≤ queue.capacity

def Whole (data : Logs R S L) : Prop :=
  ((logsKind wire).mergeSplit cfg.maxSize cfg.sizer { data := data } none).err = []

end definitions

section unlinked
variable {wire : TreeWire R S L} {queue : QueueConfig} {cfg : BatchConfig}

/-- What a call of Consume brings: a payload that the queue takes. -/
def Brought (wire : TreeWire R S L) (queue : QueueConfig) (_ : Nat) (req : PayloadRequest R S L) : Prop :=
  ∃ data, req.logs = { data := data } ∧ queue.Takes wire data

def Unlinked (l : Ledger (PayloadRequest R S L) MergeError) : Prop :=
  ∀ batch, l.current = some batch ∨ batch ∈ l.live → batch.req.payload = none

omit [Inhabited R] [Inhabited S] in
theorem mem_withContainer {payload : Option Nat} {reqList : List (LogsRequest R S L)}
    {req : PayloadRequest R S L} (member : req ∈ withContainer payload reqList) :
    req.payload = none ∨ req.payload = payload := by
  simp only [withContainer, mem_append, mem_map] at member
  rcases member with ⟨_, _, rfl⟩ | ⟨_, _, rfl⟩
  · exact .inl rfl
  · exact .inr rfl

theorem payloadKind_unlinked {maxSize : Int} {szt : SizerType} {req : PayloadRequest R S L}
    {r2 : Option (PayloadRequest R S L)}
    (unlinked : req.payload = none ∨ ((payloadKind wire).mergeSplit maxSize szt req r2).err ≠ []) :
    ∀ result ∈ ((payloadKind wire).mergeSplit maxSize szt req r2).reqList, result.payload = none := by
  intro result member
  simp only [payloadKind] at unlinked member
  split at member
  · next whole =>
      rw [List.isEmpty_iff] at whole
      rcases unlinked with none | failed
      · rcases mem_withContainer member with same | same
        · exact same
        · exact same.trans none
      · exact absurd whole failed
  · obtain ⟨_, _, rfl⟩ := mem_map.mp member
    rfl

theorem consumeInternal_unlinked {currentBatch : Option (Batch (PayloadRequest R S L))} (call : Nat)
    {req : PayloadRequest R S L} {data : Logs R S L} (same : req.logs = { data := data })
    (dropped : ¬ Whole wire cfg data) (current : ∀ batch ∈ currentBatch, batch.req.payload = none) :
    let consumed := consumeInternal (payloadKind wire) cfg currentBatch call req
    ∀ batch, consumed.currentBatch = some batch ∨ batch ∈ consumed.flushes → batch.req.payload = none := by
  have results : ∀ result ∈ (mergeSplitWith (payloadKind wire) cfg currentBatch req).reqList,
      result.payload = none := by
    cases currentBatch with
    | none =>
      refine payloadKind_unlinked (.inr ?_)
      simp only [payloadKind, same]
      exact dropped
    | some batch => exact payloadKind_unlinked (.inl (current batch rfl))
  have spec := consumeInternal_spec (payloadKind wire) cfg currentBatch call req
  intro consumed batch inside
  simp only at spec
  split at spec
  · rw [spec.current, spec.flushes] at inside
    rcases inside with kept | flushed
    · obtain ⟨old, here, rfl⟩ := Option.map_eq_some_iff.mp kept
      subst here
      exact current old rfl
    · cases flushed
  · exact results _ (spec.result inside)

theorem LedgerStep.unlinked {l after : Ledger (PayloadRequest R S L) MergeError}
    (step : LedgerStep (payloadKind wire) cfg (Brought wire queue) l after)
    (dropped : ∀ data, queue.Takes wire data → ¬ Whole wire cfg data) (unlinked : Unlinked l) :
    Unlinked after := by
  intro batch inside
  cases step with
  | consume call req brought fresh =>
    obtain ⟨data, same, takes⟩ := brought
    have current : ∀ batch ∈ l.current, batch.req.payload = none :=
      fun batch here => unlinked batch (.inl here)
    have new := consumeInternal_unlinked call same (dropped data takes) current
    rcases inside with kept | live
    · exact new batch (.inl kept)
    · rcases Multiset.mem_add.mp live with before | flushed
      · exact unlinked batch (.inr before)
      · exact new batch (.inr (Multiset.mem_coe.mp flushed))
  | take taken current =>
    rcases inside with none | live
    · cases none
    · rcases Multiset.mem_cons.mp live with rfl | before
      · exact unlinked batch (.inl current)
      · exact unlinked batch (.inr before)
  | finish done err rest live =>
    rcases inside with current | later
    · exact unlinked batch (.inl current)
    · exact unlinked batch (.inr (live ▸ Multiset.mem_cons_of_mem later))
  | tell => exact unlinked batch inside

structure Taken (wire : TreeWire R S L) (queue : QueueConfig) (s : PipelineState R S L) : Prop where
  added : ∀ payload ∈ s.payloads, payload.producer = .add → queue.Takes wire payload.data
  queued : ∀ index ∈ s.queue, ∀ payload, s.payloads[index]? = some payload → queue.Takes wire payload.data
  stored : ∀ data ∈ s.stored, queue.Takes wire data

variable {label : PipelineLabel} {s t : PipelineState R S L}

omit [Inhabited R] [Inhabited S] in
theorem Taken.placed (taken : Taken wire queue s) {front back : List (Payload R S L)} {old new : Payload R S L}
    (payloads : s.payloads = front ++ old :: back) (now : t.payloads = front ++ new :: back)
    (same : new.data = old.data) (adds : new.producer = .add → queue.Takes wire new.data)
    (queued : ∀ index ∈ t.queue, index ∈ s.queue ∨ queue.Takes wire new.data ∧ index = front.length)
    (stored : ∀ data ∈ t.stored, data ∈ s.stored ∨ queue.Takes wire data) : Taken wire queue t := by
  have here : s.payloads[front.length]? = some old := by
    rw [payloads]
    simp
  refine ⟨?_, fun index member payload found => ?_, fun data member => ?_⟩
  · have before := taken.added
    rw [payloads] at before
    rw [now]
    exact forall_placed before adds
  · rw [now] at found
    rcases getElem?_placed old found with ⟨rfl, rfl⟩ | ⟨other, unchanged⟩
    · rcases queued _ member with before | ⟨takes, _⟩
      · exact same ▸ taken.queued _ before old here
      · exact takes
    · rcases queued index member with before | ⟨_, last⟩
      · exact taken.queued index before payload (payloads ▸ unchanged)
      · exact absurd last other
  · rcases stored data member with before | takes
    · exact taken.stored data before
    · exact takes

omit [Inhabited R] [Inhabited S] in
theorem Taken.new (taken : Taken wire queue s) (counted : Counted s) {payload : Payload R S L}
    (now : t.payloads = s.payloads ++ [payload]) (adds : payload.producer ≠ .add) (queued : t.queue = s.queue)
    (stored : ∀ data ∈ t.stored, data ∈ s.stored) : Taken wire queue t := by
  refine ⟨fun old member adding => ?_, fun index member old found => ?_, fun data member => ?_⟩
  · rw [now] at member
    rcases mem_append.mp member with before | last
    · exact taken.added old before adding
    · rw [mem_singleton.mp last] at adding
      exact absurd adding adds
  · rw [queued] at member
    rw [now, getElem?_append_left (counted.queued index member)] at found
    exact taken.queued index member old found
  · exact taken.stored data (stored data member)

theorem Taken.step (taken : Taken wire queue s) (counted : Counted s)
    (step : PipelineStep wire queue cfg label s t) : Taken wire queue t := by
  have queued {front : List (Payload R S L)} {new : Payload R S L} : ∀ index ∈ s.queue,
      index ∈ s.queue ∨ queue.Takes wire new.data ∧ index = front.length := fun _ member => .inl member
  have stored : ∀ data ∈ s.stored, data ∈ s.stored ∨ queue.Takes wire data := fun _ member => .inl member
  cases step with
  | receive _ data => exact taken.new counted rfl nofun rfl fun _ member => member
  | refuse _ _ _ _ _ _ _ _ payloads | failed _ _ _ _ _ payloads | result _ _ _ _ _ payloads
  | unstored _ _ _ _ _ _ payloads | unref _ _ _ _ _ payloads =>
    exact taken.placed payloads rfl rfl nofun queued stored
  | ref _ front back data refs waitForResult memory positive fits payloads =>
    refine taken.placed payloads rfl rfl (fun _ => ?_) queued stored
    rw [QueueConfig.Takes, memory]
    exact ⟨positive, fits⟩
  | added _ front back data refs waitForResult memory payloads =>
    have takes : queue.Takes wire data := taken.added _ (payloads ▸ mem_append_cons_self) rfl
    refine taken.placed payloads rfl rfl (fun _ => takes) (fun index member => ?_) stored
    rcases mem_append.mp member with before | last
    · exact .inl before
    · exact .inr ⟨takes, mem_singleton.mp last⟩
  | store _ front back data refs persistent fits payloads =>
    refine taken.placed payloads rfl rfl nofun queued fun other member => ?_
    rcases mem_append.mp member with before | last
    · exact .inl before
    · rw [mem_singleton.mp last, QueueConfig.Takes, persistent]
      exact .inr fits
  | read _ front back payload rest batcher free first payloads called =>
    exact ⟨taken.added, fun index member => taken.queued index (first ▸ mem_cons_of_mem _ member), taken.stored⟩
  | decode _ data rest batcher free first called =>
    exact taken.new counted rfl nofun rfl fun _ member => first ▸ mem_cons_of_mem _ member
  | consumed _ front back data refs producer before after call req consuming returned payloads =>
    refine taken.placed payloads rfl rfl (fun adding => ?_) queued stored
    exact taken.added ⟨data, refs, producer⟩ (payloads ▸ mem_append_cons_self) adding
  | inside | shutdown => exact { taken with }

theorem PipelineStep.partition (step : PipelineStep wire queue cfg label s t) (taken : Taken wire queue s) :
    t.batcher = s.batcher ∨ ∃ label, PartitionStep (payloadKind wire) cfg label s.batcher t.batcher ∧
      Bringing (Brought wire queue) label s.batcher := by
  cases step with
  | read _ front back payload rest batcher free first payloads called =>
    refine .inr ⟨_, called, payload.data, rfl, ?_⟩
    refine taken.queued front.length (first ▸ mem_cons_self) payload ?_
    rw [payloads]
    simp
  | decode _ data rest batcher free first called =>
    exact .inr ⟨_, called, data, rfl, taken.stored data (first ▸ mem_cons_self)⟩
  | inside _ batcher label workers pool moved =>
    refine .inr ⟨label, moved, ?_⟩
    cases label with
    | consume => cases pool
    | _ => trivial
  | shutdown _ batcher called => exact .inr ⟨_, called, trivial⟩
  | _ => exact .inl rfl

theorem Reached.unlinked {maxWorkers : Nat} (dropped : ∀ data, queue.Takes wire data → ¬ Whole wire cfg data)
    (reached : Reached (PipelineStep wire queue cfg) Always (newPipeline maxWorkers) s) :
    Unlinked s.batcher.ledger := by
  have all : Taken wire queue s ∧ Numbered (Brought wire queue) s.batcher ∧ Unlinked s.batcher.ledger := by
    induction reached with
    | start =>
      refine ⟨⟨nofun, nofun, nofun⟩, ⟨.refl _, ?_⟩, ?_⟩
      · simp [newPipeline, newPartition]
      · intro batch inside
        simp [newPipeline, newPartition_ledger] at inside
    | step reached _ moved ih =>
      obtain ⟨taken, numbered, unlinked⟩ := ih
      refine ⟨taken.step (Reached.counted reached) moved, ?_⟩
      rcases moved.partition taken with same | ⟨label, step, brought⟩
      · rw [same]
        exact ⟨numbered, unlinked⟩
      · refine ⟨step.numbered brought numbered, ?_⟩
        rcases step.ledger numbered with same | moved
        · rw [same]
          exact unlinked
        · exact moved.unlinked dropped unlinked
  exact all.2.2

end unlinked

section flushes
variable {Req E : Type} {kind : RequestKind Req E} {cfg : BatchConfig}

def WorkerStep (kind : RequestKind Req E) (cfg : BatchConfig) (label : PartitionLabel Req)
    (before after : Nat × PartitionState Req E) : Prop :=
  label.workers before.1 = some after.1 ∧ PartitionStep kind cfg label before.2 after.2

/-- The first call of Consume has batches to flush, and nobody else does anything. -/
structure Flushing (req : Req) (tasks : List (Batch Req)) (currentBatch : Option (Batch Req))
    (s : PartitionState Req E) : Prop where
  threads : s.threads = [⟨.timer, .start⟩, ⟨.consume 0 req, .flush tasks false⟩]
  exports : s.exports = []
  current : s.currentBatch = currentBatch

variable {req : Req} {currentBatch : Option (Batch Req)} {s t : PartitionState Req E} {free : Nat}

theorem worker_step {first : Nat × PartitionState Req E} {label : PartitionLabel Req}
    (reached : Reached (WorkerStep kind cfg) Always first (free, s)) (rest : Nat)
    (moved : PartitionStep kind cfg label s t) (pool : label.workers free = some rest) :
    Reached (WorkerStep kind cfg) Always first (rest, t) :=
  reached.next ⟨pool, moved⟩ trivial

variable (kind cfg free) in
theorem Flushing.export_first {task : Batch Req} {tasks : List (Batch Req)} {done : Done}
    (flushing : Flushing req (task :: tasks) currentBatch s) (told : task.done = [done]) :
    ∃ t, Reached (WorkerStep kind cfg) Always (free + 1, s) (free + 1, t) ∧
      Flushing req tasks currentBatch t := by
  have begun : Reached (WorkerStep kind cfg) Always (free + 1, s) (free + 1, s) := .start
  have waiting := worker_step begun (free + 1) (.move [_] [] flushing.threads (.flush _ _ _ _ _)) rfl
  have working := worker_step waiting free (.move [_] [] rfl (.execute _ _ _ _ _)) rfl
  have exported := worker_step working free (.exported _ [] [] task [] (by simp [flushing.exports])) rfl
  have notified := worker_step exported free (.notify _ [] [] [] done [] (by simp [told])) rfl
  have released := worker_step notified (free + 1) (.release _ [] [] [] rfl) rfl
  exact ⟨_, released, rfl, rfl, flushing.current⟩

variable (kind cfg free) in
theorem Flushing.export_all {done : Done} {rest : List (Batch Req)} (tasks : List (Batch Req))
    (told : ∀ task ∈ tasks, task.done = [done]) (flushing : Flushing req (tasks ++ rest) currentBatch s) :
    ∃ t, Reached (WorkerStep kind cfg) Always (free + 1, s) (free + 1, t) ∧
      Flushing req rest currentBatch t := by
  induction tasks generalizing s with
  | nil => exact ⟨s, .start, flushing⟩
  | cons task tasks ih =>
    obtain ⟨middle, first, later⟩ := flushing.export_first kind cfg free (told task mem_cons_self)
    obtain ⟨t, others, after⟩ := ih (fun task member => told task (mem_cons_of_mem _ member)) later
    exact ⟨t, first.trans others, after⟩

/-- Consume returns while its last batch is the current one or with a worker. -/
theorem Flushing.returns {done : Done} {last : Batch Req} {tasks front : List (Batch Req)}
    (flushing : Flushing req tasks currentBatch s) (batches : tasks ++ currentBatch.toList = front ++ [last])
    (told : ∀ task ∈ front, task.done = [done]) :
    ∃ rest t, Reached (WorkerStep kind cfg) Always (free + 1, s) (rest, t) ∧
      ⟨.consume 0 req, .returned⟩ ∈ t.threads ∧ last ∈ t.unfinished := by
  cases currentBatch with
  | some current =>
    obtain ⟨rfl, same⟩ := append_inj' batches rfl
    obtain rfl : current = last := by simpa using same
    rw [← append_nil tasks] at flushing
    obtain ⟨t, exported, after⟩ := flushing.export_all kind cfg free tasks told
    have returned := worker_step exported (free + 1) (.move [_] [] after.threads (.flushed _ _ _)) rfl
    refine ⟨_, _, returned, mem_append_cons_self, ?_⟩
    simp [PartitionState.unfinished, after.current]
  | none =>
    rw [Option.toList_none, append_nil] at batches
    subst batches
    obtain ⟨t, exported, after⟩ := flushing.export_all kind cfg free front told
    have waiting := worker_step exported (free + 1) (.move [_] [] after.threads (.flush _ _ _ _ _)) rfl
    have working := worker_step waiting free (.move [_] [] rfl (.execute _ _ _ _ _)) rfl
    have returned := worker_step working free (.move [_] [] rfl (.flushed _ _ _)) rfl
    refine ⟨_, _, returned, mem_append_cons_self, ?_⟩
    simp [PartitionState.unfinished, Export.batches]

end flushes

section oneByte

/-- Nothing was taken, and there is room for one byte at most. -/
def NoRoom {C : Type} (acc : Extraction C) : Prop := acc.dest = [] ∧ acc.capacityLeft ≤ 1

theorem one_lt_protoDelta {size : Int} (nonneg : 0 ≤ size) : 1 < protoDelta size := by
  unfold protoDelta sov
  omega

theorem takeRecord_noRoom {C : Type} {size : C → Int} (nonneg : ∀ src, 0 ≤ size src) (acc : Extraction C)
    (src : C) (noRoom : NoRoom acc) : NoRoom (takeRecord protoDelta size acc src).1 := by
  obtain ⟨nothing, capacity⟩ := noRoom
  have large := one_lt_protoDelta (nonneg src)
  rw [takeRecord]
  split
  · exact ⟨nothing, capacity⟩
  · rw [if_pos (by omega)]
    exact ⟨nothing, Int.one_nonneg⟩

theorem takeGroup_noRoom {C : Type} {size : C → Int} {extract : C → Int → Extracted C} {length : C → Nat}
    {empty : C} (nonneg : ∀ src, 0 ≤ size src)
    (none : ∀ src capacity, capacity ≤ 1 → length (extract src capacity).dest = 0) (acc : Extraction C)
    (src : C) (noRoom : NoRoom acc) : NoRoom (takeGroup protoDelta size extract length empty acc src).1 := by
  obtain ⟨nothing, capacity⟩ := noRoom
  have large := one_lt_protoDelta (nonneg src)
  rw [takeGroup]
  split
  · exact ⟨nothing, capacity⟩
  · simp only
    rw [if_pos (by omega), none src _ capacity]
    exact ⟨nothing, Int.one_nonneg⟩

theorem extract_noRoom {H C : Type} {size : Envelope H C → Int}
    {visit : Extraction C → C → Extraction C × C × Bool} (nonneg : ∀ src, 0 ≤ size src)
    (keeps : ∀ acc src, NoRoom acc → NoRoom (visit acc src).1) (src : Envelope H C) (capacity : Int)
    (small : capacity ≤ 1) : (src.extract protoDelta size visit capacity).dest.children.length = 0 := by
  have left : capacity - (protoDelta capacity - capacity) - size { src with children := [] } ≤ 1 := by
    have own := nonneg { src with children := [] }
    unfold protoDelta sov
    omega
  have nothing := removeIf_invariant keeps { capacityLeft := _ } src.children ⟨rfl, left⟩
  exact length_eq_zero_iff.mpr nothing.1

def oneByte : BatchConfig := { flushTimeout := 1, sizer := .bytes, minSize := 0, maxSize := 1 }

theorem oneByte_drops (sizes : WireSizes R S L) {data : Logs R S L} (records : 0 < logRecordCount data) :
    ¬ Whole sizes.wire oneByte data := by
  have scopes (scope : ScopeLogs S L) : 0 ≤ (logsBytesSizer sizes.wire).scopeSize scope :=
    Envelope.sizeProto_nonneg (fun _ => Int.natCast_nonneg _) (fun _ => Int.natCast_nonneg _) scope
  have nothing : (extractLogs (logsBytesSizer sizes.wire) data 1).dest = [] := by
    refine (removeIf_invariant (takeGroup_noRoom sizes.resourceSize_nonneg ?_) { capacityLeft := _ } data ?_).1
    · refine extract_noRoom sizes.resourceSize_nonneg (takeGroup_noRoom scopes ?_)
      exact extract_noRoom scopes (takeRecord_noRoom fun _ => Int.natCast_nonneg _)
    · exact ⟨rfl, le_refl 1⟩
  have oversized : Oversized (bytesSplitter sizes) 1 { data := data } := by
    refine ⟨?_, ?_⟩
    · cases data with
      | nil => cases records
      | cons resource rest =>
        have large := one_lt_protoDelta (sizes.resourceSize_nonneg resource)
        have more := repeatedSize_nonneg sizes.resourceSize_nonneg rest
        calc (1 : Int)
          _ < protoDelta ((logsBytesSizer sizes.wire).resourceSize resource) +
              repeatedSize (logsBytesSizer sizes.wire).resourceSize rest := by omega
          _ = repeatedSize (logsBytesSizer sizes.wire).resourceSize (resource :: rest) := rfl
    · exact congrArg (bytesSplitter sizes).count nothing
  intro whole
  exact split_oversized oversized (Option.toList_eq_nil_iff.mp whole)

end oneByte

section release
variable {wire : TreeWire R S L} {queue : QueueConfig} {cfg : BatchConfig} {data : Logs R S L}

theorem Whole.pieces (whole : Whole wire cfg data) :
    ((logsKind wire).mergeSplit cfg.maxSize cfg.sizer { data := data } none).reqList ≠ [] := by
  have known : ∃ splitter, logsSplitters wire cfg.sizer = some splitter := by
    unfold Whole at whole
    cases szt : cfg.sizer with
    | requests =>
      rw [szt] at whole
      cases whole
    | items | bytes => exact ⟨_, rfl⟩
  obtain ⟨splitter, known⟩ := known
  rw [Whole, logsKind_answer known] at whole
  rw [logsKind_answer known]
  by_cases unlimited : cfg.maxSize = 0
  · rw [if_pos unlimited]
    exact cons_ne_nil _ _
  · rw [if_neg unlimited] at whole ⊢
    intro none
    exact split_oversized ((split_eq_nil_iff _).mp none) (Option.toList_eq_nil_iff.mp whole)

def calledOnce (req : PayloadRequest R S L) : PartitionState (PayloadRequest R S L) MergeError :=
  { onEmpty := false, calls := 1, threads := [⟨.timer, .start⟩, ⟨.consume 0 req, .start⟩] }

theorem placed_none {Req : Type} (done : Done) (reqList : List Req) :
    placed none done reqList = reqList.map (⟨·, [done]⟩) := by
  cases reqList with
  | nil | cons => rfl

theorem Whole.returns (whole : Whole wire cfg data) (index free : Nat) :
    let req : PayloadRequest R S L := ⟨{ data := data }, some index⟩
    ∃ rest t, Reached (WorkerStep (payloadKind wire) cfg) Always (free + 1, calledOnce req) (rest, t) ∧
      ⟨.consume 0 req, .returned⟩ ∈ t.threads ∧ ∃ batch ∈ t.unfinished, batch.req.payload = some index := by
  intro req
  obtain ⟨front, last, pieces⟩ := (eq_nil_or_concat' _).resolve_left whole.pieces
  have answer : (mergeSplitWith (payloadKind wire) cfg none req).reqList =
      front.map (⟨·, none⟩) ++ [⟨last, some index⟩] := by
    have all : ((logsKind wire).mergeSplit cfg.maxSize cfg.sizer { data := data } none).err = [] := whole
    simp [mergeSplitWith, payloadKind, withContainer, req, all, pieces]
  have spec := consumeInternal_spec (payloadKind wire) cfg none 0 req
  rw [if_neg (by rw [answer]; simp)] at spec
  have batches := spec.batches
  rw [placed_none, answer, map_append, map_map, map_singleton] at batches
  have called : ∃ t, Reached (WorkerStep (payloadKind wire) cfg) Always (free + 1, calledOnce req) (free + 1, t) ∧
      Flushing req (consumeInternal (payloadKind wire) cfg none 0 req).flushes
        (consumeInternal (payloadKind wire) cfg none 0 req).currentBatch t := by
    exact ⟨_, worker_step .start _ (.move [_] [] rfl (.consume (calledOnce req) 0 req)) rfl, rfl, rfl, rfl⟩
  obtain ⟨s, called, flushing⟩ := called
  obtain ⟨rest, t, later, returned, unfinished⟩ := flushing.returns batches fun task member => by
    obtain ⟨_, _, rfl⟩ := mem_map.mp member
    exact rfl
  exact ⟨rest, t, called.trans later, returned, _, unfinished, rfl⟩

theorem inside_run (queue : QueueConfig) {s : PipelineState R S L}
    {after : Nat × PartitionState (PayloadRequest R S L) MergeError}
    (run : Reached (WorkerStep (payloadKind wire) cfg) Always (s.workers, s.batcher) after) :
    Reached (PipelineStep wire queue cfg) Always s { s with workers := after.1, batcher := after.2 } := by
  induction run with
  | start => exact .start
  | step run _ moved ih => exact ih.next (.inside _ _ _ _ moved.1 moved.2) trivial

theorem Whole.released (whole : Whole wire cfg data) {front : List (Payload R S L)} {free : Nat}
    {first : PipelineState R S L}
    (reached : Reached (PipelineStep wire queue cfg) Always first
      { payloads := front ++ [⟨data, 1, .gone⟩]
        consuming := [(front.length, 0)]
        workers := free + 1
        batcher := calledOnce ⟨{ data := data }, some front.length⟩ }) :
    ∃ s, Reached (PipelineStep wire queue cfg) Always first s ∧ ReleasedEarly s := by
  obtain ⟨rest, t, run, returned, batch, unfinished, same⟩ := whole.returns front.length free
  have later := reached.trans (inside_run queue run)
  have gone := later.next (.consumed _ front [] data 1 .gone [] [] 0 _ rfl returned rfl) trivial
  refine ⟨_, gone, front.length, ⟨data, 0, .gone⟩, ?_, rfl, batch, unfinished, same⟩
  simp

theorem memory_released (whole : Whole wire cfg data) {waitForResult : Bool}
    (memory : queue.kind = .memory waitForResult) (positive : 0 < queue.sizeof wire data)
    (fits : queue.sizeof wire data ≤ queue.capacity) (consumers : 1 ≤ queue.numConsumers) (free : Nat) :
    ∃ s, Reached (PipelineStep wire queue cfg) Always (newPipeline (free + 1)) s ∧ ReleasedEarly s := by
  have begun : Reached (PipelineStep wire queue cfg) Always (newPipeline (free + 1)) _ := .start
  have received := begun.next (.receive _ data) trivial
  have offered := received.next (.ref _ [] [] data 1 waitForResult memory positive fits rfl) trivial
  have added := offered.next (.added _ [] [] data _ waitForResult memory rfl) trivial
  have leaves : Reached (PipelineStep wire queue cfg) Always (newPipeline (free + 1))
      { payloads := [⟨data, 2, .leave⟩], queue := [0], workers := free + 1 } := by
    cases waitForResult with
    | false => exact added
    | true => exact added.next (.result _ [] [] data _ rfl) trivial
  have left := leaves.next (.unref _ [] [] data _ rfl) trivial
  have read := left.next (.read _ [] [] _ [] _ consumers rfl rfl (.consume _ _)) trivial
  exact whole.released read

theorem persistent_released (whole : Whole wire cfg data) (persistent : queue.kind = .persistent)
    (fits : queue.sizeof wire data ≤ queue.capacity) (consumers : 1 ≤ queue.numConsumers) (free : Nat) :
    ∃ s, Reached (PipelineStep wire queue cfg) Always (newPipeline (free + 1)) s ∧ ReleasedEarly s := by
  have begun : Reached (PipelineStep wire queue cfg) Always (newPipeline (free + 1)) _ := .start
  have received := begun.next (.receive _ data) trivial
  have stored := received.next (.store _ [] [] data 1 persistent fits rfl) trivial
  have left := stored.next (.unref _ [] [] data _ rfl) trivial
  have decoded := left.next (.decode _ data [] _ consumers rfl (.consume _ _)) trivial
  exact whole.released decoded

/-- A payload is recycled while a batch has it, unless MergeSplit drops a part of every payload that the queue takes.
-/
theorem payloads_kept_iff (wire : TreeWire R S L) (queue : QueueConfig) (cfg : BatchConfig) {maxWorkers : Nat}
    (workers : 1 ≤ maxWorkers) (consumers : 1 ≤ queue.numConsumers) :
    ((∀ s, Reached (PipelineStep wire queue cfg) Always (newPipeline maxWorkers) s → ¬ ReleasedEarly s) ↔
      ∀ data, queue.Takes wire data → ¬ Whole wire cfg data) ∧
    ∀ s, Reached (PipelineStep wire queue cfg) Always (newPipeline maxWorkers) s →
      ∀ payload ∈ s.payloads, 0 ≤ payload.refs := by
  obtain ⟨free, rfl⟩ : ∃ free, maxWorkers = free + 1 := ⟨maxWorkers - 1, by omega⟩
  refine ⟨⟨?_, ?_⟩, fun s reached => (Reached.counted reached).nonneg⟩
  · intro kept data takes whole
    have early : ∃ s, Reached (PipelineStep wire queue cfg) Always (newPipeline (free + 1)) s ∧
        ReleasedEarly s := by
      unfold QueueConfig.Takes at takes
      split at takes
      · next waitForResult memory => exact memory_released whole memory takes.1 takes.2 consumers free
      · next persistent => exact persistent_released whole persistent takes consumers free
    obtain ⟨s, reached, released⟩ := early
    exact kept s reached released
  · rintro dropped s reached ⟨index, payload, _, _, batch, unfinished, same⟩
    have none := Reached.unlinked dropped reached batch (mem_unfinished unfinished)
    rw [same] at none
    cases none

def waitingQueue : QueueConfig := { kind := .memory true, sizer := .items, capacity := 10, numConsumers := 1 }

def storedQueue : QueueConfig := { kind := .persistent, sizer := .items, capacity := 10, numConsumers := 1 }

/-- A maximum of one byte, and no maximum. -/
theorem payloads_kept_iff_oneByte : oneByte.validate = none ∧
    (∀ s, Reached (PipelineStep lengths.wire waitingQueue oneByte) Always (newPipeline 1) s → ¬ ReleasedEarly s) ∧
    ¬ ∀ s, Reached (PipelineStep lengths.wire storedQueue unlimited) Always (newPipeline 1) s → ¬ ReleasedEarly s := by
  refine ⟨by decide, ?_, ?_⟩
  · refine (payloads_kept_iff lengths.wire waitingQueue oneByte (by decide) (by decide)).1.mpr ?_
    intro data takes
    exact oneByte_drops lengths (Int.natCast_pos.mp takes.1)
  · rw [(payloads_kept_iff lengths.wire storedQueue unlimited (by decide) (by decide)).1]
    intro dropped
    have fits : storedQueue.sizeof lengths.wire (numbered 0).data ≤ 10 := by decide
    exact dropped (numbered 0).data fits rfl

/-- One record is queued by a producer that does not wait, and is read. It is recycled while it is the current batch.
-/
theorem current_batch_released :
    let queue : QueueConfig := { waitingQueue with kind := .memory false }
    let cfg : BatchConfig := { unlimited with minSize := 2 }
    cfg.validate = none ∧ ∃ s : PipelineState Unit Unit Nat,
      Reached (PipelineStep unitWire queue cfg) Always (newPipeline 1) s ∧
      s.payloads = [⟨(numbered 7).data, 0, .gone⟩] ∧
      s.batcher.currentBatch.map Batch.req = some ⟨numbered 7, some 0⟩ := by
  intro queue cfg
  refine ⟨by decide, ?_⟩
  have begun : Reached (PipelineStep unitWire queue cfg) Always (newPipeline 1) (newPipeline 1) := .start
  have received := begun.next (.receive _ (numbered 7).data) trivial
  have offered := received.next (.ref _ [] [] _ _ false rfl (by decide) (by decide) rfl) trivial
  have added := offered.next (.added _ [] [] _ _ false rfl rfl) trivial
  have left := added.next (.unref _ [] [] _ _ rfl) trivial
  have read := left.next (.read _ [] [] _ [] _ (by decide) rfl rfl (.consume _ _)) trivial
  have called := read.next (.inside _ _ _ 1 rfl (.move [_] [] rfl (.consume _ 0 _))) trivial
  have returned := called.next (.inside _ _ _ 1 rfl (.move [_] [] rfl (.flushed _ _ _))) trivial
  have released := returned.next (.consumed _ [] [] _ _ _ [] [] 0 _ rfl mem_append_cons_self rfl) trivial
  exact ⟨_, released, rfl, rfl⟩

end release

end CollectorFormal.Batcher
