import CollectorFormal.Queue.PersistentContents

/-! What each operation of the persistent queue does to a storage that never
fails: one batch, or none. -/

namespace CollectorFormal.Queue

open Lib Program

variable {Ctx T : Type}

def Call.quiet : Call → Prop
  | .close | .signalSpace => True
  | .get _ | .set _ _ | .batch _ => False

def Client.durable (client : Client) : Store × Nat := (client.store, client.commits)

theorem serve_quiet_durable (call : Call) (client : Client) (quiet : call.quiet) :
    (serve call client).1.durable = client.durable := by
  cases call <;> first | rfl | exact absurd quiet id

variable {α : Type}

theorem run_quiet_durable (program : StorageM α) (client : Client)
    (quiet : program.Uses Call.quiet) : (program.run serve client).1.durable = client.durable :=
  run_kept (fun state => state.durable = client.durable)
    (fun call state quiet same => (serve_quiet_durable call state quiet).trans same) program quiet
    client rfl

theorem stopAfter_quiet_durable (program : StorageM α) (limit : Nat) (client : Client)
    (quiet : program.Uses Call.quiet) :
    (program.stopAfter serve limit client).durable = client.durable :=
  stopAfter_kept (fun state => state.durable = client.durable)
    (fun call state quiet same => (serve_quiet_durable call state quiet).trans same) program quiet
    limit client rfl

theorem stopAfter_one_write (request : Call) (next : Reply → StorageM α) (limit : Nat)
    (client : Client) (quiet : (next (serve request client).2).Uses Call.quiet) :
    ((Program.call request next).stopAfter serve limit client).durable = client.durable ∨
      ((Program.call request next).stopAfter serve limit client).durable =
        ((Program.call request next).run serve client).1.durable := by
  cases limit with
  | zero => exact .inl rfl
  | succ limit =>
    right
    rw [stopAfter_call, run_call, stopAfter_quiet_durable _ _ _ quiet, run_quiet_durable _ _ quiet]

theorem unrefClient_quiet (pq : PersistentQueue) : (unrefClient pq).Uses Call.quiet := by
  unfold unrefClient
  simp only
  split
  · exact ⟨trivial, fun _ => trivial⟩
  · trivial

theorem unrefClient_queue (pq : PersistentQueue) (client : Client) :
    ((unrefClient pq).run serve client).2.1 = { pq with refClient := pq.refClient - 1 } := by
  unfold unrefClient
  simp only
  split <;> rfl

section
variable (set : Settings Ctx T)

/-- The metadata a store holds; nothing stored counts as all zero. -/
def Holds (store : Store) (metadata : Metadata) : Prop :=
  (store .metadata = none ∧ metadata = {}) ∨ ∃ buf, set.proto.marshal metadata = .ok buf ∧ store .metadata = some buf

/-- One batch was committed: it replaced the metadata and the value of one item. -/
structure Wrote (before after : Client) (metadata : Metadata) (index : Nat) (value : Option Bytes) : Prop where
  holds : Holds set after.store metadata
  stored : after.store (getItemKey index) = value
  others : ∀ key, key ≠ .metadata → key ≠ getItemKey index → after.store key = before.store key
  commits : after.commits = before.commits + 1

variable {set} {before after : Client}

variable {metadata : Metadata}

theorem Wrote.requestAt_other {index : Nat}
    {value : Option Bytes} (wrote : Wrote set before after metadata index value) (other : Nat)
    (different : other ≠ index) :
    requestAt set.encoding after.store other = requestAt set.encoding before.store other := by
  have key : getItemKey other ≠ getItemKey index := fun same => different (Key.item.inj same)
  rw [requestAt, requestAt, wrote.others _ (by simp [getItemKey]) key]

theorem Wrote.of_durable {before after final : Client} {metadata : Metadata} {index : Nat}
    {value : Option Bytes} (wrote : Wrote set before after metadata index value)
    (same : final.durable = after.durable) : Wrote set before final metadata index value := by
  obtain ⟨store, commits⟩ := Prod.mk.inj same
  exact ⟨store ▸ wrote.holds, store ▸ wrote.stored, store ▸ wrote.others, commits ▸ wrote.commits⟩

theorem requestAt_put {index : Nat} {reqBuf : Bytes}
    {restored : Ctx} {req : T} (wrote : Wrote set before after metadata index (some reqBuf))
    (decoded : set.encoding.unmarshal (some reqBuf) = .ok (restored, req)) :
    requestAt set.encoding after.store index = some req := by
  simp [requestAt, wrote.stored, decode, decoded]

attribute [local simp] serve Client.note Client.perform batch

theorem wrote_set (client : Client) (metadata : Metadata) (metadataBuf value : Bytes) (index : Nat)
    (marshalled : set.proto.marshal metadata = .ok metadataBuf) :
    Wrote set client (serve (.batch [.set .metadata metadataBuf, .set (getItemKey index) value]) client).1
      metadata index (some value) := by
  refine ⟨.inr ⟨metadataBuf, marshalled, ?_⟩, ?_, ?_, rfl⟩
  · simp [getItemKey]
  · simp
  · intro key notMetadata notItem
    simp [notMetadata, notItem]

variable (codec : set.proto.Lossless)
include codec

section
variable (lossless : set.encoding.Lossless)
include lossless

theorem putInternal_shape (ctx : Ctx) (req : T) (pq : PersistentQueue) :
    ∃ metadataBuf reqBuf restored, set.proto.marshal pq.metadata.advanceWrite = .ok metadataBuf ∧
      set.encoding.unmarshal (some reqBuf) = .ok (restored, req) ∧
      putInternal set ctx req pq =
        .call (.batch [.set .metadata metadataBuf, .set (getItemKey pq.metadata.writeIndex) reqBuf])
          fun reply => .ret ({ pq with metadata := pq.metadata.advanceWrite }, replyError reply) := by
  obtain ⟨metadataBuf, marshalled, -, -⟩ := codec pq.metadata.advanceWrite
  obtain ⟨reqBuf, restored, encoded, decoded⟩ := lossless ctx req
  refine ⟨metadataBuf, reqBuf, restored, marshalled, decoded, ?_⟩
  simp only [putInternal, marshalled, encoded]
  rfl

theorem putInternal_run (ctx : Ctx) (req : T) (pq : PersistentQueue) (client : Client) :
    ∃ after reqBuf restored,
      (putInternal set ctx req pq).run serve client = (after, { pq with metadata := pq.metadata.advanceWrite }, none) ∧
      set.encoding.unmarshal (some reqBuf) = .ok (restored, req) ∧
      Wrote set client after pq.metadata.advanceWrite pq.metadata.writeIndex (some reqBuf) := by
  obtain ⟨metadataBuf, reqBuf, restored, marshalled, decoded, shape⟩ :=
    putInternal_shape codec lossless ctx req pq
  exact ⟨_, reqBuf, restored, by rw [shape]; rfl, decoded, wrote_set client _ metadataBuf reqBuf _ marshalled⟩

theorem offer_run [Request T] (ctx : Ctx) (req : T) (pq : PersistentQueue) (client : Client) :
    (pq.capacity < pq.metadata.internalSize set.sizerType + sizeof set.sizerType req ∧
      ∃ result, (offer set ctx req pq).run serve client = (client, pq, result)) ∨
    (pq.metadata.internalSize set.sizerType + sizeof set.sizerType req ≤ pq.capacity ∧
      ∃ after reqBuf restored, (offer set ctx req pq).run serve client =
        (after, { pq with metadata := (pq.metadata.addSizes req).advanceWrite }, .returned none) ∧
      set.encoding.unmarshal (some reqBuf) = .ok (restored, req) ∧
      Wrote set client after (pq.metadata.addSizes req).advanceWrite pq.metadata.writeIndex (some reqBuf)) := by
  by_cases full : pq.metadata.internalSize set.sizerType + sizeof set.sizerType req > pq.capacity
  · refine .inl ⟨full, ?_⟩
    cases blocking : set.blockOnOverflow <;> exact ⟨_, by simp [offer, full, blocking]; rfl⟩
  · obtain ⟨metadataBuf, reqBuf, restored, marshalled, decoded, shape⟩ :=
      putInternal_shape codec lossless ctx req { pq with metadata := pq.metadata.addSizes req }
    refine .inr ⟨not_lt.mp full, _, reqBuf, restored, ?_, decoded, wrote_set client _ metadataBuf reqBuf _ marshalled⟩
    rw [offer, if_neg full, shape]
    rfl

theorem offer_stop [Request T] (ctx : Ctx) (req : T) (pq : PersistentQueue) (client : Client) (limit : Nat) :
    ((offer set ctx req pq).stopAfter serve limit client).durable = client.durable ∨
      ((offer set ctx req pq).stopAfter serve limit client).durable =
        ((offer set ctx req pq).run serve client).1.durable := by
  by_cases full : pq.metadata.internalSize set.sizerType + sizeof set.sizerType req > pq.capacity
  · rw [offer, if_pos full]
    cases set.blockOnOverflow <;> simp
  · obtain ⟨metadataBuf, reqBuf, restored, marshalled, decoded, shape⟩ :=
      putInternal_shape codec lossless ctx req { pq with metadata := pq.metadata.addSizes req }
    rw [offer, if_neg full, shape]
    exact stopAfter_one_write _ _ limit client trivial

end

theorem finish_shape (index : Nat) (pq : PersistentQueue) :
    ∃ metadataBuf next, set.proto.marshal (pq.metadata.dropDispatched index).resetIfDrained = .ok metadataBuf ∧
      itemDispatchingFinish set index pq =
        .call (.batch [.set .metadata metadataBuf, .delete (getItemKey index)]) next ∧
      ∀ values, next (.ok values) =
        .ret ({ pq with metadata := (pq.metadata.dropDispatched index).resetIfDrained }, none) := by
  obtain ⟨metadataBuf, marshalled, -, -⟩ := codec (pq.metadata.dropDispatched index).resetIfDrained
  refine ⟨metadataBuf, _, marshalled, by simp only [itemDispatchingFinish, marshalled]; rfl, ?_⟩
  intro values
  rfl

theorem finish_run (index : Nat) (pq : PersistentQueue) (client : Client) :
    ∃ after, (itemDispatchingFinish set index pq).run serve client =
        (after, { pq with metadata := (pq.metadata.dropDispatched index).resetIfDrained }, none) ∧
      Wrote set client after (pq.metadata.dropDispatched index).resetIfDrained index none := by
  obtain ⟨metadataBuf, next, marshalled, shape, served⟩ := finish_shape codec index pq
  refine ⟨(serve (.batch [.set .metadata metadataBuf, .delete (getItemKey index)]) client).1, ?_,
    ⟨.inr ⟨metadataBuf, marshalled, ?_⟩, ?_, ?_, rfl⟩⟩
  · rw [shape, run_call]
    change (next (.ok _)).run serve _ = _
    rw [served, run_ret]
  · simp [getItemKey]
  · simp
  · intro key notMetadata notItem
    simp [notMetadata, notItem]

omit codec in
theorem onDone_eq (id : IndexDone) (consumeErr : ConsumeErr) (pq : PersistentQueue)
    (ordinary : consumeErr.isShutdownErr = false) :
    onDone set id consumeErr pq =
      (itemDispatchingFinish set id.index { pq with metadata := pq.metadata.subtractSizes id } >>=
        fun r => .call .signalSpace fun _ => unrefClient r.1 >>= fun r => .ret r.1) := by
  rw [onDone, ordinary, if_neg (by decide), bind_assoc]
  rfl

theorem onDone_run (id : IndexDone) (consumeErr : ConsumeErr) (pq : PersistentQueue)
    (client : Client) (ordinary : consumeErr.isShutdownErr = false) :
    Wrote set client ((onDone set id consumeErr pq).run serve client).1
      ((pq.metadata.subtractSizes id).dropDispatched id.index).resetIfDrained id.index none ∧
    ((onDone set id consumeErr pq).run serve client).2 =
      { pq with
        metadata := ((pq.metadata.subtractSizes id).dropDispatched id.index).resetIfDrained
        refClient := pq.refClient - 1 } := by
  obtain ⟨after, ran, wrote⟩ :=
    finish_run codec id.index { pq with metadata := pq.metadata.subtractSizes id } client
  rw [onDone_eq id consumeErr pq ordinary, run_bind, ran, run_call, run_bind, run_ret]
  constructor
  · apply wrote.of_durable
    rw [run_quiet_durable _ _ (unrefClient_quiet _), serve_quiet_durable .signalSpace _ trivial]
  · exact unrefClient_queue _ _

theorem onDone_stop (id : IndexDone) (consumeErr : ConsumeErr) (pq : PersistentQueue)
    (client : Client) (limit : Nat) (ordinary : consumeErr.isShutdownErr = false) :
    ((onDone set id consumeErr pq).stopAfter serve limit client).durable = client.durable ∨
      ((onDone set id consumeErr pq).stopAfter serve limit client).durable =
        ((onDone set id consumeErr pq).run serve client).1.durable := by
  obtain ⟨metadataBuf, next, -, shape, served⟩ :=
    finish_shape codec id.index { pq with metadata := pq.metadata.subtractSizes id }
  rw [onDone_eq id consumeErr pq ordinary, shape, call_bind]
  apply stopAfter_one_write
  change ((next (.ok _)) >>= _).Uses Call.quiet
  rw [served, ret_bind]
  exact ⟨trivial, fun _ => uses_bind (unrefClient_quiet _) fun _ => trivial⟩

omit codec in
theorem onDone_shutdown (id : IndexDone) (consumeErr : ConsumeErr) (pq : PersistentQueue)
    (client : Client) (limit : Nat) (shutdown : consumeErr.isShutdownErr = true) :
    ((onDone set id consumeErr pq).run serve client).1.durable = client.durable ∧
    ((onDone set id consumeErr pq).stopAfter serve limit client).durable = client.durable ∧
    ((onDone set id consumeErr pq).run serve client).2 = { pq with refClient := pq.refClient - 1 } := by
  have shape : onDone set id consumeErr pq = (unrefClient pq >>= fun r => .ret r.1) := by
    rw [onDone, shutdown, if_pos rfl]
    rfl
  have quiet : (onDone set id consumeErr pq).Uses Call.quiet := by
    rw [shape]
    exact uses_bind (unrefClient_quiet _) fun _ => trivial
  refine ⟨run_quiet_durable _ _ quiet, stopAfter_quiet_durable _ _ _ quiet, ?_⟩
  rw [shape, run_bind, run_ret]
  exact unrefClient_queue _ _

omit codec in
theorem requestSize_takeNext (metadata : Metadata) : metadata.takeNext.requestSize = metadata.requestSize := by
  simp only [Metadata.requestSize, Metadata.takeNext, List.length_append, List.length_singleton]
  omega

omit codec in
theorem resetIfDrained_takeNext (metadata : Metadata) (more : metadata.readIndex < metadata.writeIndex) :
    metadata.takeNext.resetIfDrained = metadata.takeNext := by
  rw [Metadata.resetIfDrained, if_neg]
  rw [requestSize_takeNext, Metadata.requestSize]
  omega

theorem getNextItem_shape (pq : PersistentQueue) :
    ∃ metadataBuf next, set.proto.marshal pq.metadata.takeNext = .ok metadataBuf ∧
      getNextItem set pq = .call (.batch [.set .metadata metadataBuf, .get (getItemKey pq.metadata.readIndex)]) next ∧
      ∀ buf ctx req, set.encoding.unmarshal (some buf) = .ok (ctx, req) →
        next (.ok [some buf]) =
          .ret ({ pq with metadata := pq.metadata.takeNext, refClient := pq.refClient + 1 },
            some (pq.metadata.readIndex, ctx, req)) := by
  obtain ⟨metadataBuf, marshalled, -, -⟩ := codec pq.metadata.takeNext
  refine ⟨metadataBuf, _, marshalled, by simp only [getNextItem, marshalled]; rfl, ?_⟩
  intro buf ctx req decoded
  simp [Except.bind, Except.mapError, decoded]

theorem read_shape [Request T] (pq : PersistentQueue) (active : pq.stopped = false)
    (more : pq.metadata.readIndex < pq.metadata.writeIndex) :
    ∃ metadataBuf next, set.proto.marshal pq.metadata.takeNext = .ok metadataBuf ∧
      read set pq = .call (.batch [.set .metadata metadataBuf, .get (getItemKey pq.metadata.readIndex)]) next ∧
      ∀ buf ctx req, set.encoding.unmarshal (some buf) = .ok (ctx, req) →
        next (.ok [some buf]) =
          .ret ({ pq with metadata := pq.metadata.takeNext, refClient := pq.refClient + 1 },
            .item ctx req ⟨pq.metadata.readIndex, sizeof .items req, sizeof .bytes req⟩) := by
  obtain ⟨metadataBuf, next, marshalled, shape, served⟩ := getNextItem_shape codec pq
  obtain ⟨fuel, size⟩ : ∃ fuel, pq.metadata.writeIndex - pq.metadata.readIndex = fuel + 1 :=
    ⟨pq.metadata.writeIndex - pq.metadata.readIndex - 1, by omega⟩
  refine ⟨metadataBuf, _, marshalled, by
    rw [read, active, if_neg (by decide), size, readItems, if_neg (by omega), shape, call_bind], ?_⟩
  intro buf ctx req decoded
  simp only [served buf ctx req decoded, ret_bind, resetIfDrained_takeNext _ more]

theorem read_run [Request T] (pq : PersistentQueue) (client : Client) (req : T)
    (active : pq.stopped = false) (more : pq.metadata.readIndex < pq.metadata.writeIndex)
    (present : requestAt set.encoding client.store pq.metadata.readIndex = some req) :
    ∃ after ctx, (read set pq).run serve client =
        (after, { pq with metadata := pq.metadata.takeNext, refClient := pq.refClient + 1 },
          .item ctx req ⟨pq.metadata.readIndex, sizeof .items req, sizeof .bytes req⟩) ∧
      Wrote set client after pq.metadata.takeNext pq.metadata.readIndex
        (client.store (getItemKey pq.metadata.readIndex)) ∧
      ∀ limit, ((read set pq).stopAfter serve limit client).durable = client.durable ∨
        ((read set pq).stopAfter serve limit client).durable = after.durable := by
  obtain ⟨buf, ctx, stored, decoded⟩ := requestAt_some _ _ _ _ present
  obtain ⟨metadataBuf, next, marshalled, shape, served⟩ := read_shape codec pq active more
  have reply : (serve (.batch [.set .metadata metadataBuf, .get (getItemKey pq.metadata.readIndex)])
      client).2 = .ok [some buf] := by
    have item : getItemKey pq.metadata.readIndex ≠ .metadata := by simp [getItemKey]
    simp [Function.update_of_ne item, stored]
  have ran : (read set pq).run serve client =
      ((serve (.batch [.set .metadata metadataBuf, .get (getItemKey pq.metadata.readIndex)]) client).1,
        { pq with metadata := pq.metadata.takeNext, refClient := pq.refClient + 1 },
        .item ctx req ⟨pq.metadata.readIndex, sizeof .items req, sizeof .bytes req⟩) := by
    rw [shape, run_call, reply, served buf ctx req decoded, run_ret]
  refine ⟨_, ctx, ran, ⟨.inr ⟨metadataBuf, marshalled, ?_⟩, ?_, ?_, rfl⟩, ?_⟩
  · simp
  · simp [getItemKey]
  · intro key notMetadata notItem
    simp [notMetadata]
  · intro limit
    have stops := stopAfter_one_write _ next limit client (by rw [reply, served buf ctx req decoded]; trivial)
    rw [← shape, ran] at stops
    exact stops

omit codec in
theorem read_empty [Request T] (pq : PersistentQueue) (active : pq.stopped = false)
    (empty : pq.metadata.readIndex = pq.metadata.writeIndex) :
    read set pq = .ret (pq, .wait) := by
  rw [read, active, if_neg (by decide), empty, Nat.sub_self]
  rfl

end

end CollectorFormal.Queue
