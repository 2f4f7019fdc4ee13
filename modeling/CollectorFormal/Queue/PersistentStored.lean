import CollectorFormal.Queue.PersistentReliable

/-! A store that serves the metadata it holds, and the recovery of such a store
by initClient. -/

namespace CollectorFormal.Queue

open Lib List Program

variable {Ctx T : Type}

/-- The store has a payload for every index the metadata lists as waiting, and
nothing under the legacy keys. -/
structure Backed (set : Settings Ctx T) (store : Store) (metadata : Metadata) : Prop where
  formed : metadata.WellFormed
  waiting : ∀ index ∈ metadata.waiting, ∃ req, requestAt set.encoding store index = some req
  readIndexKey : store .legacyReadIndex = none
  writeIndexKey : store .legacyWriteIndex = none
  dispatchedKey : store .legacyCurrentlyDispatchedItems = none

structure Stored (set : Settings Ctx T) (store : Store) (metadata : Metadata) : Prop
    extends Backed set store metadata where
  holds : Holds set store metadata

theorem backed_fresh (set : Settings Ctx T) : Backed set (fun _ => none) {} :=
  ⟨wellFormed_empty, by simp [Metadata.waiting], rfl, rfl, rfl⟩

theorem Backed.congr {set : Settings Ctx T} {store : Store} {left right : Metadata}
    (backed : Backed set store left) (read : right.readIndex = left.readIndex)
    (written : right.writeIndex = left.writeIndex)
    (dispatched : right.currentlyDispatchedItems = left.currentlyDispatchedItems) :
    Backed set store right := by
  refine { backed with formed := backed.formed.congr read written dispatched, waiting := ?_ }
  intro index member
  apply backed.waiting index
  rwa [mem_waiting, read, written, ← mem_waiting] at member

theorem Backed.forgetDispatched {set : Settings Ctx T} {store : Store} {metadata : Metadata}
    (backed : Backed set store metadata) :
    Backed set store { metadata with currentlyDispatchedItems := [] } :=
  { backed with
    formed := ⟨backed.formed.ordered, nodup_nil, fun _ member => absurd member not_mem_nil⟩ }

section steps
variable {set : Settings Ctx T} {client after : Client} {before metadata : Metadata}

theorem Wrote.legacy {index : Nat} {value : Option Bytes}
    (wrote : Wrote set client after metadata index value) (stored : Backed set client.store before) :
    after.store .legacyReadIndex = none ∧ after.store .legacyWriteIndex = none ∧
      after.store .legacyCurrentlyDispatchedItems = none := by
  refine ⟨?_, ?_, ?_⟩
  · rw [wrote.others _ (by simp) (by simp [getItemKey]), stored.readIndexKey]
  · rw [wrote.others _ (by simp) (by simp [getItemKey]), stored.writeIndexKey]
  · rw [wrote.others _ (by simp) (by simp [getItemKey]), stored.dispatchedKey]

theorem Wrote.append {reqBuf : Bytes} {restored : Ctx} {req : T}
    (wrote : Wrote set client after metadata before.writeIndex (some reqBuf))
    (decoded : set.encoding.unmarshal (some reqBuf) = .ok (restored, req))
    (stored : Backed set client.store before)
    (read : metadata.readIndex = before.readIndex)
    (written : metadata.writeIndex = before.writeIndex + 1)
    (dispatched : metadata.currentlyDispatchedItems = before.currentlyDispatchedItems) :
    Stored set after.store metadata ∧
      live set.encoding after.store metadata = req ::ₘ live set.encoding client.store before := by
  have added := requestAt_put wrote decoded
  obtain ⟨readKey, writeKey, dispatchedKey⟩ := wrote.legacy stored
  have ordered := stored.formed.ordered
  refine ⟨⟨⟨⟨by omega, dispatched ▸ stored.formed.unique, ?_⟩, ?_, readKey, writeKey,
    dispatchedKey⟩, wrote.holds⟩, live_append set.encoding client.store after.store before metadata req
      stored.formed read written dispatched added (fun other different =>
        wrote.requestAt_other other different)⟩
  · intro index member
    rw [read]
    exact stored.formed.below index (dispatched ▸ member)
  · intro index member
    by_cases last : index = before.writeIndex
    · exact ⟨req, last ▸ added⟩
    · rw [wrote.requestAt_other index last]
      apply stored.waiting
      rw [mem_waiting] at member ⊢
      omega

theorem Wrote.take {value : Option Bytes}
    (wrote : Wrote set client after before.takeNext before.readIndex value)
    (same : value = client.store (getItemKey before.readIndex))
    (stored : Backed set client.store before) (more : before.readIndex < before.writeIndex) :
    Stored set after.store before.takeNext ∧
      live set.encoding after.store before.takeNext = live set.encoding client.store before ∧
      ∀ index, requestAt set.encoding after.store index = requestAt set.encoding client.store index := by
  obtain ⟨readKey, writeKey, dispatchedKey⟩ := wrote.legacy stored
  have kept (index : Nat) :
      requestAt set.encoding after.store index = requestAt set.encoding client.store index := by
    by_cases taken : index = before.readIndex
    · rw [requestAt, requestAt, taken, wrote.stored, same]
    · exact wrote.requestAt_other index taken
  refine ⟨⟨⟨stored.formed.takeNext more, ?_, readKey, writeKey, dispatchedKey⟩, wrote.holds⟩, ?_, kept⟩
  · intro index member
    rw [kept]
    apply stored.waiting
    rw [mem_waiting] at member ⊢
    simp only [Metadata.takeNext] at member
    omega
  · rw [← live_takeNext set.encoding client.store before more]
    exact contents_congr set.encoding fun index _ => kept index

theorem Backed.drop {index : Nat} {value : Option Bytes}
    (backed : Backed set client.store before) (dispatched : index ∈ before.currentlyDispatchedItems)
    (wrote : Wrote set client after metadata index value) :
    Backed set after.store (before.dropDispatched index) := by
  obtain ⟨readKey, writeKey, dispatchedKey⟩ := wrote.legacy backed
  have below := backed.formed.below index dispatched
  refine ⟨backed.formed.dropDispatched index, ?_, readKey, writeKey, dispatchedKey⟩
  intro other member
  have inside : before.readIndex ≤ other ∧ other < before.writeIndex := (mem_waiting _ _).mp member
  rw [wrote.requestAt_other other (by omega)]
  exact backed.waiting other ((mem_waiting _ _).mpr inside)

end steps

section recovery
variable {set : Settings Ctx T}

def Metadata.advanceBy (count : Nat) (metadata : Metadata) : Metadata :=
  { metadata with writeIndex := metadata.writeIndex + count }

variable (indices : List Nat) (store : Store)

theorem batch_gets :
    batch (indices.map fun it => .get (getItemKey it)) store =
      (store, indices.map fun it => store (getItemKey it)) := by
  induction indices with
  | nil => rfl
  | cons index rest ih => simp [batch, ih]

theorem batch_deletes :
    (∀ index ∈ indices,
      (batch (indices.map fun it => .delete (getItemKey it)) store).1 (getItemKey index) = none) ∧
    ∀ key, (∀ index ∈ indices, key ≠ getItemKey index) →
      (batch (indices.map fun it => .delete (getItemKey it)) store).1 key = store key := by
  induction indices generalizing store with
  | nil => exact ⟨fun _ member => absurd member not_mem_nil, fun _ _ => rfl⟩
  | cons head rest ih =>
    obtain ⟨gone, kept⟩ := ih (Function.update store (getItemKey head) none)
    simp only [map_cons, batch]
    constructor
    · intro index member
      by_cases later : index ∈ rest
      · exact gone index later
      · have first : index = head := (mem_cons.mp member).resolve_right later
        rw [kept]
        · rw [first, Function.update_self]
        · intro other inRest same
          exact later (Key.item.inj same ▸ inRest)
    · intro key outside
      rw [kept key fun index member => outside index (mem_cons_of_mem _ member),
        Function.update_of_ne (outside head mem_cons_self)]

variable (value : Option Bytes) (rest : List (Option Bytes))

variable (pq : PersistentQueue)

theorem enqueueItems_skip
    (undecodable : decode set.encoding value = none) :
    enqueueItems set (value :: rest) pq = enqueueItems set rest pq := by
  cases value with
  | none => rfl
  | some buf =>
    cases unmarshalled : set.encoding.unmarshal (some buf) with
    | error text => simp [enqueueItems, unmarshalled]
    | ok pair => simp [decode, unmarshalled] at undecodable

theorem enqueueItems_put
    (req : T) (decoded : decode set.encoding value = some req) :
    ∃ ctx, enqueueItems set (value :: rest) pq =
      (putInternal set ctx req pq >>= fun r => enqueueItems set rest r.1) := by
  obtain ⟨buf, ctx, rfl, unmarshalled⟩ : ∃ buf ctx, value = some buf ∧
      set.encoding.unmarshal (some buf) = .ok (ctx, req) :=
    requestAt_some set.encoding (fun _ => value) 0 req decoded
  exact ⟨ctx, by simp only [enqueueItems, unmarshalled]⟩

/-- Each decodable value is appended; the indices below are not touched. -/
theorem enqueueItems_run (codec : set.proto.Lossless) (lossless : set.encoding.Lossless)
    (values : List (Option Bytes)) (pq : PersistentQueue) (client : Client)
    (stored : Stored set client.store pq.metadata) :
    ∃ after, (enqueueItems set values pq).run serve client =
        (after, { pq with metadata :=
          pq.metadata.advanceBy (values.filterMap (decode set.encoding)).length }) ∧
      Stored set after.store
        (pq.metadata.advanceBy (values.filterMap (decode set.encoding)).length) ∧
      live set.encoding after.store
          (pq.metadata.advanceBy (values.filterMap (decode set.encoding)).length) =
        ↑(values.filterMap (decode set.encoding)) + live set.encoding client.store pq.metadata ∧
      ∀ index, index < pq.metadata.writeIndex →
        after.store (getItemKey index) = client.store (getItemKey index) := by
  induction values generalizing pq client with
  | nil => exact ⟨client, rfl, stored, by simp [Metadata.advanceBy], fun _ _ => rfl⟩
  | cons value rest ih =>
    cases decoded : decode set.encoding value with
    | none =>
      simpa [enqueueItems_skip value rest pq decoded, filterMap_cons, decoded] using
        ih pq client stored
    | some req =>
      obtain ⟨ctx, shape⟩ := enqueueItems_put value rest pq req decoded
      obtain ⟨middle, reqBuf, restored, put, readBack, wrote⟩ :=
        putInternal_run codec lossless ctx req pq client
      obtain ⟨storedNext, liveNext⟩ := wrote.append readBack stored.toBacked rfl rfl rfl
      obtain ⟨after, ran, storedLast, liveLast, kept⟩ :=
        ih { pq with metadata := pq.metadata.advanceWrite } middle storedNext
      have count : pq.metadata.advanceWrite.advanceBy (rest.filterMap (decode set.encoding)).length =
          pq.metadata.advanceBy ((value :: rest).filterMap (decode set.encoding)).length := by
        simp [Metadata.advanceBy, Metadata.advanceWrite, decoded]
        omega
      rw [count] at ran storedLast liveLast
      refine ⟨after, ?_, storedLast, ?_, ?_⟩
      · rw [shape, run_bind, put]
        exact ran
      · rw [liveLast, liveNext, filterMap_cons, decoded]
        simp [← Multiset.cons_coe]
      · intro index below
        rw [kept index (Nat.lt_succ_of_lt below)]
        apply wrote.others
        · simp [getItemKey]
        · intro same
          have := Key.item.inj same
          omega

theorem requestAt_batch_deletes (index : Nat)
    (outside : index ∉ indices) :
    requestAt set.encoding (batch (indices.map fun it => .delete (getItemKey it)) store).1 index =
      requestAt set.encoding store index := by
  rw [requestAt, requestAt, (batch_deletes indices store).2]
  intro other member same
  exact outside (Key.item.inj same ▸ member)

theorem stored_deleted {store : Store} {metadata : Metadata} (stored : Stored set store metadata) :
    Stored set (batch (metadata.currentlyDispatchedItems.map fun it => .delete (getItemKey it)) store).1
      metadata ∧
    live set.encoding
        (batch (metadata.currentlyDispatchedItems.map fun it => .delete (getItemKey it)) store).1 metadata +
      contents set.encoding store metadata.currentlyDispatchedItems =
        live set.encoding store metadata := by
  obtain ⟨gone, kept⟩ := batch_deletes metadata.currentlyDispatchedItems store
  have outside : ∀ index ∈ metadata.waiting, index ∉ metadata.currentlyDispatchedItems := by
    intro index member dispatched
    have := stored.formed.below index dispatched
    rw [mem_waiting] at member
    omega
  constructor
  · refine ⟨⟨stored.formed, ?_, ?_, ?_, ?_⟩, ?_⟩
    · intro index member
      rw [requestAt_batch_deletes _ _ _ (outside index member)]
      exact stored.waiting index member
    · rw [kept _ (by simp [getItemKey]), stored.readIndexKey]
    · rw [kept _ (by simp [getItemKey]), stored.writeIndexKey]
    · rw [kept _ (by simp [getItemKey]), stored.dispatchedKey]
    · unfold Holds
      rw [kept .metadata (by simp [getItemKey])]
      exact stored.holds
  · have waiting : contents set.encoding
        (batch (metadata.currentlyDispatchedItems.map fun it => .delete (getItemKey it)) store).1
        metadata.waiting = contents set.encoding store metadata.waiting :=
      contents_congr set.encoding fun index member =>
        requestAt_batch_deletes _ _ _ (outside index member)
    have dispatched := contents_missing set.encoding
      (batch (metadata.currentlyDispatchedItems.map fun it => .delete (getItemKey it)) store).1
      metadata.currentlyDispatchedItems fun index member =>
        requestAt_missing set.encoding _ index (gone index member)
    rw [live, live, Metadata.tracked, contents_append, contents_append, waiting, dispatched,
      Multiset.add_zero]

section
variable (codec : set.proto.Lossless)
include codec

theorem enqueueNotDispatchedReqs_run (lossless : set.encoding.Lossless)
    (pq : PersistentQueue) (client : Client) (stored : Stored set client.store pq.metadata) :
    ∃ after count,
      (enqueueNotDispatchedReqs set pq.metadata.currentlyDispatchedItems pq).run serve client =
        (after, { pq with metadata := pq.metadata.advanceBy count }) ∧
      Stored set after.store (pq.metadata.advanceBy count) ∧
      live set.encoding after.store (pq.metadata.advanceBy count) =
        live set.encoding client.store pq.metadata ∧
      ∀ index ∈ pq.metadata.currentlyDispatchedItems, after.store (getItemKey index) = none := by
  by_cases nothing : pq.metadata.currentlyDispatchedItems = []
  · refine ⟨client, 0, ?_, stored, rfl, ?_⟩
    · rw [enqueueNotDispatchedReqs, if_pos nothing]
      rfl
    · simp [nothing]
  · obtain ⟨storedDeleted, liveDeleted⟩ := stored_deleted stored
    let values := pq.metadata.currentlyDispatchedItems.map fun it => client.store (getItemKey it)
    let retrieved := (serve (.batch (pq.metadata.currentlyDispatchedItems.map
      fun it => .get (getItemKey it))) client).1
    have kept : retrieved.store = client.store := by
      simp [retrieved, serve, Client.note, Client.perform, batch_gets]
    let cleaned := (serve (.batch (pq.metadata.currentlyDispatchedItems.map
      fun it => .delete (getItemKey it))) retrieved).1
    have deleted : cleaned.store = (batch (pq.metadata.currentlyDispatchedItems.map
        fun it => .delete (getItemKey it)) client.store).1 := by
      rw [← kept]
      rfl
    rw [← deleted] at storedDeleted liveDeleted
    obtain ⟨after, ran, storedLast, liveLast, below⟩ :=
      enqueueItems_run codec lossless values pq cleaned storedDeleted
    have found : (↑(values.filterMap (decode set.encoding)) : Multiset T) =
        contents set.encoding client.store pq.metadata.currentlyDispatchedItems := by
      simp only [values, contents, filterMap_map]
      rfl
    refine ⟨after, _, ?_, storedLast, ?_, ?_⟩
    · have reply : (serve (.batch (pq.metadata.currentlyDispatchedItems.map
          fun it => .get (getItemKey it))) client).2 = .ok values := by
        simp [serve, Client.note, Client.perform, batch_gets, values]
      rw [enqueueNotDispatchedReqs, if_neg nothing, run_call, run_call, reply]
      exact ran
    · rw [liveLast, found, Multiset.add_comm, liveDeleted]
    · intro index member
      have inside : index < pq.metadata.writeIndex :=
        lt_of_lt_of_le (stored.formed.below index member) stored.formed.ordered
      rw [below index inside, deleted]
      exact (batch_deletes _ _).1 index member

theorem initClient_empty (capacity : Int) (client : Client)
    (stored : Stored set client.store {})
    (unset : client.store .metadata = none ∨ client.store .metadata = some []) :
    ∃ after, (initClient set { capacity := capacity }).run serve client =
        (after, { capacity := capacity, refClient := 1 }) ∧
      Stored set after.store {} ∧
      ∀ index, after.store (getItemKey index) = client.store (getItemKey index) := by
  obtain ⟨buf, marshalled, -, -⟩ := codec {}
  have loaded : (loadQueueMetadata set { capacity := capacity, refClient := 1 }).run serve client =
      (client.note (.get .metadata), { capacity := capacity, refClient := 1 }, some .valueNotSet) := by
    rw [loadQueueMetadata, run_call]
    rcases unset with unset | unset <;> simp [serve, Client.note, Client.perform, unset]
  have readKey := stored.readIndexKey
  have writeKey := stored.writeIndexKey
  have dispatchedKey := stored.dispatchedKey
  have ran : ((initClient set { capacity := capacity }).run serve client).2 =
        { capacity := capacity, refClient := 1 } ∧
      ((initClient set { capacity := capacity }).run serve client).1.store =
        Function.update (Function.update (Function.update
          (Function.update client.store .metadata (some buf)) .legacyReadIndex none)
          .legacyWriteIndex none) .legacyCurrentlyDispatchedItems none := by
    rw [initClient, run_bind, loaded]
    simp [loadLegacyMetadata, consolidate, retrieveAndEnqueueNotDispatchedReqs, serve, Client.note,
      Client.perform, batch, readKey, writeKey, dispatchedKey, legacyIndices, bytesToItemIndex,
      bytesToItemIndexArray, enqueueNotDispatchedReqs, marshalled]
  refine ⟨_, Prod.ext rfl ran.1, ?_, ?_⟩
  · rw [ran.2]
    refine ⟨⟨wellFormed_empty, by simp [Metadata.waiting], ?_, ?_, ?_⟩, .inr ⟨buf, marshalled, ?_⟩⟩ <;>
      simp
  · intro index
    rw [ran.2]
    simp [getItemKey]

theorem initClient_loaded (capacity : Int) (client : Client)
    (metadata : Metadata) (buf : Bytes) (marshalled : set.proto.marshal metadata = .ok buf)
    (held : client.store .metadata = some buf) (nonempty : buf ≠ []) :
    (loadQueueMetadata set { capacity := capacity, refClient := 1 }).run serve client =
      (client.note (.get .metadata), { capacity := capacity, metadata := metadata, refClient := 1 },
        none) := by
  obtain ⟨same, marshalled', unmarshalled, -⟩ := codec metadata
  obtain rfl : same = buf := Except.ok.inj (marshalled'.symm.trans marshalled)
  cases same with
  | nil => exact absurd rfl nonempty
  | cons byte rest =>
    rw [loadQueueMetadata, run_call]
    simp [serve, Client.note, Client.perform, held, unmarshalled]

theorem Holds.unset_or_held {store : Store} {metadata : Metadata}
    (holds : Holds set store metadata) :
    (store .metadata = none ∨ store .metadata = some []) ∧ metadata = {} ∨
      ∃ buf, buf ≠ [] ∧ set.proto.marshal metadata = .ok buf ∧ store .metadata = some buf := by
  rcases holds with ⟨unset, zero⟩ | ⟨buf, marshalled, held⟩
  · exact .inl ⟨.inl unset, zero⟩
  · by_cases nothing : buf = []
    · obtain ⟨same, marshalled', -, nilIff⟩ := codec metadata
      obtain rfl : same = buf := Except.ok.inj (marshalled'.symm.trans marshalled)
      exact .inl ⟨.inr (held.trans (congrArg some nothing)), nilIff.mp nothing⟩
    · exact .inr ⟨buf, nothing, marshalled, held⟩

/-- Recovery keeps the live requests; the list of dispatched items is cleared in memory, and in the store points at
nothing. -/
theorem initClient_run (lossless : set.encoding.Lossless)
    (capacity : Int) (client : Client) (metadata : Metadata) (stored : Stored set client.store metadata) :
    ∃ after recovered,
      (initClient set { capacity := capacity }).run serve client =
        (after, {
          capacity := capacity
          metadata := { recovered with currentlyDispatchedItems := [] }
          refClient := 1 }) ∧
      Stored set after.store recovered ∧
      live set.encoding after.store recovered = live set.encoding client.store metadata ∧
      (∀ index ∈ recovered.currentlyDispatchedItems, after.store (getItemKey index) = none) ∧
      recovered.itemsSize = metadata.itemsSize ∧ recovered.bytesSize = metadata.bytesSize := by
  rcases Holds.unset_or_held codec stored.holds with ⟨unset, rfl⟩ | ⟨buf, nonempty, marshalled, held⟩
  · obtain ⟨after, ran, storedAfter, kept⟩ := initClient_empty codec capacity client stored unset
    exact ⟨after, {}, ran, storedAfter, contents_congr set.encoding fun index _ => by
      rw [requestAt, requestAt, kept], by simp, rfl, rfl⟩
  · have loaded := initClient_loaded codec capacity client metadata buf marshalled held nonempty
    have storedLoaded : Stored set (client.note (.get .metadata)).store metadata := stored
    obtain ⟨after, count, ran, storedAfter, liveAfter, gone⟩ :=
      enqueueNotDispatchedReqs_run codec lossless
        { capacity := capacity, metadata := metadata, refClient := 1 } (client.note (.get .metadata)) storedLoaded
    refine ⟨after, metadata.advanceBy count, ?_, storedAfter, liveAfter, gone, rfl, rfl⟩
    rw [initClient, run_bind, loaded]
    simp only
    rw [run_bind, ran]
    rfl

end

end recovery

end CollectorFormal.Queue
