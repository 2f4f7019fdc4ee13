import CollectorFormal.Queue.Storage
import CollectorFormal.Request
import CollectorFormal.Lib.RemoveIf
import CollectorFormal.Lib.Wire

/-! The persistent queue: its metadata, and its operations as programs over the storage client.

Each operation is the section it executes under the queue's mutex. A section that would block returns `wait` and is
entered again from the top of its loop; a reader may be entered again at any time, so the signals of hasMoreElements
are left out, and so are log records. Indices are natural numbers (uint64 in the source) and sizes are integers
(int64): they agree below 2^63 requests, items and bytes. -/

namespace CollectorFormal.Queue

open Lib

structure Metadata where
  itemsSize : Int := 0
  bytesSize : Int := 0
  readIndex : Nat := 0
  writeIndex : Nat := 0
  currentlyDispatchedItems : List Nat := []
  deriving DecidableEq

structure Encoding (Ctx T : Type) where
  marshal : Ctx → T → Except String Bytes
  unmarshal : Option Bytes → Except String (Ctx × T)

structure MetadataCodec where
  marshal : Metadata → Except String Bytes
  unmarshal : Bytes → Except String Metadata

structure Settings (Ctx T : Type) where
  sizerType : SizerType
  blockOnOverflow : Bool
  encoding : Encoding Ctx T
  proto : MetadataCodec

/-- Decoding undoes encoding; the context may be reduced to what is persisted. -/
def Encoding.Lossless {Ctx T : Type} (encoding : Encoding Ctx T) : Prop :=
  ∀ ctx req, ∃ buf restored, encoding.marshal ctx req = .ok buf ∧ encoding.unmarshal (some buf) = .ok (restored, req)

/-- Protobuf round trip; only the message with all fields zero has no bytes. -/
def MetadataCodec.Lossless (proto : MetadataCodec) : Prop :=
  ∀ metadata, ∃ buf, proto.marshal metadata = .ok buf ∧ proto.unmarshal buf = .ok metadata ∧ (buf = [] ↔ metadata = {})

structure PersistentQueue where
  capacity : Int
  metadata : Metadata := {}
  refClient : Int := 0
  stopped : Bool := false
  deriving DecidableEq

structure IndexDone where
  index : Nat
  itemsSize : Int
  bytesSize : Int
  deriving DecidableEq

/-- The error handed to OnDone, as far as `experr.IsShutdownErr` tells it apart. -/
inductive ConsumeErr where
  | none
  | ordinary
  | shutdown
  deriving DecidableEq

def ConsumeErr.isShutdownErr : ConsumeErr → Bool
  | .shutdown => true
  | _ => false

inductive OfferResult where
  | wait
  | returned (err : Option QueueError)
  deriving DecidableEq

inductive ReadResult (Ctx T : Type) where
  | stopped
  | wait
  | item (ctx : Ctx) (req : T) (done : IndexDone)

namespace Metadata

variable (metadata : Metadata)

def requestSize : Int :=
  ((metadata.writeIndex : Int) - metadata.readIndex) + metadata.currentlyDispatchedItems.length

def internalSize (sizerType : SizerType) (metadata : Metadata) : Int :=
  match sizerType with
  | .bytes => metadata.bytesSize
  | .items => metadata.itemsSize
  | .requests => metadata.requestSize

/-- Ensure the used sizes are in sync when the queue is drained. -/
def resetIfDrained : Metadata :=
  if metadata.requestSize = 0 then { metadata with bytesSize := 0, itemsSize := 0 } else metadata

def clamp (size : Int) : Int := if size < 0 then 0 else size

def addSizes {T : Type} [Request T] (req : T) (metadata : Metadata) : Metadata :=
  { metadata with
    itemsSize := metadata.itemsSize + sizeof .items req
    bytesSize := metadata.bytesSize + sizeof .bytes req }

def subtractSizes (id : IndexDone) (metadata : Metadata) : Metadata :=
  { metadata with
    bytesSize := clamp (metadata.bytesSize - id.bytesSize)
    itemsSize := clamp (metadata.itemsSize - id.itemsSize) }

def advanceWrite : Metadata :=
  { metadata with writeIndex := metadata.writeIndex + 1 }

def takeNext : Metadata :=
  { metadata with
    readIndex := metadata.readIndex + 1
    currentlyDispatchedItems := metadata.currentlyDispatchedItems ++ [metadata.readIndex] }

def dropDispatched (index : Nat) (metadata : Metadata) : Metadata :=
  { metadata with
    currentlyDispatchedItems := swapRemove index metadata.currentlyDispatchedItems }

end Metadata

variable {Ctx T : Type}

def unrefClient (pq : PersistentQueue) : StorageM (PersistentQueue × Option QueueError) :=
  let pq := { pq with refClient := pq.refClient - 1 }
  if pq.refClient = 0 then
    .call .close fun reply => .ret (pq, replyError reply)
  else .ret (pq, none)

def shutdown (pq : PersistentQueue) : StorageM (PersistentQueue × Option QueueError) :=
  unrefClient { pq with stopped := true }

section operations
variable (set : Settings Ctx T)

/-- Adds the request to the storage without updating items/bytes sizes. -/
def putInternal (ctx : Ctx) (req : T) (pq : PersistentQueue) : StorageM (PersistentQueue × Option QueueError) :=
  let pq := { pq with metadata := pq.metadata.advanceWrite }
  match set.proto.marshal pq.metadata with
  | .error text => .ret (pq, some (.proto text))
  | .ok metadataBuf =>
    match set.encoding.marshal ctx req with
    | .error text => .ret (pq, some (.encoding text))
    | .ok reqBuf =>
      -- one transaction both adds the item and updates the write index
      .call (.batch [.set .metadata metadataBuf, .set (getItemKey (pq.metadata.writeIndex - 1)) reqBuf]) fun reply =>
        .ret (pq, replyError reply)

def offer [Request T] (ctx : Ctx) (req : T) (pq : PersistentQueue) : StorageM (PersistentQueue × OfferResult) :=
  if pq.metadata.internalSize set.sizerType + sizeof set.sizerType req > pq.capacity then
    if set.blockOnOverflow then .ret (pq, .wait) else .ret (pq, .returned (some .queueIsFull))
  else
    putInternal set ctx req { pq with metadata := pq.metadata.addSizes req } >>= fun r =>
      .ret (r.1, .returned r.2)

/-- Removes the item from the list of currently dispatched items and deletes it
from the storage. -/
def itemDispatchingFinish (index : Nat) (pq : PersistentQueue) : StorageM (PersistentQueue × Option QueueError) :=
  let pq := { pq with metadata := (pq.metadata.dropDispatched index).resetIfDrained }
  match set.proto.marshal pq.metadata with
  | .error text => .ret (pq, some (.proto text))
  | .ok metadataBytes =>
    let setOp := Operation.set .metadata metadataBytes
    let deleteOp := Operation.delete (getItemKey index)
    .call (.batch [setOp, deleteOp]) fun
      | .ok _ => .ret (pq, none)
      | .error _ =>
        .call (.batch [deleteOp]) fun
          | .error err => .ret (pq, some (.deletingItem err))
          | .ok _ =>
            .call (.batch [setOp]) fun
              | .error err => .ret (pq, some (.updatingDispatched err))
              | .ok _ => .ret (pq, none)

/-- Pulls the next available item; `none` when it could not be retrieved. -/
def getNextItem (pq : PersistentQueue) : StorageM (PersistentQueue × Option (Nat × Ctx × T)) :=
  let index := pq.metadata.readIndex
  -- increased here, so even if errors happen below, the reader always iterates
  let pq := { pq with metadata := pq.metadata.takeNext }
  match set.proto.marshal pq.metadata with
  | .error _ => .ret (pq, none)
  | .ok metadataBytes =>
    .call (.batch [.set .metadata metadataBytes, .get (getItemKey index)]) fun reply =>
      match reply.bind fun values => (set.encoding.unmarshal (values.headD none)).mapError .encoding with
      | .error _ => itemDispatchingFinish set index pq >>= fun r => .ret (r.1, none)
      | .ok (ctx, req) =>
        .ret ({ pq with refClient := pq.refClient + 1 }, some (index, ctx, req))

/-- The loop of Read over the remaining `WriteIndex - ReadIndex` items. -/
def readItems [Request T] : Nat → PersistentQueue → StorageM (PersistentQueue × ReadResult Ctx T)
  | 0, pq => .ret (pq, .wait)
  | fuel + 1, pq =>
    if pq.metadata.readIndex = pq.metadata.writeIndex then .ret (pq, .wait)
    else
      getNextItem set pq >>= fun r =>
        let pq := { r.1 with metadata := r.1.metadata.resetIfDrained }
        match r.2 with
        | some (index, ctx, req) =>
          .ret (pq, .item ctx req ⟨index, sizeof .items req, sizeof .bytes req⟩)
        | none => .call .signalSpace fun _ => readItems fuel pq

def read [Request T] (pq : PersistentQueue) : StorageM (PersistentQueue × ReadResult Ctx T) :=
  if pq.stopped then .ret (pq, .stopped)
  else readItems set (pq.metadata.writeIndex - pq.metadata.readIndex) pq

def onDone (id : IndexDone) (consumeErr : ConsumeErr) (pq : PersistentQueue) : StorageM PersistentQueue :=
  (if consumeErr.isShutdownErr then .ret pq
    else
      itemDispatchingFinish set id.index { pq with metadata := pq.metadata.subtractSizes id } >>=
        fun r => .call .signalSpace fun _ => .ret r.1) >>=
    fun pq => unrefClient pq >>= fun r => .ret r.1

/-- Puts the retrieved items back, skipping those missing or undecodable. -/
def enqueueItems : List (Option Bytes) → PersistentQueue → StorageM PersistentQueue
  | [], pq => .ret pq
  | none :: rest, pq => enqueueItems rest pq
  | some value :: rest, pq =>
    match set.encoding.unmarshal (some value) with
    | .error _ => enqueueItems rest pq
    | .ok (reqCtx, req) =>
      putInternal set reqCtx req pq >>= fun r => enqueueItems rest r.1

def enqueueNotDispatchedReqs (dispatchedItems : List Nat) (pq : PersistentQueue) : StorageM PersistentQueue :=
  if dispatchedItems = [] then .ret pq
  else
    .call (.batch (dispatchedItems.map fun it => .get (getItemKey it))) fun retrieved =>
      .call (.batch (dispatchedItems.map fun it => .delete (getItemKey it))) fun _ =>
        match retrieved with
        | .error _ => .ret pq
        | .ok values => enqueueItems set values pq

end operations

def bytesToItemIndex : Option Bytes → Except QueueError Nat
  | none => .error .valueNotSet
  | some buf => if buf.length < 8 then .error .invalidValue else .ok (littleEndian (buf.take 8))

def readItemIndices : Nat → Bytes → List Nat
  | 0, _ => []
  | size + 1, buf => littleEndian (buf.take 8) :: readItemIndices size (buf.drop 8)

def bytesToItemIndexArray (buf : Option Bytes) : Except QueueError (List Nat) :=
  let buf := buf.getD []
  if buf.length = 0 then .ok []
  else if buf.length < 4 then .error .invalidValue
  else
    let size := littleEndian (buf.take 4)
    if size = 0 then .ok []
    else if (buf.drop 4).length < size * 8 then .error .invalidValue
    else .ok (readItemIndices size (buf.drop 4))

section initialization
variable (set : Settings Ctx T) (pq : PersistentQueue)

def loadQueueMetadata : StorageM (PersistentQueue × Option QueueError) :=
  .call (.get .metadata) fun
    | .error err => .ret (pq, some err)
    | .ok values =>
      match values.headD none with
      | none | some [] => .ret (pq, some .valueNotSet)
      | some buf =>
        match set.proto.unmarshal buf with
        | .error text => .ret (pq, some (.proto text))
        | .ok metadata => .ret ({ pq with metadata := metadata }, none)

def retrieveAndEnqueueNotDispatchedReqs : StorageM PersistentQueue :=
  .call (.get .legacyCurrentlyDispatchedItems) fun
    | .error _ => .ret pq
    | .ok values =>
      match bytesToItemIndexArray (values.headD none) with
      | .error _ => .ret pq
      | .ok dispatchedItems => enqueueNotDispatchedReqs set dispatchedItems pq

/-- The read and the write index of the legacy keys; both are zero when either
cannot be read. -/
def legacyIndices (reply : Reply) : Nat × Nat :=
  match reply with
  | .ok [ri, wi] =>
    match bytesToItemIndex ri, bytesToItemIndex wi with
    | .ok readIndex, .ok writeIndex => (readIndex, writeIndex)
    | _, _ => (0, 0)
  | _ => (0, 0)

/-- The end of loadLegacyMetadata: save to the new format and clean up the legacy keys. -/
def consolidate : StorageM PersistentQueue :=
  match set.proto.marshal pq.metadata with
  | .error _ => .ret pq
  | .ok metadataBytes =>
    .call (.set .metadata metadataBytes) fun
      | .error _ => .ret pq
      | .ok _ =>
        .call (.batch [.delete .legacyReadIndex, .delete .legacyWriteIndex,
          .delete .legacyCurrentlyDispatchedItems]) fun _ => .ret pq

def loadLegacyMetadata : StorageM PersistentQueue :=
  .call (.batch [.get .legacyReadIndex, .get .legacyWriteIndex]) fun reply =>
    let pq := { pq with
      metadata.readIndex := (legacyIndices reply).1
      metadata.writeIndex := (legacyIndices reply).2 }
    retrieveAndEnqueueNotDispatchedReqs set pq >>= consolidate set

def initClient : StorageM PersistentQueue :=
  -- the reference for the producer goroutines and the initialization
  let pq := { pq with refClient := 1 }
  loadQueueMetadata set pq >>= fun r =>
    match r.2 with
    | none =>
      enqueueNotDispatchedReqs set r.1.metadata.currentlyDispatchedItems r.1 >>= fun pq =>
        .ret { pq with metadata.currentlyDispatchedItems := [] }
    | some .valueNotSet => loadLegacyMetadata set r.1
    | some _ => .ret { r.1 with metadata := {} }

end initialization

end CollectorFormal.Queue
