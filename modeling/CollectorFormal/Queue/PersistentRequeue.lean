import CollectorFormal.Queue.PersistentStored
import CollectorFormal.Queue.PersistentCodec

/-! Putting the dispatched items back, when the process is stopped or one storage call is refused.

The payloads are deleted before they are put back one by one. -/

namespace CollectorFormal.Queue

open Lib List Function Program

variable {Ctx T : Type}

inductive Fault where
  /-- The process is gone after this many calls. -/
  | stop (calls : Nat)
  /-- The call at this position returns an error and has no effect. -/
  | refuse (position : Nat) (text : String)
  deriving DecidableEq

def Fault.client {α : Type} (program : StorageM α) (client : Client) : Fault → Client
  | .stop calls => program.stopAfter serve calls client
  | .refuse position text => (program.failAt serve (refusal text) position client).1

def dispatchedOf : Except QueueError (List Nat) → List Nat
  | .ok dispatchedItems => dispatchedItems
  | .error _ => []

section definitions
variable (set : Settings Ctx T) (store : Store)

/-- The metadata a store keeps: the consolidated key, or else the legacy keys. -/
def persisted : Metadata :=
  match store .metadata with
  | some (byte :: rest) =>
    match set.proto.unmarshal (byte :: rest) with
    | .ok metadata => metadata
    | .error _ => {}
  | _ =>
    { readIndex := (legacyIndices (.ok [store .legacyReadIndex, store .legacyWriteIndex])).1
      writeIndex := (legacyIndices (.ok [store .legacyReadIndex, store .legacyWriteIndex])).2
      currentlyDispatchedItems :=
        dispatchedOf (bytesToItemIndexArray (store .legacyCurrentlyDispatchedItems)) }

def consolidated : Bool := (store .metadata).getD [] ≠ []

def dispatchedRequests : List T :=
  (persisted set store).currentlyDispatchedItems.filterMap (requestAt set.encoding store)

/-- Every dispatched request can still be found through the persisted metadata. -/
def Survives (before after : Store) : Prop :=
  ∀ req ∈ dispatchedRequests set before,
    ∃ index ∈ (persisted set after).tracked, requestAt set.encoding after index = some req

def Gone (req : T) : Prop :=
  ∀ index, requestAt set.encoding store index ≠ some req

def Distinct : Prop :=
  ∀ left right req, requestAt set.encoding store left = some req →
    requestAt set.encoding store right = some req → left = right

/-- Faults before the payloads are deleted, or after the last one was put back: of the calls before, one Get has the
consolidated key and three the legacy keys, and one batch retrieves the payloads. -/
def Fault.Harmless (current : Bool) (stored : Nat) : Fault → Prop
  | .stop calls =>
    stored = 0 ∨ calls < (if current then 3 else 5) ∨ (if current then 3 else 5) + stored ≤ calls
  | .refuse position _ =>
    stored = 0 ∨ position < (if current then 1 else 2) ∨ position = (if current then 2 else 4) ∨
      (if current then 3 else 5) + stored ≤ position

end definitions

section survival
variable {set : Settings Ctx T}

theorem survives_of_unchanged (before : Store) : Survives set before before := by
  intro req listed
  obtain ⟨index, member, present⟩ := mem_filterMap.mp listed
  exact ⟨index, (mem_tracked _ index).mpr (.inr member), present⟩

theorem not_survives_of_gone {before after : Store} (req : T)
    (listed : req ∈ dispatchedRequests set before) (gone : Gone set after req) :
    ¬ Survives set before after := by
  intro survives
  obtain ⟨index, -, present⟩ := survives req listed
  exact gone index present

end survival

section puts
variable (set : Settings Ctx T)

def bytesOf : Except String Bytes → Bytes
  | .ok buf => buf
  | .error _ => []

def putCall (ctx : Ctx) (req : T) (metadata : Metadata) : Call :=
  .batch [.set .metadata (bytesOf (set.proto.marshal metadata.advanceWrite)),
    .set (getItemKey metadata.writeIndex) (bytesOf (set.encoding.marshal ctx req))]

def putCalls : List (Ctx × T) → Metadata → List Call
  | [], _ => []
  | (ctx, req) :: rest, metadata => putCall set ctx req metadata :: putCalls rest metadata.advanceWrite

def restore : Option Bytes → Option (Ctx × T)
  | none => none
  | some buf =>
    match set.encoding.unmarshal (some buf) with
    | .ok pair => some pair
    | .error _ => none

variable {set}

theorem length_putCalls (reqs : List (Ctx × T)) (metadata : Metadata) :
    (putCalls set reqs metadata).length = reqs.length := by
  induction reqs generalizing metadata with
  | nil => rfl
  | cons pair rest ih => rw [putCalls, length_cons, length_cons, ih]

theorem decode_restore (value : Option Bytes) : decode set.encoding value = (restore set value).map Prod.snd := by
  cases value with
  | none => rfl
  | some buf =>
    cases unmarshalled : set.encoding.unmarshal (some buf) <;> simp [decode, restore, unmarshalled]

theorem serve_putCall (ctx : Ctx) (req : T) (metadata : Metadata) (client : Client) :
    (serve (putCall set ctx req metadata) client).1.store =
      Function.update
        (Function.update client.store .metadata (some (bytesOf (set.proto.marshal metadata.advanceWrite))))
        (getItemKey metadata.writeIndex) (some (bytesOf (set.encoding.marshal ctx req))) := rfl

variable (codec : set.proto.Lossless) (lossless : set.encoding.Lossless)

include lossless in
theorem requestAt_putCall (ctx : Ctx) (req : T) (metadata : Metadata) (client : Client) (index : Nat) :
    requestAt set.encoding (serve (putCall set ctx req metadata) client).1.store index =
      if index = metadata.writeIndex then some req else requestAt set.encoding client.store index := by
  obtain ⟨buf, restored, encoded, decoded⟩ := lossless ctx req
  rw [requestAt, serve_putCall, encoded]
  split
  · next here => simp [here, bytesOf, decode, decoded]
  · next elsewhere =>
      rw [update_of_ne (by simpa [getItemKey] using elsewhere), update_of_ne (by simp [getItemKey])]
      rfl

include codec lossless in
theorem putInternal_eq (ctx : Ctx) (req : T) (pq : PersistentQueue) :
    putInternal set ctx req pq = .call (putCall set ctx req pq.metadata) fun reply =>
      .ret ({ pq with metadata := pq.metadata.advanceWrite }, replyError reply) := by
  obtain ⟨metadataBuf, marshalled, -, -⟩ := codec pq.metadata.advanceWrite
  obtain ⟨reqBuf, restored, encoded, -⟩ := lossless ctx req
  simp only [putInternal, putCall, marshalled, encoded, bytesOf]
  rfl

include codec lossless in
theorem enqueueItems_after (values : List (Option Bytes)) (pq : PersistentQueue) :
    enqueueItems set values pq =
      Program.after (putCalls set (values.filterMap (restore set)) pq.metadata)
        (.ret { pq with
          metadata := pq.metadata.advanceBy (values.filterMap (restore set)).length }) := by
  induction values generalizing pq with
  | nil => rfl
  | cons value rest ih =>
    cases value with
    | none => exact ih pq
    | some buf =>
      cases unmarshalled : set.encoding.unmarshal (some buf) with
      | error text =>
        have nothing : restore set (some buf) = none := by simp [restore, unmarshalled]
        rw [filterMap_cons_none nothing, ← ih pq]
        simp only [enqueueItems, unmarshalled]
      | ok pair =>
        have found : restore set (some buf) = some pair := by simp [restore, unmarshalled]
        have later := ih { pq with metadata := pq.metadata.advanceWrite }
        have count : pq.metadata.advanceWrite.advanceBy (rest.filterMap (restore set)).length =
            pq.metadata.advanceBy (pair :: rest.filterMap (restore set)).length := by
          simp only [Metadata.advanceBy, Metadata.advanceWrite, length_cons]
          congr 1
          omega
        rw [filterMap_cons_some found, ← count]
        simp only [enqueueItems, unmarshalled, putInternal_eq codec lossless, call_bind, ret_bind, later]
        rfl

include lossless in
theorem performAll_puts (reqs : List (Ctx × T)) (metadata : Metadata) (client : Client) :
    let after := (Program.performAll serve (putCalls set reqs metadata) client).store
    (∀ index < metadata.writeIndex, after (getItemKey index) = client.store (getItemKey index)) ∧
    (∀ req ∈ reqs.map Prod.snd, ∃ index, metadata.writeIndex ≤ index ∧
      index < metadata.writeIndex + reqs.length ∧ requestAt set.encoding after index = some req) ∧
    (reqs ≠ [] → after .metadata = some (bytesOf (set.proto.marshal (metadata.advanceBy reqs.length)))) := by
  induction reqs generalizing metadata client with
  | nil => exact ⟨fun _ _ => rfl, by simp, fun absent => absurd rfl absent⟩
  | cons pair rest ih =>
    obtain ⟨ctx, req⟩ := pair
    obtain ⟨below, found, written⟩ :=
      ih metadata.advanceWrite (serve (putCall set ctx req metadata) client).1
    have count : metadata.advanceWrite.advanceBy rest.length = metadata.advanceBy ((ctx, req) :: rest).length := by
      simp only [Metadata.advanceBy, Metadata.advanceWrite, length_cons]
      congr 1
      omega
    simp only [Metadata.advanceWrite] at below found
    refine ⟨?_, ?_, ?_⟩
    · intro index smaller
      calc
        _ = (serve (putCall set ctx req metadata) client).1.store (getItemKey index) :=
          below index (by omega)
        _ = client.store (getItemKey index) := by
          rw [serve_putCall, update_of_ne (by simp [getItemKey]; omega), update_of_ne (by simp [getItemKey])]
    · intro wanted member
      rcases mem_cons.mp member with rfl | later
      · refine ⟨metadata.writeIndex, le_refl _, by simp, ?_⟩
        have here := requestAt_putCall lossless ctx wanted metadata client metadata.writeIndex
        rw [if_pos rfl] at here
        exact (congrArg _ (below metadata.writeIndex (by omega))).trans here
      · obtain ⟨index, above, inside, present⟩ := found wanted later
        exact ⟨index, by omega, by simp only [length_cons]; omega, present⟩
    · intro _
      by_cases last : rest = []
      · subst last
        change (serve (putCall set ctx req metadata) client).1.store .metadata = _
        rw [serve_putCall, update_of_ne (by simp [getItemKey]), update_self]
        rfl
      · rw [← count]
        exact written last

theorem getElem_putCalls (reqs : List (Ctx × T)) (metadata : Metadata) (position : Nat) (call : Call)
    (found : (putCalls set reqs metadata)[position]? = some call) :
    ∃ ctx req written, (reqs.map Prod.snd)[position]? = some req ∧ call = putCall set ctx req written := by
  induction reqs generalizing metadata position with
  | nil => simp [putCalls] at found
  | cons pair rest ih =>
    cases position with
    | zero => exact ⟨pair.1, pair.2, metadata, rfl, (Option.some.inj found).symm⟩
    | succ position => exact ih metadata.advanceWrite position found

include lossless in
theorem gone_without (reqs : List (Ctx × T)) (metadata : Metadata) (client : Client) (position : Nat)
    (req : T) (wanted : (reqs.map Prod.snd)[position]? = some req) (unique : (reqs.map Prod.snd).Nodup)
    (gone : Gone set client.store req) (chosen : List Call)
    (others : ∀ call ∈ chosen, ∃ other, other ≠ position ∧ (putCalls set reqs metadata)[other]? = some call) :
    Gone set (Program.performAll serve chosen client).store req := by
  induction chosen generalizing client with
  | nil => exact gone
  | cons call rest ih =>
    obtain ⟨other, different, found⟩ := others call mem_cons_self
    obtain ⟨ctx, otherReq, written, listed, rfl⟩ := getElem_putCalls reqs metadata other call found
    apply ih _ _ fun call member => others call (mem_cons_of_mem _ member)
    intro index present
    rw [requestAt_putCall lossless] at present
    split at present
    · obtain rfl := Option.some.inj present
      have inside := (List.getElem?_eq_some_iff.mp listed).1
      exact different ((List.getElem?_inj inside unique).mp (listed.trans wanted.symm))
    · exact gone index present

end puts

section tail
variable (set : Settings Ctx T)

/-- The calls that follow the puts when legacy keys are migrated. -/
def Call.Saves (metadata : Metadata) (call : Call) : Prop :=
  call = .set .metadata (bytesOf (set.proto.marshal metadata)) ∨
    call = .batch [.delete .legacyReadIndex, .delete .legacyWriteIndex, .delete .legacyCurrentlyDispatchedItems]

variable {set}

theorem saves_item (metadata : Metadata) (call : Call) (client : Client)
    (saves : call.Saves set metadata) (index : Nat) :
    (serve call client).1.store (getItemKey index) = client.store (getItemKey index) := by
  rcases saves with rfl | rfl <;>
    simp [serve, Client.note, Client.perform, batch, getItemKey]

theorem saves_metadata (metadata : Metadata) (call : Call) (client : Client) (saves : call.Saves set metadata)
    (held : client.store .metadata = some (bytesOf (set.proto.marshal metadata))) :
    (serve call client).1.store .metadata = some (bytesOf (set.proto.marshal metadata)) := by
  rcases saves with rfl | rfl <;> simp [serve, Client.note, Client.perform, batch, held]

def SameItems (base : Store) (client : Client) : Prop :=
  ∀ index, client.store (getItemKey index) = base (getItemKey index)

def Kept (set : Settings Ctx T) (base : Store) (metadata : Metadata) (client : Client) : Prop :=
  SameItems base client ∧ client.store .metadata = some (bytesOf (set.proto.marshal metadata))

theorem saves_sameItems (base : Store) (metadata : Metadata) (call : Call) (client : Client)
    (saves : call.Saves set metadata) (same : SameItems base client) :
    SameItems base (serve call client).1 := fun index =>
  (saves_item metadata call client saves index).trans (same index)

theorem saves_kept (base : Store) (metadata : Metadata) (call : Call) (client : Client)
    (saves : call.Saves set metadata) (kept : Kept set base metadata client) :
    Kept set base metadata (serve call client).1 :=
  ⟨saves_sameItems base metadata call client saves kept.1, saves_metadata metadata call client saves kept.2⟩

theorem SameItems.requestAt {base : Store} {client : Client} (same : SameItems base client) (index : Nat) :
    Queue.requestAt set.encoding client.store index = Queue.requestAt set.encoding base index := by
  rw [Queue.requestAt, Queue.requestAt, same index]

theorem SameItems.gone {base : Store} {client : Client} (same : SameItems base client) (req : T)
    (gone : Gone set base req) : Gone set client.store req := by
  intro index present
  rw [same.requestAt] at present
  exact gone index present

theorem persisted_current (codec : set.proto.Lossless) (store : Store) (metadata : Metadata)
    (nonempty : metadata ≠ {}) (held : store .metadata = some (bytesOf (set.proto.marshal metadata))) :
    persisted set store = metadata := by
  obtain ⟨buf, marshalled, unmarshalled, nilIff⟩ := codec metadata
  rw [marshalled, bytesOf] at held
  cases buf with
  | nil => exact absurd (nilIff.mp rfl) nonempty
  | cons byte rest => simp only [persisted, held, unmarshalled]

theorem found_of_kept (codec : set.proto.Lossless) (lossless : set.encoding.Lossless)
    (reqs : List (Ctx × T)) (metadata : Metadata) (start after : Client)
    (ordered : metadata.readIndex ≤ metadata.writeIndex)
    (kept : reqs ≠ [] → Kept set (Program.performAll serve (putCalls set reqs metadata) start).store
      (metadata.advanceBy reqs.length) after) :
    ∀ req ∈ reqs.map Prod.snd, ∃ index ∈ (persisted set after.store).tracked,
      requestAt set.encoding after.store index = some req := by
  intro req member
  have present : reqs ≠ [] := by
    rintro rfl
    cases member
  obtain ⟨-, found, -⟩ := performAll_puts lossless reqs metadata start
  obtain ⟨index, above, inside, stored⟩ := found req member
  obtain ⟨same, held⟩ := kept present
  have nonempty : metadata.advanceBy reqs.length ≠ {} := by
    intro zero
    have last : metadata.writeIndex + reqs.length = 0 := congrArg Metadata.writeIndex zero
    omega
  refine ⟨index, ?_, (same.requestAt index).trans stored⟩
  rw [persisted_current codec after.store _ nonempty held, mem_tracked]
  left
  simp only [Metadata.advanceBy]
  omega

end tail

section enqueue
variable {set : Settings Ctx T} (codec : set.proto.Lossless) (lossless : set.encoding.Lossless)
variable (dispatched : List Nat) (pq : PersistentQueue) (rest : PersistentQueue → StorageM PersistentQueue)
  (tail : ∀ pq, (rest pq).Uses (Call.Saves set pq.metadata))

def retrieveCall (dispatched : List Nat) : Call :=
  .batch (dispatched.map fun it => .get (getItemKey it))

def cleanupCall (dispatched : List Nat) : Call :=
  .batch (dispatched.map fun it => .delete (getItemKey it))

def retrieved (set : Settings Ctx T) (dispatched : List Nat) (store : Store) : List (Ctx × T) :=
  (dispatched.map fun it => store (getItemKey it)).filterMap (restore set)

theorem retrieved_requests (store : Store) :
    (retrieved set dispatched store).map Prod.snd = dispatched.filterMap (requestAt set.encoding store) := by
  rw [retrieved, filterMap_map, map_filterMap]
  congr 1
  funext index
  exact (decode_restore _).symm

theorem length_puts (store : Store) (metadata : Metadata) :
    (putCalls set (retrieved set dispatched store) metadata).length =
      (dispatched.filterMap (requestAt set.encoding store)).length := by
  rw [length_putCalls, ← retrieved_requests, length_map]

theorem serve_retrieve (client : Client) :
    (serve (retrieveCall dispatched) client).1.store = client.store ∧
      (serve (retrieveCall dispatched) client).2 = .ok (dispatched.map fun it => client.store (getItemKey it)) := by
  simp [retrieveCall, serve, Client.note, Client.perform, batch_gets]

def cleaned (client : Client) : Client :=
  (serve (cleanupCall dispatched) (serve (retrieveCall dispatched) client).1).1

theorem gone_deleted (client : Client) (req : T) (distinct : Distinct set client.store)
    (listed : req ∈ dispatched.filterMap (requestAt set.encoding client.store)) :
    Gone set (serve (cleanupCall dispatched) client).1.store req := by
  intro index present
  obtain ⟨origin, member, stored⟩ := mem_filterMap.mp listed
  have store : (serve (cleanupCall dispatched) client).1.store =
      (batch (dispatched.map fun it => .delete (getItemKey it)) client.store).1 := rfl
  rw [store] at present
  by_cases inside : index ∈ dispatched
  · rw [requestAt_missing set.encoding _ index ((batch_deletes dispatched client.store).1 index inside)] at present
    cases present
  · rw [requestAt_batch_deletes dispatched client.store index inside] at present
    exact inside (distinct index origin req present stored ▸ member)

theorem gone_cleaned (client : Client) (req : T) (distinct : Distinct set client.store)
    (listed : req ∈ dispatched.filterMap (requestAt set.encoding client.store)) :
    Gone set (cleaned dispatched client).store req := by
  have same := (serve_retrieve dispatched client).1
  apply gone_deleted dispatched _ req
  · rw [same]
    exact distinct
  · rw [same]
    exact listed

def PersistentQueue.requeued (reqs : List (Ctx × T)) (pq : PersistentQueue) : PersistentQueue :=
  { pq with metadata := pq.metadata.advanceBy reqs.length }

variable (nonempty : dispatched ≠ [])

include nonempty codec lossless in
theorem enqueue_shape :
    ∃ next : Reply → StorageM PersistentQueue,
      (enqueueNotDispatchedReqs set dispatched pq >>= rest) =
        .call (retrieveCall dispatched) (fun reply => .call (cleanupCall dispatched) fun _ => next reply) ∧
      (∀ err, next (.error err) = rest pq) ∧
      ∀ client : Client, next (serve (retrieveCall dispatched) client).2 =
        Program.after (putCalls set (retrieved set dispatched client.store) pq.metadata)
          (rest (pq.requeued (retrieved set dispatched client.store))) := by
  refine ⟨_, by rw [enqueueNotDispatchedReqs, if_neg nonempty]; rfl, fun _ => rfl, ?_⟩
  intro client
  rw [(serve_retrieve dispatched client).2]
  change (enqueueItems set _ pq >>= rest) = _
  rw [enqueueItems_after codec lossless, after_bind]
  rfl

include nonempty codec lossless in
theorem enqueue_stop_early (client : Client) (limit : Nat) (early : limit ≤ 1) :
    ((enqueueNotDispatchedReqs set dispatched pq >>= rest).stopAfter serve limit client).store =
      client.store := by
  obtain ⟨next, shape, -, -⟩ := enqueue_shape codec lossless dispatched pq rest nonempty
  rw [shape]
  match limit, early with
  | 0, _ => rfl
  | 1, _ => exact (serve_retrieve dispatched client).1

section lost
variable (client : Client) (distinct : Distinct set client.store)

include distinct lossless in
theorem gone_without_put (unique : dispatched.Nodup) (position : Nat) (req : T)
    (missing : (dispatched.filterMap (requestAt set.encoding client.store))[position]? = some req)
    (chosen : List Call)
    (others : ∀ call ∈ chosen, ∃ other, other ≠ position ∧
      (putCalls set (retrieved set dispatched client.store) pq.metadata)[other]? = some call) :
    Gone set (Program.performAll serve chosen (cleaned dispatched client)).store req := by
  have gone := gone_cleaned dispatched client req distinct (mem_of_getElem? missing)
  rw [← retrieved_requests] at missing
  refine gone_without lossless _ pq.metadata _ position req missing ?_ gone chosen others
  rw [retrieved_requests]
  exact unique.filterMap fun left right value first second => distinct left right value first second

include nonempty codec lossless distinct in
theorem enqueue_stop_lost (unique : dispatched.Nodup) (count : Nat) (req : T)
    (missing : (dispatched.filterMap (requestAt set.encoding client.store))[count]? = some req) :
    Gone set ((enqueueNotDispatchedReqs set dispatched pq >>= rest).stopAfter serve (count + 2) client).store req := by
  obtain ⟨next, shape, -, served⟩ := enqueue_shape codec lossless dispatched pq rest nonempty
  have within := length_puts dispatched client.store pq.metadata ▸ (List.getElem?_eq_some_iff.mp missing).1
  rw [shape, stopAfter_call, stopAfter_call, served, stopAfter_within serve _ _ _ _ within.le]
  apply gone_without_put lossless dispatched pq client distinct unique count req missing
  intro call member
  obtain ⟨position, bound, found⟩ := mem_take_iff_getElem.mp member
  exact ⟨position, by omega, by rw [getElem?_eq_getElem (by omega), found]⟩

include nonempty codec lossless tail distinct in
theorem enqueue_refuse_retrieve (text : String) (req : T)
    (listed : req ∈ dispatched.filterMap (requestAt set.encoding client.store)) :
    Gone set ((enqueueNotDispatchedReqs set dispatched pq >>= rest).failAt serve (refusal text) 0
      client).1.store req := by
  obtain ⟨next, shape, failed, -⟩ := enqueue_shape codec lossless dispatched pq rest nonempty
  rw [shape, failAt_call_zero, run_call, refusal, failed]
  have same := run_kept (SameItems (serve (cleanupCall dispatched) client).1.store)
    (fun call state saves kept => saves_sameItems _ pq.metadata call state saves kept) (rest pq) (tail pq)
    (serve (cleanupCall dispatched) client).1 (fun _ => rfl)
  exact same.gone req (gone_deleted dispatched client req distinct listed)

include nonempty codec lossless tail distinct in
theorem enqueue_refuse_lost (unique : dispatched.Nodup) (text : String) (count : Nat) (req : T)
    (missing : (dispatched.filterMap (requestAt set.encoding client.store))[count]? = some req) :
    Gone set ((enqueueNotDispatchedReqs set dispatched pq >>= rest).failAt serve (refusal text)
      (count + 2) client).1.store req := by
  obtain ⟨next, shape, -, served⟩ := enqueue_shape codec lossless dispatched pq rest nonempty
  let reqs := retrieved set dispatched client.store
  have within := length_puts dispatched client.store pq.metadata ▸ (List.getElem?_eq_some_iff.mp missing).1
  rw [shape, failAt_call_succ, failAt_call_succ, served, failAt_within serve _ _ _ _ _ within]
  let start := Program.performAll serve ((putCalls set reqs pq.metadata).eraseIdx count) (cleaned dispatched client)
  have same := run_kept (SameItems start.store)
    (fun call state saves kept => saves_sameItems _ (pq.requeued reqs).metadata call state saves kept)
    (rest (pq.requeued reqs)) (tail _) start (fun _ => rfl)
  apply same.gone
  apply gone_without_put lossless dispatched pq client distinct unique count req missing
  intro call member
  exact mem_eraseIdx_iff_getElem?.mp member

end lost

section found
variable (client : Client) (ordered : pq.metadata.readIndex ≤ pq.metadata.writeIndex)

def Found (set : Settings Ctx T) (dispatched : List Nat) (before after : Store) : Prop :=
  ∀ req ∈ dispatched.filterMap (requestAt set.encoding before),
    ∃ index ∈ (persisted set after).tracked, requestAt set.encoding after index = some req

include codec lossless ordered

theorem found_after_puts (start after : Client)
    (keeps : ∀ kept : Client → Prop, (∀ call state,
        call.Saves set (pq.requeued (retrieved set dispatched client.store)).metadata → kept state →
        kept (serve call state).1) →
      kept (Program.performAll serve (putCalls set (retrieved set dispatched client.store) pq.metadata) start) →
      kept after) : Found set dispatched client.store after.store := by
  unfold Found
  rw [← retrieved_requests]
  apply found_of_kept codec lossless _ pq.metadata start after ordered
  intro present
  exact keeps _ (saves_kept _ _) ⟨fun _ => rfl, (performAll_puts lossless _ pq.metadata start).2.2 present⟩

include nonempty tail

theorem enqueue_stop_late (limit : Nat)
    (late : (dispatched.filterMap (requestAt set.encoding client.store)).length + 2 ≤ limit) :
    Found set dispatched client.store
      ((enqueueNotDispatchedReqs set dispatched pq >>= rest).stopAfter serve limit client).store := by
  obtain ⟨next, shape, -, served⟩ := enqueue_shape codec lossless dispatched pq rest nonempty
  obtain ⟨more, rfl⟩ := Nat.exists_eq_add_of_le' late
  rw [← length_puts dispatched client.store pq.metadata, Nat.add_comm more, Nat.add_right_comm]
  rw [shape, stopAfter_call, stopAfter_call, served, stopAfter_beyond]
  exact found_after_puts codec lossless dispatched pq client ordered (cleaned dispatched client) _
    fun kept saves puts => stopAfter_kept kept saves _ (tail _) more _ puts

theorem enqueue_refuse_cleanup (text : String) :
    Found set dispatched client.store
      ((enqueueNotDispatchedReqs set dispatched pq >>= rest).failAt serve (refusal text) 1 client).1.store := by
  obtain ⟨next, shape, -, served⟩ := enqueue_shape codec lossless dispatched pq rest nonempty
  rw [shape, failAt_call_succ, failAt_call_zero, served, run_after]
  exact found_after_puts codec lossless dispatched pq client ordered (serve (retrieveCall dispatched) client).1 _
    fun kept saves puts => run_kept kept saves _ (tail _) _ puts

theorem enqueue_refuse_late (text : String) (position : Nat)
    (late : (dispatched.filterMap (requestAt set.encoding client.store)).length + 2 ≤ position) :
    Found set dispatched client.store
      ((enqueueNotDispatchedReqs set dispatched pq >>= rest).failAt serve (refusal text) position client).1.store := by
  obtain ⟨next, shape, -, served⟩ := enqueue_shape codec lossless dispatched pq rest nonempty
  obtain ⟨more, rfl⟩ := Nat.exists_eq_add_of_le' late
  rw [← length_puts dispatched client.store pq.metadata, Nat.add_comm more, Nat.add_right_comm]
  rw [shape, failAt_call_succ, failAt_call_succ, served, failAt_beyond]
  exact found_after_puts codec lossless dispatched pq client ordered (cleaned dispatched client) _
    fun kept saves puts => failAt_kept kept saves (refusal text) _ (tail _) more _ puts

theorem enqueue_run_found :
    Found set dispatched client.store
      ((enqueueNotDispatchedReqs set dispatched pq >>= rest).run serve client).1.store := by
  obtain ⟨next, shape, -, served⟩ := enqueue_shape codec lossless dispatched pq rest nonempty
  rw [shape, run_call, run_call, served, run_after]
  exact found_after_puts codec lossless dispatched pq client ordered (cleaned dispatched client) _
    fun kept saves puts => run_kept kept saves _ (tail _) _ puts

end found

/-- Where a fault does no harm, counted from the batch that retrieves the payloads. -/
def Fault.HarmlessHere (stored : Nat) : Fault → Prop
  | .stop calls => stored = 0 ∨ calls < 2 ∨ stored + 2 ≤ calls
  | .refuse position _ => stored = 0 ∨ position = 1 ∨ stored + 2 ≤ position

section exact
variable (client : Client) (fault : Fault) (listed : (persisted set client.store).currentlyDispatchedItems = dispatched)

include nonempty codec lossless tail listed in
theorem survives_enqueue (ordered : pq.metadata.readIndex ≤ pq.metadata.writeIndex)
    (harmless : fault.HarmlessHere (dispatchedRequests set client.store).length) :
    Survives set client.store (fault.client (enqueueNotDispatchedReqs set dispatched pq >>= rest) client).store := by
  by_cases empty : (dispatchedRequests set client.store).length = 0
  · intro req member
    rw [eq_nil_of_length_eq_zero empty] at member
    cases member
  subst listed
  cases fault with
  | stop calls =>
    rcases harmless with none | early | late
    · exact absurd none empty
    · have same := enqueue_stop_early codec lossless _ pq rest nonempty client calls (by omega)
      unfold Fault.client
      rw [same]
      exact survives_of_unchanged client.store
    · exact enqueue_stop_late codec lossless _ pq rest tail nonempty client ordered calls late
  | refuse position text =>
    rcases harmless with none | rfl | late
    · exact absurd none empty
    · exact enqueue_refuse_cleanup codec lossless _ pq rest tail nonempty client ordered text
    · exact enqueue_refuse_late codec lossless _ pq rest tail nonempty client ordered text position late

include nonempty codec lossless tail listed in
theorem harmless_of_survives (unique : dispatched.Nodup) (distinct : Distinct set client.store)
    (survives : Survives set client.store
      (fault.client (enqueueNotDispatchedReqs set dispatched pq >>= rest) client).store) :
    fault.HarmlessHere (dispatchedRequests set client.store).length := by
  subst listed
  have lost (position : Nat) (inside : position < (dispatchedRequests set client.store).length) :
      ∃ req, (dispatchedRequests set client.store)[position]? = some req :=
    ⟨_, getElem?_eq_getElem inside⟩
  cases fault with
  | stop calls =>
    unfold Fault.HarmlessHere
    by_contra harmful
    obtain ⟨count, rfl⟩ : ∃ count, calls = count + 2 := ⟨calls - 2, by omega⟩
    obtain ⟨req, missing⟩ := lost count (by omega)
    exact not_survives_of_gone req (mem_of_getElem? missing)
      (enqueue_stop_lost codec lossless _ pq rest nonempty client distinct unique count req missing)
      survives
  | refuse position text =>
    unfold Fault.HarmlessHere
    by_contra harmful
    obtain rfl | ⟨count, rfl⟩ : position = 0 ∨ ∃ count, position = count + 2 := by
      rcases Nat.lt_or_ge position 2 with small | large
      · left
        omega
      · exact .inr ⟨position - 2, by omega⟩
    · obtain ⟨req, missing⟩ := lost 0 (by omega)
      exact not_survives_of_gone req (mem_of_getElem? missing)
        (enqueue_refuse_retrieve codec lossless _ pq rest tail nonempty client distinct text req
          (mem_of_getElem? missing)) survives
    · obtain ⟨req, missing⟩ := lost count (by omega)
      exact not_survives_of_gone req (mem_of_getElem? missing)
        (enqueue_refuse_lost codec lossless _ pq rest tail nonempty client distinct unique text count req
          missing) survives

end exact

end enqueue

end CollectorFormal.Queue
