import CollectorFormal.Queue.PersistentRequeue

/-! Recovery that is stopped, or has one storage call refused, with the consolidated key
and with the legacy keys. -/

namespace CollectorFormal.Queue

open Lib List Program

variable {Ctx T : Type}

section recovery
variable {set : Settings Ctx T} (codec : set.proto.Lossless) (lossless : set.encoding.Lossless) (capacity : Int) (client : Client)

variable (pq : PersistentQueue)

theorem consolidate_uses : (consolidate set pq).Uses (Call.Saves set pq.metadata) := by
  unfold consolidate
  cases marshalled : set.proto.marshal pq.metadata with
  | error text => trivial
  | ok buf =>
    refine ⟨.inl (by rw [marshalled]; rfl), fun reply => ?_⟩
    cases reply with
    | error err => trivial
    | ok values => exact ⟨.inr rfl, fun _ => trivial⟩

theorem initClient_consolidated (current : consolidated client.store = true) :
    ∃ next : Reply → StorageM PersistentQueue,
      initClient set { capacity := capacity } = .call (.get .metadata) next ∧
      (∀ text, ∃ pq, next (.error (.storage text)) = .ret pq) ∧
      (persisted set client.store ≠ {} → next (.ok [client.store .metadata]) =
        (enqueueNotDispatchedReqs set (persisted set client.store).currentlyDispatchedItems
          { capacity := capacity, metadata := persisted set client.store, refClient := 1 } >>= fun pq =>
            .ret { pq with metadata.currentlyDispatchedItems := [] })) := by
  refine ⟨_, by rw [initClient]; rfl, fun text => ⟨_, rfl⟩, ?_⟩
  intro loaded
  unfold persisted at loaded ⊢
  cases held : client.store .metadata with
  | none => simp [consolidated, held] at current
  | some buf =>
    cases buf with
    | nil => simp [consolidated, held] at current
    | cons byte rest =>
      cases unmarshalled : set.proto.unmarshal (byte :: rest) with
      | error text => simp [held, unmarshalled] at loaded
      | ok metadata =>
        simp only [headD_cons, unmarshalled]
        rfl

theorem initClient_legacy (legacy : consolidated client.store = false) :
    ∃ next : Reply → StorageM PersistentQueue,
      initClient set { capacity := capacity } = .call (.get .metadata) next ∧
      (∀ text, ∃ pq, next (.error (.storage text)) = .ret pq) ∧
      next (.ok [client.store .metadata]) =
        loadLegacyMetadata set { capacity := capacity, refClient := 1 } := by
  refine ⟨_, by rw [initClient]; rfl, fun text => ⟨_, rfl⟩, ?_⟩
  cases held : client.store .metadata with
  | none => rfl
  | some buf =>
    cases buf with
    | nil => rfl
    | cons byte rest => simp [consolidated, held] at legacy

theorem retrieveAndEnqueue_shape
    (listed : dispatchedOf (bytesToItemIndexArray (client.store .legacyCurrentlyDispatchedItems)) ≠ []) :
    ∃ next : Reply → StorageM PersistentQueue,
      retrieveAndEnqueueNotDispatchedReqs set pq = .call (.get .legacyCurrentlyDispatchedItems) next ∧
      (∀ err, next (.error err) = .ret pq) ∧
      next (.ok [client.store .legacyCurrentlyDispatchedItems]) =
        enqueueNotDispatchedReqs set
          (dispatchedOf (bytesToItemIndexArray (client.store .legacyCurrentlyDispatchedItems))) pq := by
  refine ⟨_, by rw [retrieveAndEnqueueNotDispatchedReqs], fun _ => rfl, ?_⟩
  cases read : bytesToItemIndexArray (client.store .legacyCurrentlyDispatchedItems) with
  | error err => exact absurd (by rw [read]; rfl) listed
  | ok dispatchedItems => simp only [headD_cons, read, dispatchedOf]

theorem persisted_legacy (legacy : consolidated client.store = false) :
    persisted set client.store =
      { readIndex := (legacyIndices (.ok [client.store .legacyReadIndex, client.store .legacyWriteIndex])).1
        writeIndex := (legacyIndices (.ok [client.store .legacyReadIndex, client.store .legacyWriteIndex])).2
        currentlyDispatchedItems := dispatchedOf (bytesToItemIndexArray
          (client.store .legacyCurrentlyDispatchedItems)) } := by
  unfold persisted
  cases held : client.store .metadata with
  | none => rfl
  | some buf =>
    cases buf with
    | nil => rfl
    | cons byte rest => simp [consolidated, held] at legacy

include codec in
theorem persisted_consolidate (start : Client) :
    persisted set ((consolidate set pq).run serve start).1.store = pq.metadata ∧
      SameItems start.store ((consolidate set pq).run serve start).1 := by
  obtain ⟨buf, marshalled, unmarshalled, nilIff⟩ := codec pq.metadata
  have ran : ((consolidate set pq).run serve start).1.store =
      Function.update (Function.update (Function.update
        (Function.update start.store .metadata (some buf)) .legacyReadIndex none)
        .legacyWriteIndex none) .legacyCurrentlyDispatchedItems none := by
    simp [consolidate, marshalled, serve, Client.note, Client.perform, batch]
  constructor
  · rw [ran]
    cases buf with
    | nil =>
      rw [nilIff.mp rfl]
      rfl
    | cons byte rest => simp [persisted, unmarshalled]
  · intro index
    rw [ran]
    simp [getItemKey]

theorem untouched {harmless : Prop} (holds : harmless) :
    (harmless → Survives set client.store client.store) ∧
      (Distinct set client.store → Survives set client.store client.store → harmless) :=
  ⟨fun _ => survives_of_unchanged client.store, fun _ _ => holds⟩

section loaded
variable {current : Bool} {loading stored : Nat} (loads : loading = if current then 1 else 3)
include loads

theorem harmless_stop (calls : Nat) :
    Fault.Harmless current stored (.stop (calls + loading)) ↔ Fault.HarmlessHere stored (.stop calls) := by
  cases current <;> simp only [loads, Fault.Harmless, Fault.HarmlessHere, Bool.false_eq_true, if_true, if_false] <;> omega

theorem harmless_refuse (position : Nat) (text : String) :
    Fault.Harmless current stored (.refuse (position + loading) text) ↔ Fault.HarmlessHere stored (.refuse position text) := by
  cases current <;> simp only [loads, Fault.Harmless, Fault.HarmlessHere, Bool.false_eq_true, if_true, if_false] <;> omega

end loaded

section current
variable (current : consolidated client.store = true) (listed : (persisted set client.store).currentlyDispatchedItems ≠ [])

include codec lossless current listed in
theorem recovery_current (fault : Fault) (formed : (persisted set client.store).WellFormed) :
    let after := (fault.client (initClient set { capacity := capacity }) client).store
    (fault.Harmless true (dispatchedRequests set client.store).length → Survives set client.store after) ∧
    (Distinct set client.store → Survives set client.store after →
      fault.Harmless true (dispatchedRequests set client.store).length) := by
  obtain ⟨next, shape, refused, loaded⟩ := @initClient_consolidated Ctx T set capacity client current
  have nonzero : persisted set client.store ≠ {} := by
    intro zero
    rw [zero] at listed
    exact listed rfl
  let start := client.note (.get .metadata)
  let pq : PersistentQueue :=
    { capacity := capacity, metadata := persisted set client.store, refClient := 1 }
  let rest : PersistentQueue → StorageM PersistentQueue := fun pq =>
    .ret { pq with metadata.currentlyDispatchedItems := [] }
  have enough := survives_enqueue codec lossless _ pq rest (fun _ => trivial) listed start
  have needed := harmless_of_survives codec lossless _ pq rest (fun _ => trivial) listed start
  have first : next (serve (.get .metadata) client).2 = (enqueueNotDispatchedReqs set
    (persisted set client.store).currentlyDispatchedItems pq >>= rest) := loaded nonzero
  rw [shape]
  cases fault with
  | stop calls =>
    cases calls with
    | zero => exact untouched _ (.inr (.inl (by decide)))
    | succ calls =>
      simp only [Fault.client, stopAfter_call, first]
      rw [@harmless_stop true 1 _ rfl]
      exact ⟨enough (.stop calls) rfl formed.ordered, needed (.stop calls) rfl formed.unique⟩
  | refuse position text =>
    cases position with
    | zero =>
      obtain ⟨pq, returned⟩ := refused text
      simp only [Fault.client, failAt_call_zero, refusal, returned, run_ret]
      exact untouched _ (.inr (.inl (by decide)))
    | succ position =>
      simp only [Fault.client, failAt_call_succ, first]
      rw [@harmless_refuse true 1 _ rfl]
      exact ⟨enough (.refuse position text) rfl formed.ordered, needed (.refuse position text) rfl formed.unique⟩

end current

section legacy
variable (legacy : consolidated client.store = false) (listed : (persisted set client.store).currentlyDispatchedItems ≠ [])

/-- The queue in memory once the reply for the legacy indices is in. -/
def legacyQueue (capacity : Int) (reply : Reply) : PersistentQueue :=
  { capacity := capacity
    metadata := { readIndex := (legacyIndices reply).1, writeIndex := (legacyIndices reply).2 }
    refClient := 1 }

include legacy listed in
theorem legacy_shape :
    ∃ first second : Reply → StorageM PersistentQueue, ∃ third : Reply → Reply → StorageM PersistentQueue,
      initClient set { capacity := capacity } = .call (.get .metadata) first ∧
      (∀ text, ∃ pq, first (.error (.storage text)) = .ret pq) ∧
      first (.ok [client.store .metadata]) = .call (.batch [.get .legacyReadIndex, .get .legacyWriteIndex]) second ∧
      (∀ reply, second reply = .call (.get .legacyCurrentlyDispatchedItems) (third reply)) ∧
      (∀ reply err, third reply (.error err) = consolidate set (legacyQueue capacity reply)) ∧
      ∀ reply, third reply (.ok [client.store .legacyCurrentlyDispatchedItems]) =
        (enqueueNotDispatchedReqs set (persisted set client.store).currentlyDispatchedItems
          (legacyQueue capacity reply) >>= consolidate set) := by
  obtain ⟨first, shape, refused, loaded⟩ := @initClient_legacy Ctx T set capacity client legacy
  rw [persisted_legacy client legacy] at listed ⊢
  have reads (reply : Reply) := @retrieveAndEnqueue_shape Ctx T set client (legacyQueue capacity reply) listed
  choose third read failed served using reads
  refine ⟨first, _, fun reply next => third reply next >>= consolidate set, shape, refused,
    loaded.trans (by rw [loadLegacyMetadata]), ?_, ?_, ?_⟩
  · intro reply
    change (retrieveAndEnqueueNotDispatchedReqs set (legacyQueue capacity reply) >>= consolidate set) = _
    rw [read reply, call_bind]
  · intro reply err
    simp only [failed reply err, ret_bind]
  · intro reply
    simp only [served reply]

/-- If the key of the dispatched items was not read, no index refers to them after recovery. -/
theorem unread_forgotten {after : Client} {readIndex : Nat} (formed : (persisted set client.store).WellFormed)
    (read : readIndex = (persisted set client.store).readIndex) (same : SameItems client.store after)
    (tracked : ∀ index ∈ (persisted set after.store).tracked, readIndex ≤ index)
    (distinct : Distinct set client.store) (survives : Survives set client.store after.store) :
    dispatchedRequests set client.store = [] := by
  rw [eq_nil_iff_forall_not_mem]
  intro req member
  obtain ⟨index, inside, present⟩ := survives req member
  obtain ⟨origin, dispatched, stored⟩ := mem_filterMap.mp member
  have moved : requestAt set.encoding client.store index = some req := (same.requestAt index).symm.trans present
  have least := tracked index inside
  have below := formed.below origin dispatched
  rw [distinct index origin req moved stored] at least
  omega

include codec lossless legacy listed in
theorem recovery_legacy (fault : Fault) (formed : (persisted set client.store).WellFormed) :
    let after := (fault.client (initClient set { capacity := capacity }) client).store
    (fault.Harmless false (dispatchedRequests set client.store).length → Survives set client.store after) ∧
    (Distinct set client.store → Survives set client.store after →
      fault.Harmless false (dispatchedRequests set client.store).length) := by
  obtain ⟨first, second, third, shape, refused, one, two, failed, three⟩ :=
    @legacy_shape Ctx T set capacity client legacy listed
  let indices : Reply := .ok [client.store .legacyReadIndex, client.store .legacyWriteIndex]
  let pq := legacyQueue capacity indices
  let getIndices : Call := .batch [.get .legacyReadIndex, .get .legacyWriteIndex]
  let getDispatched : Call := .get .legacyCurrentlyDispatchedItems
  let loaded := (serve getIndices (serve (.get .metadata) client).1).1
  let start := (serve getDispatched loaded).1
  have sameIndices : pq.metadata.readIndex = (persisted set client.store).readIndex ∧
      pq.metadata.writeIndex = (persisted set client.store).writeIndex := by
    rw [persisted_legacy client legacy]
    exact ⟨rfl, rfl⟩
  have ordered : pq.metadata.readIndex ≤ pq.metadata.writeIndex := by
    rw [sameIndices.1, sameIndices.2]
    exact formed.ordered
  have enough (fault : Fault) := survives_enqueue codec lossless _ pq (consolidate set)
    consolidate_uses listed start fault rfl ordered
  have needed (fault : Fault) := harmless_of_survives codec lossless _ pq (consolidate set)
    consolidate_uses listed start fault rfl formed.unique
  have firstReply : first (serve (.get .metadata) client).2 = .call getIndices second := one
  have thirdReply : third (serve getIndices (serve (.get .metadata) client).1).2
      (serve getDispatched loaded).2 = (enqueueNotDispatchedReqs set
        (persisted set client.store).currentlyDispatchedItems pq >>= consolidate set) := three indices
  rw [shape]
  cases fault with
  | stop calls =>
    match calls with
    | 0 => exact untouched _ (.inr (.inl (by decide)))
    | 1 =>
      simp only [Fault.client, stopAfter_call, stopAfter_zero]
      exact untouched _ (.inr (.inl (by decide)))
    | 2 =>
      simp only [Fault.client, stopAfter_call, firstReply, stopAfter_zero]
      exact untouched _ (.inr (.inl (by decide)))
    | calls + 3 =>
      simp only [Fault.client, stopAfter_call, firstReply, two]
      rw [@harmless_stop false 3 _ rfl, thirdReply]
      exact ⟨enough (.stop calls), needed (.stop calls)⟩
  | refuse position text =>
    match position with
    | 0 =>
      obtain ⟨pq, returned⟩ := refused text
      simp only [Fault.client, failAt_call_zero, refusal, returned, run_ret]
      exact untouched _ (.inr (.inl (by decide)))
    | 1 =>
      -- the indices start again at zero, where the dispatched items are put
      simp only [Fault.client, failAt_call_succ, firstReply, failAt_call_zero, two, run_call, refusal]
      have zero := three (.error (.storage text))
      have reply : (serve getDispatched (serve (.get .metadata) client).1).2 =
          .ok [client.store .legacyCurrentlyDispatchedItems] := rfl
      rw [reply, zero]
      exact ⟨fun _ => enqueue_run_found codec lossless _ (legacyQueue capacity _) (consolidate set)
        consolidate_uses listed (serve getDispatched (serve (.get .metadata) client).1).1 (le_refl 0),
        fun _ _ => .inr (.inl (by decide))⟩
    | 2 =>
      simp only [Fault.client, failAt_call_succ, firstReply, failAt_call_zero, two, refusal, failed]
      obtain ⟨persistedAfter, same⟩ := persisted_consolidate codec pq loaded
      constructor
      · intro harmless req member
        have none : (dispatchedRequests set client.store).length = 0 := by
          simp only [Fault.Harmless, Bool.false_eq_true, if_false] at harmless
          omega
        rw [eq_nil_of_length_eq_zero none] at member
        cases member
      · intro distinct survives
        left
        rw [length_eq_zero_iff]
        refine unread_forgotten client formed sameIndices.1 same (fun index tracked => ?_) distinct survives
        rcases (mem_tracked _ index).mp (persistedAfter ▸ tracked) with waiting | dispatched
        · exact waiting.1
        · cases dispatched
    | position + 3 =>
      simp only [Fault.client, failAt_call_succ, firstReply, two]
      rw [@harmless_refuse false 3 _ rfl, thirdReply]
      exact ⟨enough (.refuse position text), needed (.refuse position text)⟩

end legacy

/-- Recovery keeps every dispatched request through harmless faults, and through
no others unless two indices hold the same request. -/
theorem recovery_survives_iff (codec : set.proto.Lossless) (lossless : set.encoding.Lossless)
    (capacity : Int) (client : Client) (fault : Fault)
    (formed : (persisted set client.store).WellFormed)
    (listed : (persisted set client.store).currentlyDispatchedItems ≠ []) :
    let after := (fault.client (initClient set { capacity := capacity }) client).store
    let harmless := fault.Harmless (consolidated client.store) (dispatchedRequests set client.store).length
    (harmless → Survives set client.store after) ∧
      (Distinct set client.store → (Survives set client.store after ↔ harmless)) := by
  intro after harmless
  have both : (harmless → Survives set client.store after) ∧
      (Distinct set client.store → Survives set client.store after → harmless) := by
    cases current : consolidated client.store with
    | true =>
      simp only [harmless, current]
      exact recovery_current codec lossless capacity client current listed fault formed
    | false =>
      simp only [harmless, current]
      exact recovery_legacy codec lossless capacity client current listed fault formed
  exact ⟨both.1, fun distinct => ⟨both.2 distinct, both.1⟩⟩

end recovery

section parcel

def dispatchedParcel : Client :=
  { Client.fresh with
    store := fun
      | .metadata => some (Metadata.wire ⟨3, 40, 1, 1, [0]⟩)
      | .item 0 => some (unary [3, 40])
      | _ => none }

theorem dispatchedParcel_persisted : persisted (parcelSettings .items) dispatchedParcel.store = ⟨3, 40, 1, 1, [0]⟩ := by
  decide +kernel

/-- The process stops between the deletion and the put that would have followed. -/
theorem recovery_loses_parcel :
    dispatchedRequests (parcelSettings .items) dispatchedParcel.store = [⟨3, 40⟩] ∧
    ¬ Survives (parcelSettings .items) dispatchedParcel.store
      ((Fault.stop 3).client (initClient (parcelSettings .items) { capacity := 10 }) dispatchedParcel).store := by
  constructor
  · decide +kernel
  · unfold Survives
    decide +kernel

theorem dispatchedParcel_distinct : Distinct (parcelSettings .items) dispatchedParcel.store := by
  intro left right req first second
  cases left with
  | succ left => cases first
  | zero =>
    cases right with
    | succ right => cases second
    | zero => rfl

theorem recovery_survives_parcel :
    Survives (parcelSettings .items) dispatchedParcel.store
      ((Fault.refuse 2 "disk full").client (initClient (parcelSettings .items) { capacity := 10 })
        dispatchedParcel).store ∧
    (Survives (parcelSettings .items) dispatchedParcel.store
      ((Fault.stop 4).client (initClient (parcelSettings .items) { capacity := 10 }) dispatchedParcel).store ↔
      (Fault.stop 4).Harmless (consolidated dispatchedParcel.store)
        (dispatchedRequests (parcelSettings .items) dispatchedParcel.store).length) := by
  have formed : (persisted (parcelSettings .items) dispatchedParcel.store).WellFormed := by
    rw [dispatchedParcel_persisted]
    exact ⟨by decide, by decide, by decide⟩
  have listed : (persisted (parcelSettings .items) dispatchedParcel.store).currentlyDispatchedItems ≠ [] := by
    rw [dispatchedParcel_persisted]
    decide
  have holds := @recovery_survives_iff Unit Parcel (parcelSettings .items) metadataProto_lossless
    parcelEncoding_lossless 10 dispatchedParcel
  exact ⟨(holds (.refuse 2 "disk full") formed listed).1 (.inr (.inr (.inl rfl))),
    (holds (.stop 4) formed listed).2 dispatchedParcel_distinct⟩

end parcel

end CollectorFormal.Queue
