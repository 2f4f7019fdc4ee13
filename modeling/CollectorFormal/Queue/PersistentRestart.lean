import CollectorFormal.Queue.PersistentAccounts
import CollectorFormal.Queue.PersistentCodec
import Mathlib.Logic.Relation

/-! Runs of a persistent queue over one storage, with the process stopped between
any two storage calls and started again any number of times. -/

namespace CollectorFormal.Queue

open Lib List Program

variable {Ctx T : Type} [Request T]

/-- A running queue, and the reads whose OnDone was not called yet. -/
structure Process (T : Type) where
  queue : PersistentQueue
  outstanding : List (Handle T) := []

structure World (T : Type) where
  client : Client
  process : Option (Process T)
  books : Books T

def World.fresh (capacity : Int) : World T := ⟨.fresh, none, { capacity := capacity }⟩

/-- The request is recorded once a batch was committed between the two states. -/
def record (req : T) (before after : Client) (log : Multiset T) : Multiset T :=
  if before.commits < after.commits then req ::ₘ log else log

def Books.offer (req : T) (before after : Client) (books : Books T) : Books T :=
  { books with offered := record req before after books.offered }

def Books.done (req : T) (consumeErr : ConsumeErr) (before after : Client) (books : Books T) : Books T :=
  if consumeErr.isShutdownErr then books
  else { books with finished := record req before after books.finished }

def Books.restart (capacity : Int) (books : Books T) : Books T :=
  { books with
    capacity := capacity
    lowered := books.lowered || decide (capacity < books.capacity) }

def ReadResult.handles : ReadResult Ctx T → List (Handle T)
  | .item _ req done => [⟨done, req⟩]
  | .stopped | .wait => []

section transitions
variable (set : Settings Ctx T)

def World.offer (ctx : Ctx) (req : T) (process : Process T) (world : World T) : World T :=
  let r := (Queue.offer set ctx req process.queue).run serve world.client
  ⟨r.1, some { process with queue := r.2.1 }, world.books.offer req world.client r.1⟩

def World.read (process : Process T) (world : World T) : World T :=
  let r := (Queue.read set process.queue).run serve world.client
  ⟨r.1, some ⟨r.2.1, process.outstanding ++ r.2.2.handles⟩, world.books⟩

def World.onDone (handle : Handle T) (consumeErr : ConsumeErr) (queue : PersistentQueue)
    (rest : List (Handle T)) (world : World T) : World T :=
  let r := (Queue.onDone set handle.done consumeErr queue).run serve world.client
  ⟨r.1, some ⟨r.2, rest⟩, world.books.done handle.req consumeErr world.client r.1⟩

/-- The process is gone after `limit` storage calls of an Offer. -/
def World.stopOffer (ctx : Ctx) (req : T) (limit : Nat) (process : Process T) (world : World T) : World T :=
  let client := (Queue.offer set ctx req process.queue).stopAfter serve limit world.client
  ⟨client, none, world.books.offer req world.client client⟩

def World.stopRead (limit : Nat) (process : Process T) (world : World T) : World T :=
  ⟨(Queue.read set process.queue).stopAfter serve limit world.client, none, world.books⟩

def World.stopOnDone (handle : Handle T) (consumeErr : ConsumeErr) (limit : Nat)
    (queue : PersistentQueue) (world : World T) : World T :=
  let client := (Queue.onDone set handle.done consumeErr queue).stopAfter serve limit world.client
  ⟨client, none, world.books.done handle.req consumeErr world.client client⟩

/-- A new process on the same storage, possibly configured with another capacity. -/
def World.restart (capacity : Int) (world : World T) : World T :=
  let r := (initClient set { capacity := capacity }).run serve world.client
  ⟨r.1, some { queue := r.2 }, world.books.restart capacity⟩

inductive Step : World T → World T → Prop where
  | offer (world : World T) (process : Process T) (ctx : Ctx) (req : T)
      (running : world.process = some process) : Step world (world.offer set ctx req process)
  | read (world : World T) (process : Process T) (running : world.process = some process) :
      Step world (world.read set process)
  | onDone (world : World T) (queue : PersistentQueue) (front back : List (Handle T))
      (handle : Handle T) (consumeErr : ConsumeErr)
      (running : world.process = some ⟨queue, front ++ handle :: back⟩) :
      Step world (world.onDone set handle consumeErr queue (front ++ back))
  | stopOffer (world : World T) (process : Process T) (ctx : Ctx) (req : T) (limit : Nat)
      (running : world.process = some process) :
      Step world (world.stopOffer set ctx req limit process)
  | stopRead (world : World T) (process : Process T) (limit : Nat)
      (running : world.process = some process) : Step world (world.stopRead set limit process)
  | stopOnDone (world : World T) (queue : PersistentQueue) (front back : List (Handle T))
      (handle : Handle T) (consumeErr : ConsumeErr) (limit : Nat)
      (running : world.process = some ⟨queue, front ++ handle :: back⟩) :
      Step world (world.stopOnDone set handle consumeErr limit queue)
  | restart (world : World T) (capacity : Int) (stopped : world.process = none) :
      Step world (world.restart set capacity)

def Reachable (capacity : Int) (world : World T) : Prop :=
  Relation.ReflTransGen (Step set) (World.fresh capacity) world

structure Running (store : Store) (books : Books T) (process : Process T) : Prop where
  accounts : Accounts set store books process.queue.metadata
  intact : Intact set store process.queue.metadata
  active : process.queue.stopped = false
  capacity : process.queue.capacity = books.capacity
  distinct : (process.outstanding.map (·.done.index)).Nodup
  valid : ∀ handle ∈ process.outstanding, handle.Valid set store process.queue.metadata

/-- What the storage holds accounts for the books, and so does the memory of a
running process. -/
structure Sound (world : World T) : Prop where
  durable : ∃ metadata, Holds set world.client.store metadata ∧ Accounts set world.client.store world.books metadata
  running : ∀ process, world.process = some process → Running set world.client.store world.books process

end transitions

variable {set : Settings Ctx T}

theorem sound_fresh (capacity : Int) : Sound set (World.fresh capacity : World T) :=
  ⟨⟨{}, .inl ⟨rfl, rfl⟩, accounts_fresh set capacity⟩, fun _ running => by cases running⟩

omit [Request T] in
@[simp] theorem record_unchanged (req : T) {before after : Client} (log : Multiset T)
    (same : after.commits = before.commits) : record req before after log = log := by
  simp [record, same]

omit [Request T] in
@[simp] theorem record_committed (req : T) {before after : Client} (log : Multiset T)
    (committed : after.commits = before.commits + 1) : record req before after log = req ::ₘ log := by
  simp [record, committed]

/-- An operation changed nothing durable, or the store now holds the metadata of
the process, which accounts for the books. -/
def Settled (set : Settings Ctx T) (client after : Client) (before books : Books T) (metadata : Metadata) : Prop :=
  (after.durable = client.durable ∧ books = before) ∨
    (Holds set after.store metadata ∧ Accounts set after.store books metadata)

theorem Settled.durable {client after : Client} {before books : Books T} {metadata : Metadata}
    (settled : Settled set client after before books metadata)
    (start : ∃ metadata, Holds set client.store metadata ∧ Accounts set client.store before metadata) :
    ∃ metadata, Holds set after.store metadata ∧ Accounts set after.store books metadata := by
  rcases settled with ⟨same, rfl⟩ | ⟨holds, accounts⟩
  · have store : after.store = client.store := congrArg Prod.fst same
    rw [store]
    exact start
  · exact ⟨metadata, holds, accounts⟩

section operations
variable (codec : set.proto.Lossless) (lossless : set.encoding.Lossless)
variable {client : Client} {books : Books T} {process : Process T}

theorem handle_kept {store next : Store} {metadata later : Metadata} {handle : Handle T}
    (valid : handle.Valid set store metadata)
    (listed : handle.done.index ∈ later.currentlyDispatchedItems)
    (same : requestAt set.encoding next handle.done.index =
      requestAt set.encoding store handle.done.index) : handle.Valid set next later :=
  ⟨listed, same.trans valid.present, valid.items, valid.bytes⟩

include codec lossless in
theorem running_offer (running : Running set client.store books process) (ctx : Ctx) (req : T) :
    let r := (offer set ctx req process.queue).run serve client
    Running set r.1.store (books.offer req client r.1) { process with queue := r.2.1 } ∧
      Settled set client r.1 books (books.offer req client r.1) r.2.1.metadata := by
  rcases offer_run codec lossless ctx req process.queue client with
    ⟨-, result, ran⟩ | ⟨fits, after, reqBuf, restored, ran, decoded, wrote⟩
  · simp only [ran, Books.offer, record_unchanged]
    exact ⟨running, .inl ⟨rfl, rfl⟩⟩
  · simp only [ran, Books.offer, record_committed req books.offered wrote.commits]
    have accounts := running.accounts.append running.intact (running.capacity ▸ fits) wrote decoded
    have kept (index : Nat) (member : index ∈ process.queue.metadata.currentlyDispatchedItems) :
        requestAt set.encoding after.store index = requestAt set.encoding client.store index := by
      apply wrote.requestAt_other
      have := running.accounts.backed.formed.below index member
      have := running.accounts.backed.formed.ordered
      omega
    refine ⟨⟨accounts, ?_, running.active, running.capacity, running.distinct, ?_⟩, .inr ⟨wrote.holds, accounts⟩⟩
    · intro index member
      rw [kept index member]
      exact running.intact index member
    · intro handle member
      have valid := running.valid handle member
      exact handle_kept valid valid.dispatched (kept _ valid.dispatched)

include codec in
theorem running_read (running : Running set client.store books process) :
    let r := (read set process.queue).run serve client
    Running set r.1.store books ⟨r.2.1, process.outstanding ++ r.2.2.handles⟩ ∧
      Settled set client r.1 books books r.2.1.metadata ∧
      ∀ limit, ((read set process.queue).stopAfter serve limit client).durable = client.durable ∨
        ((read set process.queue).stopAfter serve limit client).durable = r.1.durable := by
  have formed := running.accounts.backed.formed
  by_cases more : process.queue.metadata.readIndex < process.queue.metadata.writeIndex
  · obtain ⟨req, present⟩ := running.accounts.backed.waiting process.queue.metadata.readIndex (by simp [more])
    obtain ⟨after, ctx, ran, wrote, stops⟩ :=
      read_run codec process.queue client req running.active more present
    obtain ⟨-, -, kept⟩ := wrote.take rfl running.accounts.backed more
    have accounts := running.accounts.take more wrote
    have fresh : process.queue.metadata.readIndex ∉ process.outstanding.map (·.done.index) := by
      intro member
      obtain ⟨handle, member, same⟩ := mem_map.mp member
      have := formed.below _ (running.valid handle member).dispatched
      omega
    simp only [ran, ReadResult.handles]
    refine ⟨⟨accounts, ?_, running.active, running.capacity, ?_, ?_⟩, .inr ⟨wrote.holds, accounts⟩, stops⟩
    · intro index member
      rw [kept]
      rcases mem_append.mp member with old | last
      · exact running.intact index old
      · exact ⟨req, by rw [mem_singleton.mp last, present]⟩
    · rw [map_append, nodup_append]
      refine ⟨running.distinct, nodup_singleton _, ?_⟩
      rintro index member last found same
      rw [mem_singleton.mp found] at same
      obtain rfl : index = process.queue.metadata.readIndex := same
      exact fresh member
    · intro handle member
      rcases mem_append.mp member with old | last
      · have valid := running.valid handle old
        exact handle_kept valid (mem_append_left _ valid.dispatched) (kept _)
      · rw [mem_singleton.mp last]
        exact ⟨mem_append_right _ mem_cons_self, (kept _).trans present, rfl, rfl⟩
  · have empty : read set process.queue = .ret (process.queue, .wait) :=
      read_empty process.queue running.active (le_antisymm formed.ordered (not_lt.mp more))
    simp only [empty, run_ret, ReadResult.handles, append_nil]
    exact ⟨running, .inl ⟨rfl, rfl⟩, fun limit => .inl (by rw [stopAfter_ret])⟩

include codec in
theorem running_onDone {front back : List (Handle T)} {queue : PersistentQueue} (handle : Handle T)
    (running : Running set client.store books ⟨queue, front ++ handle :: back⟩)
    (consumeErr : ConsumeErr) :
    let r := (onDone set handle.done consumeErr queue).run serve client
    Running set r.1.store (books.done handle.req consumeErr client r.1) ⟨r.2, front ++ back⟩ ∧
      Settled set client r.1 books (books.done handle.req consumeErr client r.1) r.2.metadata := by
  intro r
  have valid := running.valid handle (by simp)
  have remaining : (front ++ back).Sublist (front ++ handle :: back) :=
    (List.Sublist.refl front).append (sublist_cons_self handle back)
  have distinct := running.distinct.sublist (remaining.map (·.done.index))
  cases shutdown : consumeErr.isShutdownErr with
  | true =>
    obtain ⟨durable, -, ran⟩ :=
      @onDone_shutdown Ctx T set handle.done consumeErr queue client 0 shutdown
    have store : r.1.store = client.store := congrArg Prod.fst durable
    have queue' : r.2 = { queue with refClient := queue.refClient - 1 } := ran
    rw [store, queue', Books.done, if_pos shutdown]
    exact ⟨{ running with
        distinct, valid := fun other member => running.valid other (remaining.subset member) }, .inl ⟨durable, rfl⟩⟩
  | false =>
    obtain ⟨wrote, ran⟩ := onDone_run codec handle.done consumeErr queue client shutdown
    obtain ⟨accounts, intact⟩ := running.accounts.finish running.intact valid wrote
    have queue' : r.2 = { queue with
        metadata := queue.metadata.finished handle.done, refClient := queue.refClient - 1 } := ran
    rw [queue', Books.done, shutdown, if_neg (by decide), record_committed handle.req books.finished wrote.commits]
    refine ⟨⟨accounts, intact, running.active, running.capacity, distinct, ?_⟩, .inr ⟨wrote.holds, accounts⟩⟩
    intro other member
    have otherValid := running.valid other (remaining.subset member)
    have different : other.done.index ≠ handle.done.index := by
      have order := running.distinct
      rw [map_append, map_cons, nodup_middle, nodup_cons, ← map_append] at order
      intro same
      exact order.1 (same ▸ mem_map_of_mem member)
    refine handle_kept otherValid ?_ (wrote.requestAt_other _ different)
    rw [Metadata.finished, (resetIfDrained_indices _).2.2]
    exact (mem_swapRemove _ _ _ running.accounts.backed.formed.unique).mpr ⟨different, otherValid.dispatched⟩

theorem Settled.stop {final after : Client} {metadata : Metadata} (update : Client → Books T)
    (settled : Settled set client final books (update final) metadata)
    (idle : ∀ other, other.durable = client.durable → update other = books)
    (same : ∀ other, other.durable = final.durable → update other = update final)
    (stop : after.durable = client.durable ∨ after.durable = final.durable)
    (start : ∃ metadata, Holds set client.store metadata ∧ Accounts set client.store books metadata) :
    ∃ metadata, Holds set after.store metadata ∧ Accounts set after.store (update after) metadata := by
  rcases stop with unchanged | finished
  · have store : after.store = client.store := congrArg Prod.fst unchanged
    rw [idle after unchanged, store]
    exact start
  · have store : after.store = final.store := congrArg Prod.fst finished
    rw [same after finished, store]
    exact settled.durable start

omit [Request T] in
theorem offer_congr (req : T) {left right : Client} (same : left.durable = right.durable) :
    books.offer req client left = books.offer req client right := by
  have commits : left.commits = right.commits := congrArg Prod.snd same
  rw [Books.offer, Books.offer, record, record, commits]

omit [Request T] in
theorem done_congr (req : T) (consumeErr : ConsumeErr) {left right : Client} (same : left.durable = right.durable) :
    books.done req consumeErr client left = books.done req consumeErr client right := by
  have commits : left.commits = right.commits := congrArg Prod.snd same
  rw [Books.done, Books.done, record, record, commits]

omit [Request T] in
theorem offer_idle (req : T) : books.offer req client client = books := by
  rw [Books.offer, record_unchanged req books.offered rfl]

omit [Request T] in
theorem done_idle (req : T) (consumeErr : ConsumeErr) : books.done req consumeErr client client = books := by
  rw [Books.done, record_unchanged req books.finished rfl]
  split <;> rfl

omit [Request T] in
include codec in
theorem onDone_stop_durable (id : IndexDone) (consumeErr : ConsumeErr) (pq : PersistentQueue) (limit : Nat) :
    ((onDone set id consumeErr pq).stopAfter serve limit client).durable = client.durable ∨
      ((onDone set id consumeErr pq).stopAfter serve limit client).durable =
        ((onDone set id consumeErr pq).run serve client).1.durable := by
  cases shutdown : consumeErr.isShutdownErr with
  | true => exact .inl (onDone_shutdown id consumeErr pq client limit shutdown).2.1
  | false => exact onDone_stop codec id consumeErr pq client limit shutdown

include codec lossless in
theorem restart_sound (capacity : Int) {world : World T} (sound : Sound set world) :
    Sound set (world.restart set capacity) := by
  obtain ⟨metadata, holds, accounts⟩ := sound.durable
  obtain ⟨after, recovered, ran, stored, same, gone, items, bytes⟩ :=
    initClient_run codec lossless capacity world.client metadata ⟨accounts.backed, holds⟩
  have accountsAfter := accounts.recovered stored.toBacked same items bytes capacity
  simp only [World.restart, ran]
  refine ⟨⟨recovered, stored.holds, accountsAfter⟩, ?_⟩
  intro process started
  obtain rfl := Option.some.inj started
  exact ⟨accountsAfter.forgetDispatched gone, fun _ member => absurd member not_mem_nil, rfl,
    rfl, nodup_nil, fun _ member => absurd member not_mem_nil⟩

include codec lossless in
theorem step_sound {before after : World T} (sound : Sound set before) (step : Step set before after) :
    Sound set after := by
  cases step with
  | offer process ctx req running =>
    obtain ⟨kept, settled⟩ := running_offer codec lossless (sound.running _ running) ctx req
    exact ⟨settled.durable sound.durable, fun _ next => Option.some.inj next ▸ kept⟩
  | read process running =>
    obtain ⟨kept, settled, -⟩ := running_read codec (sound.running _ running)
    exact ⟨settled.durable sound.durable, fun _ next => Option.some.inj next ▸ kept⟩
  | onDone queue front back handle consumeErr running =>
    obtain ⟨kept, settled⟩ := running_onDone codec handle (sound.running _ running) consumeErr
    exact ⟨settled.durable sound.durable, fun _ next => Option.some.inj next ▸ kept⟩
  | stopOffer process ctx req limit running =>
    obtain ⟨-, settled⟩ := running_offer codec lossless (sound.running _ running) ctx req
    refine ⟨?_, fun _ next => by cases next⟩
    exact settled.stop (fun after => before.books.offer req before.client after)
      (fun _ unchanged => (offer_congr req unchanged).trans (offer_idle req))
      (fun _ finished => offer_congr req finished)
      (offer_stop codec lossless ctx req process.queue before.client limit) sound.durable
  | stopRead process limit running =>
    obtain ⟨-, settled, stops⟩ := running_read codec (sound.running _ running)
    refine ⟨?_, fun _ next => by cases next⟩
    exact settled.stop (fun _ => before.books) (fun _ _ => rfl) (fun _ _ => rfl) (stops limit) sound.durable
  | stopOnDone queue front back handle consumeErr limit running =>
    obtain ⟨-, settled⟩ := running_onDone codec handle (sound.running _ running) consumeErr
    refine ⟨?_, fun _ next => by cases next⟩
    exact settled.stop (fun after => before.books.done handle.req consumeErr before.client after)
      (fun _ unchanged => (done_congr handle.req consumeErr unchanged).trans (done_idle handle.req _))
      (fun _ finished => done_congr handle.req consumeErr finished)
      (onDone_stop_durable codec handle.done consumeErr queue limit) sound.durable
  | restart capacity stopped => exact restart_sound codec lossless capacity sound

include codec lossless in
theorem reachable_sound {capacity : Int} {world : World T} (reached : Reachable set capacity world) :
    Sound set world := by
  induction reached with
  | refl => exact sound_fresh capacity
  | tail _ step sound => exact step_sound codec lossless sound step

end operations

/-- Up to `count` Reads in a row, until one of them finds nothing. -/
def successiveReads (set : Settings Ctx T) :
    Nat → PersistentQueue → StorageM (PersistentQueue × List T)
  | 0, pq => .ret (pq, [])
  | count + 1, pq =>
    read set pq >>= fun r =>
      match r.2 with
      | .item _ req _ =>
        successiveReads set count r.1 >>= fun later => .ret (later.1, req :: later.2)
      | .stopped | .wait => .ret (r.1, [])

theorem successiveReads_run (codec : set.proto.Lossless) (count : Nat) (pq : PersistentQueue)
    (client : Client) (backed : Backed set client.store pq.metadata) (active : pq.stopped = false)
    (enough : pq.metadata.writeIndex - pq.metadata.readIndex ≤ count) :
    ((successiveReads set count pq).run serve client).2.2 =
      pq.metadata.waiting.filterMap (requestAt set.encoding client.store) := by
  induction count generalizing pq client with
  | zero =>
    have nothing : pq.metadata.writeIndex - pq.metadata.readIndex = 0 := Nat.le_zero.mp enough
    rw [Metadata.waiting, nothing]
    rfl
  | succ count ih =>
    by_cases more : pq.metadata.readIndex < pq.metadata.writeIndex
    · obtain ⟨req, present⟩ := backed.waiting pq.metadata.readIndex (by simp [more])
      obtain ⟨after, ctx, ran, wrote, -⟩ := read_run codec pq client req active more present
      obtain ⟨stored, -, kept⟩ := wrote.take rfl backed more
      have later := ih { pq with
          metadata := pq.metadata.takeNext, refClient := pq.refClient + 1 } after stored.toBacked
        active (by simp only [Metadata.takeNext]; omega)
      rw [successiveReads, run_bind, ran]
      simp only [run_bind, run_ret]
      rw [later, waiting_takeNext pq.metadata more, filterMap_cons, present]
      simp only [kept]
    · have drained := le_antisymm backed.formed.ordered (not_lt.mp more)
      rw [successiveReads, read_empty pq active drained, Metadata.waiting, drained, Nat.sub_self]
      rfl

/-- However often the process was stopped and started again, the next one reads exactly the requests committed by
Offer and not yet deleted by OnDone, each as often as it was offered. -/
theorem restart_reads_unfinished (codec : set.proto.Lossless) (lossless : set.encoding.Lossless)
    {start : Int} {world : World T} (reached : Reachable set start world)
    (stopped : world.process = none) (capacity : Int) :
    let recovered := (initClient set { capacity := capacity }).run serve world.client
    ∃ reads : List T, ↑reads + world.books.finished = world.books.offered ∧
      ∀ count, reads.length ≤ count → ((successiveReads set count recovered.2).run serve recovered.1).2.2 = reads := by
  intro recovered
  have next : Step set world (world.restart set capacity) := .restart world capacity stopped
  have running := (reachable_sound codec lossless (reached.tail next)).running _ rfl
  obtain ⟨metadata, holds, accounts⟩ := (reachable_sound codec lossless reached).durable
  obtain ⟨after, found, ran, -⟩ :=
    initClient_run codec lossless capacity world.client metadata ⟨accounts.backed, holds⟩
  have dispatched : recovered.2.metadata.currentlyDispatchedItems = [] := by
    simp only [recovered, ran]
  have backed : Backed set recovered.1.store recovered.2.metadata := running.accounts.backed
  refine ⟨recovered.2.metadata.waiting.filterMap (requestAt set.encoding recovered.1.store), ?_, ?_⟩
  · have ledger : live set.encoding recovered.1.store recovered.2.metadata + world.books.finished =
        world.books.offered := running.accounts.ledger
    rwa [live, Metadata.tracked, dispatched, append_nil] at ledger
  · intro count enough
    apply successiveReads_run codec count recovered.2 recovered.1 backed running.active
    have size : (recovered.2.metadata.waiting.filterMap
        (requestAt set.encoding recovered.1.store)).length =
          recovered.2.metadata.writeIndex - recovered.2.metadata.readIndex := by
      rw [length_filterMap_eq_countP, countP_eq_length.mpr, Metadata.waiting, length_range']
      intro index member
      obtain ⟨req, present⟩ := backed.waiting index member
      rw [present]
      rfl
    omega

def parcelOffered : World Parcel :=
  ((World.fresh 10).restart (parcelSettings .items) 10).offer (parcelSettings .items) () ⟨3, 40⟩
    { queue := { capacity := 10, refClient := 1 } }

/-- Then a Read was stopped after its batch. -/
def parcelStopped : World Parcel :=
  parcelOffered.stopRead (parcelSettings .items) 1
    { queue := {
        capacity := 10
        metadata := { itemsSize := 3, bytesSize := 40, writeIndex := 1 }
        refClient := 1 } }

theorem parcelOffered_reachable : Reachable (parcelSettings .items) 10 parcelOffered :=
  (Relation.ReflTransGen.refl.tail (Step.restart _ 10 rfl)).tail (Step.offer _ _ () _ rfl)

theorem parcelStopped_reachable : Reachable (parcelSettings .items) 10 parcelStopped :=
  parcelOffered_reachable.tail (Step.stopRead _ _ 1 rfl)

theorem restart_reads_parcel :
    parcelStopped.books.offered = {⟨3, 40⟩} ∧
    ∃ reads : List Parcel, ↑reads + parcelStopped.books.finished = parcelStopped.books.offered ∧
      ∀ count, reads.length ≤ count →
        ((successiveReads (parcelSettings .items) count
          ((initClient (parcelSettings .items) { capacity := 10 }).run serve parcelStopped.client).2).run
            serve ((initClient (parcelSettings .items) { capacity := 10 }).run serve
              parcelStopped.client).1).2.2 = reads :=
  ⟨rfl, restart_reads_unfinished metadataProto_lossless parcelEncoding_lossless parcelStopped_reachable rfl 10⟩

/-- The sizes in memory are the sums over the unfinished requests, never clamped or reset, within the capacity. -/
theorem sizes_exact (codec : set.proto.Lossless) (lossless : set.encoding.Lossless)
    (nonneg : NonnegativeSizes T) {start : Int} {world : World T}
    (reached : Reachable set start world) {process : Process T}
    (started : world.process = some process) :
    let metadata := process.queue.metadata
    let unfinished := live set.encoding world.client.store metadata
    unfinished + world.books.finished = world.books.offered ∧
    metadata.itemsSize = (unfinished.map Request.itemsCount).sum ∧
    metadata.bytesSize = (unfinished.map Request.bytesSize).sum ∧
    metadata.requestSize = unfinished.card ∧
    (∀ handle ∈ process.outstanding,
      Metadata.clamp (metadata.bytesSize - handle.done.bytesSize) = metadata.bytesSize - handle.done.bytesSize ∧
      Metadata.clamp (metadata.itemsSize - handle.done.itemsSize) = metadata.itemsSize - handle.done.itemsSize ∧
      let done := (metadata.subtractSizes handle.done).dropDispatched handle.done.index
      done.resetIfDrained = done) ∧
    (metadata.readIndex < metadata.writeIndex → metadata.takeNext.resetIfDrained = metadata.takeNext) ∧
    (0 ≤ world.books.capacity → world.books.lowered = false →
      metadata.internalSize set.sizerType ≤ process.queue.capacity) := by
  intro metadata unfinished
  have running := (reachable_sound codec lossless reached).running process started
  refine ⟨running.accounts.ledger, running.accounts.items nonneg, running.accounts.bytes nonneg,
    (card_live running.accounts.backed running.intact).symm, ?_, resetIfDrained_takeNext metadata, ?_⟩
  · intro handle member
    have valid := running.valid handle member
    obtain ⟨items, bytes⟩ := running.accounts.covers valid nonneg
    refine ⟨clamp_of_nonneg _ bytes, clamp_of_nonneg _ items, ?_⟩
    obtain ⟨wrote, -⟩ := onDone_run codec handle.done .none process.queue world.client rfl
    exact (running.accounts.drop valid wrote).resetIfDrained_eq
      (running.intact.drop running.accounts.backed.formed wrote) nonneg
  · intro positive raised
    rw [running.capacity]
    calc
      metadata.internalSize set.sizerType = _ :=
        running.accounts.internalSize running.intact nonneg set.sizerType
      _ ≤ max 0 world.books.capacity := running.accounts.bounded nonneg raised
      _ ≤ world.books.capacity := max_le positive (le_refl _)

theorem parcel_sizes_nonneg : NonnegativeSizes Parcel := fun parcel =>
  ⟨Int.natCast_nonneg parcel.items, Int.natCast_nonneg parcel.bytes⟩

theorem sizes_exact_parcel :
    parcelOffered.process.map (·.queue.metadata.itemsSize) = some 3 ∧
    (live parcelEncoding parcelOffered.client.store
        { itemsSize := 3, bytesSize := 40, writeIndex := 1 }).card = (1 : Int) ∧
    (3 : Int) ≤ 10 :=
  have exact := sizes_exact metadataProto_lossless parcelEncoding_lossless parcel_sizes_nonneg
    parcelOffered_reachable rfl
  ⟨rfl, exact.2.2.2.1.symm, exact.2.2.2.2.2.2 (by decide) rfl⟩

end CollectorFormal.Queue
