import CollectorFormal.Queue.PersistentRestart

/-! The order of the requests while a process runs. -/

namespace CollectorFormal.Queue

open Lib List Program

variable {Ctx T : Type}

def World.waiting (set : Settings Ctx T) (world : World T) : List T :=
  world.process.elim [] fun process =>
    process.queue.metadata.waiting.filterMap (requestAt set.encoding world.client.store)

variable [Request T]

/-- The calls of a process from some state on, with the requests that Offer committed and that Read returned. -/
inductive Calls (set : Settings Ctx T) (first : World T) : List T → List T → World T → Prop where
  | start : Calls set first [] [] first
  | offer {world : World T} {process : Process T} {offered reads : List T} (ctx : Ctx) (req : T)
      (calls : Calls set first offered reads world) (running : world.process = some process) :
      Calls set first
        (offered ++ if world.client.commits < (world.offer set ctx req process).client.commits then [req] else [])
        reads (world.offer set ctx req process)
  | read {world : World T} {process : Process T} {offered reads : List T}
      (calls : Calls set first offered reads world) (running : world.process = some process) :
      Calls set first offered (reads ++ ((read set process.queue).run serve world.client).2.2.handles.map Handle.req)
        (world.read set process)
  | onDone {world : World T} {queue : PersistentQueue} {front back : List (Handle T)} {handle : Handle T}
      {offered reads : List T} (consumeErr : ConsumeErr) (calls : Calls set first offered reads world)
      (running : world.process = some ⟨queue, front ++ handle :: back⟩) :
      Calls set first offered reads (world.onDone set handle consumeErr queue (front ++ back))

section calls
variable {set : Settings Ctx T} {first world : World T} {offered reads : List T} {process : Process T}
  (codec : set.proto.Lossless)
include codec

theorem waiting_offer (lossless : set.encoding.Lossless) (started : world.process = some process)
    (running : Running set world.client.store world.books process) (ctx : Ctx) (req : T) :
    (world.offer set ctx req process).waiting set = world.waiting set ++
      if world.client.commits < (world.offer set ctx req process).client.commits then [req] else [] := by
  rcases offer_run codec lossless ctx req process.queue world.client with
    ⟨-, result, ran⟩ | ⟨-, after, reqBuf, restored, ran, decoded, wrote⟩
  · simp [World.waiting, World.offer, ran, started]
  · have kept (index : Nat) (member : index ∈ process.queue.metadata.waiting) :
        requestAt set.encoding after.store index = requestAt set.encoding world.client.store index := by
      apply wrote.requestAt_other
      rw [mem_waiting] at member
      omega
    have longer : ((process.queue.metadata.addSizes req).advanceWrite).waiting =
        process.queue.metadata.waiting ++ [process.queue.metadata.writeIndex] :=
      waiting_append running.accounts.backed.formed.ordered rfl rfl
    simp [World.waiting, World.offer, ran, started, longer, filterMap_congr kept, requestAt_put wrote decoded,
      wrote.commits]

theorem waiting_read (started : world.process = some process)
    (running : Running set world.client.store world.books process) :
    world.waiting set = ((read set process.queue).run serve world.client).2.2.handles.map Handle.req ++
      (world.read set process).waiting set := by
  by_cases more : process.queue.metadata.readIndex < process.queue.metadata.writeIndex
  · obtain ⟨req, present⟩ := running.accounts.backed.waiting process.queue.metadata.readIndex (by simp [more])
    obtain ⟨after, ctx, ran, wrote, -⟩ := read_run codec process.queue world.client req running.active more present
    obtain ⟨-, -, kept⟩ := wrote.take rfl running.accounts.backed more
    simp [World.waiting, World.read, ran, started, waiting_takeNext _ more, present, kept, ReadResult.handles]
  · have empty : read set process.queue = _ := read_empty process.queue running.active
      (le_antisymm running.accounts.backed.formed.ordered (not_lt.mp more))
    simp [World.waiting, World.read, empty, started, ReadResult.handles]

theorem waiting_onDone {queue : PersistentQueue} {front back : List (Handle T)} {handle : Handle T}
    (started : world.process = some ⟨queue, front ++ handle :: back⟩)
    (running : Running set world.client.store world.books ⟨queue, front ++ handle :: back⟩)
    (consumeErr : ConsumeErr) :
    (world.onDone set handle consumeErr queue (front ++ back)).waiting set = world.waiting set := by
  cases shutdown : consumeErr.isShutdownErr with
  | true =>
    obtain ⟨durable, -, ran⟩ := @onDone_shutdown Ctx T set handle.done consumeErr queue world.client 0 shutdown
    have store := congrArg Prod.fst durable
    simp only [Client.durable] at store
    simp [World.waiting, World.onDone, ran, started, store]
  | false =>
    obtain ⟨wrote, ran⟩ := onDone_run codec handle.done consumeErr queue world.client shutdown
    have read : _ < queue.metadata.readIndex :=
      running.accounts.backed.formed.below _ (running.valid handle (by simp)).dispatched
    have kept (index : Nat) (member : index ∈ queue.metadata.waiting) := wrote.requestAt_other index <| by
      rw [mem_waiting] at member
      omega
    have indices := resetIfDrained_indices ((queue.metadata.subtractSizes handle.done).dropDispatched handle.done.index)
    simp only [World.waiting, World.onDone, ran, started, Option.elim_some, Metadata.waiting, indices]
    exact filterMap_congr kept

/-- While a process runs, requests are read in the order in which Offer committed them, after those that were
recovered. -/
theorem requests_in_order (lossless : set.encoding.Lossless) {capacity : Int} (reached : Reachable set capacity first)
    (calls : Calls set first offered reads world) :
    first.waiting set ++ offered = reads ++ world.waiting set := by
  have both : Sound set world ∧ first.waiting set ++ offered = reads ++ world.waiting set := by
    induction calls with
    | start => exact ⟨reachable_sound codec lossless reached, append_nil _⟩
    | offer ctx req _ started ih =>
      obtain ⟨sound, same⟩ := ih
      refine ⟨step_sound codec lossless sound (.offer _ _ ctx req started), ?_⟩
      rw [← append_assoc, same, append_assoc, waiting_offer codec lossless started (sound.running _ started)]
    | read _ started ih =>
      obtain ⟨sound, same⟩ := ih
      refine ⟨step_sound codec lossless sound (.read _ _ started), ?_⟩
      rw [same, append_assoc, waiting_read codec started (sound.running _ started)]
    | onDone consumeErr _ started ih =>
      obtain ⟨sound, same⟩ := ih
      refine ⟨step_sound codec lossless sound (.onDone _ _ _ _ _ consumeErr started), ?_⟩
      rw [same, waiting_onDone codec started (sound.running _ started)]
  exact both.2

end calls

theorem requests_in_order_parcel : ∃ offered reads world, offered = [⟨2, 5⟩] ∧ reads = [⟨3, 40⟩] ∧
    Calls (parcelSettings .items) parcelOffered offered reads world ∧
    parcelOffered.waiting (parcelSettings .items) ++ offered = reads ++ world.waiting (parcelSettings .items) := by
  have fresh : Calls (parcelSettings .items) parcelOffered [] [] parcelOffered := .start
  have calls := (fresh.offer () ⟨2, 5⟩ rfl).read rfl
  exact ⟨_, _, _, rfl, rfl, calls,
    requests_in_order metadataProto_lossless parcelEncoding_lossless parcelOffered_reachable calls⟩

end CollectorFormal.Queue
