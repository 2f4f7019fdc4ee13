import CollectorFormal.Lib.Runs
import CollectorFormal.Queue.PersistentContents
import CollectorFormal.Queue.PersistentCodec
import Mathlib.Logic.Relation

/-! One process lifetime of a persistent queue over a storage whose calls may
fail, with or without having taken effect. -/

namespace CollectorFormal.Queue

open Lib List Program

variable {Ctx T : Type}

/-- A queue in use: the reads not yet done, every index a Read has returned, and
how often Shutdown was called. -/
structure Session where
  client : Client
  queue : PersistentQueue
  outstanding : List IndexDone := []
  returned : List Nat := []
  shutdowns : Nat := 0

def ReadResult.dones : ReadResult Ctx T → List IndexDone
  | .item _ _ done => [done]
  | .stopped | .wait => []

inductive Operator where
  | offer
  | read
  | onDone
  | shutdown
  deriving DecidableEq

section relation
variable [Request T] (set : Settings Ctx T)

inductive SessionStep : Operator → Session → Session → Prop where
  | offer (session : Session) (ctx : Ctx) (req : T) {client : Client} {queue : PersistentQueue} {result : OfferResult}
      (ran : Program.Runs Answers (Queue.offer set ctx req session.queue) session.client client (queue, result)) :
      SessionStep .offer session { session with client := client, queue := queue }
  | read (session : Session) {client : Client} {queue : PersistentQueue} {result : ReadResult Ctx T}
      (ran : Program.Runs Answers (Queue.read set session.queue) session.client client (queue, result)) :
      SessionStep .read session { session with
        client := client
        queue := queue
        outstanding := session.outstanding ++ result.dones
        returned := session.returned ++ result.dones.map (·.index) }
  | onDone (session : Session) (front back : List IndexDone) (id : IndexDone) (consumeErr : ConsumeErr)
      {client : Client} {queue : PersistentQueue} (held : session.outstanding = front ++ id :: back)
      (ran : Program.Runs Answers (Queue.onDone set id consumeErr session.queue) session.client client queue) :
      SessionStep .onDone session { session with
        client := client
        queue := queue
        outstanding := front ++ back }
  | shutdown (session : Session) {client : Client} {queue : PersistentQueue} {err : Option QueueError}
      (ran : Program.Runs Answers (Queue.shutdown session.queue) session.client client (queue, err)) :
      SessionStep .shutdown session { session with
        client := client
        queue := queue
        shutdowns := session.shutdowns + 1 }

inductive Opened (capacity : Int) : Session → Prop where
  | mk {client : Client} {queue : PersistentQueue}
      (ran : Program.Runs Answers (initClient set { capacity := capacity }) Client.fresh client queue) :
      Opened capacity { client := client, queue := queue }

/-- Shutdown is not called on a queue that is already shut down. -/
def ShutdownOnce (operator : Operator) (session : Session) : Prop :=
  operator = .shutdown → session.shutdowns = 0

def SessionReached (allowed : Operator → Session → Prop) (capacity : Int) (session : Session) : Prop :=
  ∃ first, Opened set capacity first ∧ Reached (SessionStep set) allowed first session

end relation

/-- What holds of a queue's memory and its client at every moment. -/
structure Consistent (session : Session) : Prop where
  formed : session.queue.metadata.WellFormed
  dispatched : ∀ id ∈ session.outstanding, id.index ∈ session.queue.metadata.currentlyDispatchedItems
  distinct : (session.outstanding.map (·.index)).Nodup
  once : session.returned.Nodup
  earlier : ∀ index ∈ session.returned, index < session.queue.metadata.readIndex
  stopped : session.queue.stopped = decide (session.shutdowns ≠ 0)
  references : session.queue.refClient = (if session.shutdowns = 0 then 1 else 0) + session.outstanding.length
  closes : session.client.closes = if session.queue.refClient = 0 then 1 else 0

/-- The dispatched items are kept, and what was added to them is new. -/
structure Advances (before after : Metadata) : Prop where
  formed : after.WellFormed
  forward : before.readIndex ≤ after.readIndex
  kept : ∀ index ∈ before.currentlyDispatchedItems, index ∈ after.currentlyDispatchedItems

variable (metadata : Metadata)

theorem Advances.refl (formed : metadata.WellFormed) :
    Advances metadata metadata := ⟨formed, le_refl _, fun _ member => member⟩

theorem Advances.trans {first second third : Metadata} (head : Advances first second)
    (rest : Advances second third) : Advances first third :=
  ⟨rest.formed, head.forward.trans rest.forward, fun index member =>
    rest.kept index (head.kept index member)⟩

variable {before after : Metadata}

theorem Advances.of_indices (formed : before.WellFormed)
    (read : after.readIndex = before.readIndex) (written : after.writeIndex = before.writeIndex)
    (dispatched : after.currentlyDispatchedItems = before.currentlyDispatchedItems) :
    Advances before after :=
  ⟨formed.congr read written dispatched, read.ge, fun _ member => dispatched ▸ member⟩

theorem Advances.resetIfDrained (advances : Advances before after) : Advances before after.resetIfDrained := by
  obtain ⟨read, written, dispatched⟩ := resetIfDrained_indices after
  exact advances.trans (.of_indices advances.formed read written dispatched)

theorem advances_takeNext (formed : metadata.WellFormed)
    (more : metadata.readIndex < metadata.writeIndex) : Advances metadata metadata.takeNext :=
  ⟨formed.takeNext more, Nat.le_succ _, fun _ member => mem_append_left _ member⟩

theorem advances_skip (formed : metadata.WellFormed) (more : metadata.readIndex < metadata.writeIndex) :
    Advances metadata (metadata.takeNext.dropDispatched metadata.readIndex) := by
  have taken := advances_takeNext metadata formed more
  refine ⟨taken.formed.dropDispatched _, taken.forward, ?_⟩
  intro index member
  refine (mem_swapRemove _ _ _ taken.formed.unique).mpr ⟨?_, taken.kept index member⟩
  have := formed.below index member
  omega

section runs
variable (set : Settings Ctx T)

def Call.working (call : Call) : Prop := call ≠ .close

theorem finish_uses (index : Nat) (pq : PersistentQueue) : (itemDispatchingFinish set index pq).Uses Call.working := by
  unfold itemDispatchingFinish
  simp only
  split
  · trivial
  · refine ⟨Call.noConfusion, fun reply => ?_⟩
    cases reply with
    | ok values => trivial
    | error err =>
      refine ⟨Call.noConfusion, fun reply => ?_⟩
      cases reply with
      | error err => trivial
      | ok values =>
        refine ⟨Call.noConfusion, fun reply => ?_⟩
        cases reply <;> trivial

theorem putInternal_uses (ctx : Ctx) (req : T) (pq : PersistentQueue) :
    (putInternal set ctx req pq).Uses Call.working := by
  unfold putInternal
  simp only
  split
  · trivial
  · split
    · trivial
    · exact ⟨Call.noConfusion, fun _ => trivial⟩

theorem getNextItem_uses (pq : PersistentQueue) : (getNextItem set pq).Uses Call.working := by
  unfold getNextItem
  simp only
  split
  · trivial
  · refine ⟨Call.noConfusion, fun reply => ?_⟩
    beta_reduce
    split
    · exact uses_bind (finish_uses set _ _) fun _ => trivial
    · trivial

theorem readItems_uses [Request T] (fuel : Nat) (pq : PersistentQueue) : (readItems set fuel pq).Uses Call.working := by
  induction fuel generalizing pq with
  | zero => trivial
  | succ fuel ih =>
    unfold readItems
    split
    · trivial
    · refine uses_bind (getNextItem_uses set pq) fun r => ?_
      split
      · trivial
      · exact ⟨Call.noConfusion, fun _ => ih _⟩

theorem working_open (call : Call) (before after : Client) (reply : Reply) (late : Nat)
    (working : call.working) (answered : Answers call before after reply)
    (opened : before.closes = 0 ∧ before.late = late) : after.closes = 0 ∧ after.late = late := by
  cases answered <;> cases call <;>
    simp_all [Call.working, serve, Client.note, Client.perform]

theorem working_closes (call : Call) (before after : Client) (reply : Reply) (count : Nat)
    (working : call.working) (answered : Answers call before after reply)
    (counted : before.closes = count) : after.closes = count := by
  cases answered <;> cases call <;>
    simp_all [Call.working, serve, Client.note, Client.perform]

variable {set} {first last : Client}

theorem finish_runs {index : Nat} {pq : PersistentQueue} {result : PersistentQueue × Option QueueError}
    (ran : Program.Runs Answers (itemDispatchingFinish set index pq) first last result) :
    result.1 = { pq with metadata := (pq.metadata.dropDispatched index).resetIfDrained } := by
  unfold itemDispatchingFinish at ran
  simp only at ran
  split at ran
  · exact congrArg Prod.fst (runs_ret.mp ran).2
  · obtain ⟨_, reply, -, ran⟩ := runs_call.mp ran
    cases reply with
    | ok values => exact congrArg Prod.fst (runs_ret.mp ran).2
    | error err =>
      obtain ⟨_, reply, -, ran⟩ := runs_call.mp ran
      cases reply with
      | error err => exact congrArg Prod.fst (runs_ret.mp ran).2
      | ok values =>
        obtain ⟨_, reply, -, ran⟩ := runs_call.mp ran
        cases reply <;> exact congrArg Prod.fst (runs_ret.mp ran).2

theorem putInternal_runs {ctx : Ctx} {req : T} {pq : PersistentQueue} {result : PersistentQueue × Option QueueError}
    (ran : Program.Runs Answers (putInternal set ctx req pq) first last result) :
    result.1 = { pq with metadata := pq.metadata.advanceWrite } := by
  unfold putInternal at ran
  simp only at ran
  split at ran
  · exact congrArg Prod.fst (runs_ret.mp ran).2
  · split at ran
    · exact congrArg Prod.fst (runs_ret.mp ran).2
    · obtain ⟨_, reply, -, ran⟩ := runs_call.mp ran
      exact congrArg Prod.fst (runs_ret.mp ran).2

variable {pq : PersistentQueue}

theorem getNextItem_runs {result : PersistentQueue × Option (Nat × Ctx × T)}
    (formed : pq.metadata.WellFormed) (more : pq.metadata.readIndex < pq.metadata.writeIndex)
    (ran : Program.Runs Answers (getNextItem set pq) first last result) :
    (∃ metadata, result = ({ pq with metadata := metadata }, none) ∧ Advances pq.metadata metadata) ∨
    ∃ ctx req, result = ({ pq with metadata := pq.metadata.takeNext, refClient := pq.refClient + 1 },
      some (pq.metadata.readIndex, ctx, req)) := by
  unfold getNextItem at ran
  simp only at ran
  split at ran
  · exact .inl ⟨_, (runs_ret.mp ran).2, advances_takeNext _ formed more⟩
  · obtain ⟨_, reply, -, ran⟩ := runs_call.mp ran
    split at ran
    · obtain ⟨_, between, finished, ran⟩ := runs_bind.mp ran
      have queue := finish_runs finished
      refine .inl ⟨(pq.metadata.takeNext.dropDispatched pq.metadata.readIndex).resetIfDrained, ?_,
        (advances_skip _ formed more).resetIfDrained⟩
      rw [(runs_ret.mp ran).2, queue]
    · exact .inr ⟨_, _, (runs_ret.mp ran).2⟩

/-- Read returns an index no Read has returned before, or nothing. -/
theorem readItems_runs [Request T] {fuel : Nat} {pq : PersistentQueue}
    {result : PersistentQueue × ReadResult Ctx T} (formed : pq.metadata.WellFormed)
    (ran : Program.Runs Answers (readItems set fuel pq) first last result) :
    ∃ metadata, Advances pq.metadata metadata ∧ (result = ({ pq with metadata := metadata }, .wait) ∨
      ∃ ctx req done, result = ({ pq with metadata := metadata, refClient := pq.refClient + 1 }, .item ctx req done) ∧
        pq.metadata.readIndex ≤ done.index ∧ done.index < metadata.readIndex ∧
        done.index ∈ metadata.currentlyDispatchedItems ∧
        done.index ∉ pq.metadata.currentlyDispatchedItems) := by
  induction fuel generalizing pq first with
  | zero => exact ⟨_, .refl _ formed, .inl (runs_ret.mp ran).2⟩
  | succ fuel ih =>
    unfold readItems at ran
    split at ran
    · exact ⟨_, .refl _ formed, .inl (runs_ret.mp ran).2⟩
    · next more =>
        have less := lt_of_le_of_ne formed.ordered more
        obtain ⟨_, between, next, ran⟩ := runs_bind.mp ran
        rcases getNextItem_runs formed less next with ⟨metadata, rfl, advances⟩ | ⟨ctx, req, rfl⟩
        · obtain ⟨_, _, -, ran⟩ := runs_call.mp ran
          have reset := advances.resetIfDrained
          obtain ⟨metadata, later, result⟩ := ih reset.formed ran
          refine ⟨metadata, reset.trans later, ?_⟩
          rcases result with waiting | ⟨ctx, req, done, taken, above, below, listed, fresh⟩
          · exact .inl waiting
          · exact .inr ⟨ctx, req, done, taken, reset.forward.trans above, below, listed,
              fun member => fresh (reset.kept _ member)⟩
        · have taken := (advances_takeNext _ formed less).resetIfDrained
          obtain ⟨read, -, dispatched⟩ := resetIfDrained_indices pq.metadata.takeNext
          refine ⟨_, taken, .inr ⟨ctx, req, _, (runs_ret.mp ran).2, le_refl _, ?_, ?_, ?_⟩⟩
          · rw [read]
            exact Nat.lt_succ_self _
          · rw [dispatched]
            exact mem_append_right _ mem_cons_self
          · intro member
            exact absurd (formed.below _ member) (lt_irrefl _)

theorem unrefClient_runs {result : PersistentQueue × Option QueueError}
    (ran : Program.Runs Answers (unrefClient pq) first last result) :
    result.1 = { pq with refClient := pq.refClient - 1 } ∧ last.late = first.late ∧
      last.closes = first.closes + if pq.refClient - 1 = 0 then 1 else 0 := by
  unfold unrefClient at ran
  simp only at ran
  split at ran
  · next zero =>
      obtain ⟨_, reply, answered, ran⟩ := runs_call.mp ran
      obtain ⟨rfl, rfl⟩ := runs_ret.mp ran
      rw [if_pos zero]
      cases answered <;> exact ⟨rfl, rfl, rfl⟩
  · next positive =>
      obtain ⟨rfl, rfl⟩ := runs_ret.mp ran
      rw [if_neg positive]
      exact ⟨rfl, rfl, rfl⟩

/-- OnDone while the client is open issues its storage calls before Close. -/
theorem onDone_runs {id : IndexDone} {consumeErr : ConsumeErr} {pq queue : PersistentQueue} (opened : first.closes = 0)
    (ran : Program.Runs Answers (onDone set id consumeErr pq) first last queue) :
    (∃ metadata, queue = { pq with metadata := metadata, refClient := pq.refClient - 1 } ∧
      (metadata = pq.metadata ∨ metadata = ((pq.metadata.subtractSizes id).dropDispatched id.index).resetIfDrained)) ∧
    last.late = first.late ∧ last.closes = if pq.refClient - 1 = 0 then 1 else 0 := by
  obtain ⟨middle, between, head, ran⟩ := runs_bind.mp ran
  obtain ⟨_, r, dropped, ran⟩ := runs_bind.mp ran
  obtain ⟨rfl, rfl⟩ := runs_ret.mp ran
  obtain ⟨queue, late, closes⟩ := unrefClient_runs dropped
  cases shutdown : consumeErr.isShutdownErr with
  | true =>
    rw [shutdown, if_pos rfl] at head
    obtain ⟨rfl, rfl⟩ := runs_ret.mp head
    rw [opened, Nat.zero_add] at closes
    exact ⟨⟨_, queue, .inl rfl⟩, late, closes⟩
  | false =>
    rw [shutdown, if_neg (by decide)] at head
    obtain ⟨beforeSignal, r, finished, head⟩ := runs_bind.mp head
    obtain ⟨afterSignal, reply, signalled, head⟩ := runs_call.mp head
    obtain ⟨rfl, rfl⟩ := runs_ret.mp head
    have calls := runs_invariant (fun client => client.closes = 0 ∧ client.late = first.late)
      (fun call before after reply working answered kept =>
        working_open call before after reply first.late working answered kept)
      (finish_uses set _ _) finished ⟨opened, rfl⟩
    have signals := working_open _ _ _ _ first.late Call.noConfusion signalled calls
    have finishedQueue := finish_runs finished
    rw [signals.1, Nat.zero_add, finishedQueue] at closes
    rw [finishedQueue] at queue
    exact ⟨⟨_, queue, .inr rfl⟩, late.trans signals.2, closes⟩

theorem answers_get {key : Key} {reply : Reply} (answered : Answers (.get key) first last reply) :
    last.store = first.store ∧ (reply = .ok [first.store key] ∨ ∃ text, reply = .error (.storage text)) := by
  cases answered with
  | served => exact ⟨rfl, .inl rfl⟩
  | refused text | lost text => exact ⟨rfl, .inr ⟨text, rfl⟩⟩

theorem legacy_fresh {pq queue : PersistentQueue} (start : pq.metadata = {}) (fresh : first.store = fun _ => none)
    (ran : Program.Runs Answers (loadLegacyMetadata set pq) first last queue) : queue = pq := by
  obtain ⟨middle, reply, answered, ran⟩ := runs_call.mp ran
  have indices : middle.store = first.store ∧ legacyIndices reply = (0, 0) := by
    cases answered with
    | served =>
      refine ⟨rfl, ?_⟩
      simp [serve, Client.note, Client.perform, batch, fresh, legacyIndices, bytesToItemIndex]
    | refused | lost => exact ⟨rfl, rfl⟩
  have same : { pq with
      metadata.readIndex := (legacyIndices reply).1
      metadata.writeIndex := (legacyIndices reply).2 } = pq := by
    rw [indices.2]
    cases pq
    cases start
    rfl
  rw [same] at ran
  obtain ⟨_, between, retrieved, saved⟩ := runs_bind.mp ran
  have kept : between = pq := by
    obtain ⟨_, reply, answered, retrieved⟩ := runs_call.mp retrieved
    obtain ⟨-, rfl | ⟨text, rfl⟩⟩ := answers_get answered
    · rw [indices.1, fresh] at retrieved
      exact (runs_ret.mp retrieved).2
    · exact (runs_ret.mp retrieved).2
  rw [kept, consolidate] at saved
  split at saved
  · exact (runs_ret.mp saved).2
  · obtain ⟨_, reply, -, saved⟩ := runs_call.mp saved
    cases reply with
    | error err => exact (runs_ret.mp saved).2
    | ok values =>
      obtain ⟨_, _, -, saved⟩ := runs_call.mp saved
      exact (runs_ret.mp saved).2

theorem initClient_fresh {capacity : Int} {queue : PersistentQueue} (fresh : first.store = fun _ => none)
    (ran : Program.Runs Answers (initClient set { capacity := capacity }) first last queue) :
    queue = { capacity := capacity, refClient := 1 } := by
  obtain ⟨middle, r, loaded, ran⟩ := runs_bind.mp ran
  obtain ⟨_, reply, answered, loaded⟩ := runs_call.mp loaded
  obtain ⟨store, rfl | ⟨text, rfl⟩⟩ := answers_get answered
  · rw [fresh] at loaded
    obtain ⟨rfl, rfl⟩ := runs_ret.mp loaded
    exact legacy_fresh rfl (store.trans fresh) ran
  · obtain ⟨rfl, rfl⟩ := runs_ret.mp loaded
    exact (runs_ret.mp ran).2

end runs

section uses
variable (set : Settings Ctx T)

theorem enqueueItems_uses (values : List (Option Bytes)) (pq : PersistentQueue) :
    (enqueueItems set values pq).Uses Call.working := by
  induction values generalizing pq with
  | nil => trivial
  | cons value rest ih =>
    cases value with
    | none => exact ih pq
    | some buf =>
      unfold enqueueItems
      split
      · exact ih pq
      · exact uses_bind (putInternal_uses set _ _ _) fun r => ih r.1

theorem enqueueNotDispatchedReqs_uses (dispatchedItems : List Nat) (pq : PersistentQueue) :
    (enqueueNotDispatchedReqs set dispatchedItems pq).Uses Call.working := by
  unfold enqueueNotDispatchedReqs
  split
  · trivial
  · refine ⟨Call.noConfusion, fun retrieved => ⟨Call.noConfusion, fun _ => ?_⟩⟩
    cases retrieved with
    | error err => trivial
    | ok values => exact enqueueItems_uses set values pq

variable (pq : PersistentQueue)

theorem loadLegacyMetadata_uses : (loadLegacyMetadata set pq).Uses Call.working := by
  refine ⟨Call.noConfusion, fun reply => uses_bind ?_ fun pq => ?_⟩
  · refine ⟨Call.noConfusion, fun reply => ?_⟩
    cases reply with
    | error err => trivial
    | ok values =>
      dsimp only
      split
      · trivial
      · exact enqueueNotDispatchedReqs_uses set _ _
  · unfold consolidate
    split
    · trivial
    · refine ⟨Call.noConfusion, fun reply => ?_⟩
      cases reply with
      | error err => trivial
      | ok values => exact ⟨Call.noConfusion, fun _ => trivial⟩

theorem initClient_uses : (initClient set pq).Uses Call.working := by
  refine uses_bind ⟨Call.noConfusion, fun reply => ?_⟩ fun r => ?_
  · cases reply with
    | error err => trivial
    | ok values =>
      dsimp only
      split
      · trivial
      · trivial
      · split <;> trivial
  · split
    · exact uses_bind (enqueueNotDispatchedReqs_uses set _ _) fun _ => trivial
    · exact loadLegacyMetadata_uses set r.1
    · trivial

end uses

section session
variable [Request T] {set : Settings Ctx T} {session next : Session}

omit [Request T] in
theorem opened_consistent {capacity : Int} (opened : Opened set capacity session) :
    Consistent session := by
  cases opened with
  | @mk client queue ran =>
    have closes := runs_invariant (fun client => client.closes = 0)
      (fun call before after reply working answered kept =>
        working_closes call before after reply 0 working answered kept)
      (initClient_uses set _) ran rfl
    obtain rfl := initClient_fresh rfl ran
    exact ⟨wellFormed_empty, by simp, nodup_nil, nodup_nil, by simp, rfl, rfl, closes⟩

section
variable (consistent : Consistent session)
include consistent

theorem consistent_offer (step : SessionStep set .offer session next) : Consistent next := by
  cases step with
  | @offer _ ctx req client queue result ran =>
    unfold Queue.offer at ran
    split at ran
    · split at ran <;>
      · obtain ⟨rfl, same⟩ := runs_ret.mp ran
        obtain ⟨rfl, -⟩ := Prod.mk.inj same
        exact consistent
    · obtain ⟨_, between, put, ran⟩ := runs_bind.mp ran
      obtain ⟨rfl, same⟩ := runs_ret.mp ran
      obtain ⟨rfl, -⟩ := Prod.mk.inj same
      have closes := runs_invariant (fun client => client.closes = session.client.closes)
        (fun call before after reply working answered kept =>
          working_closes call before after reply _ working answered kept)
        (putInternal_uses set _ _ _) put rfl
      rw [putInternal_runs put]
      obtain ⟨formed, dispatched, distinct, once, earlier, stopped, references, closed⟩ := consistent
      exact ⟨⟨Nat.le_succ_of_le formed.ordered, formed.unique, formed.below⟩, dispatched, distinct, once,
        earlier, stopped, references, closes.trans closed⟩

theorem Consistent.open_of_active (active : session.queue.stopped = false) : session.client.closes = 0 := by
  have running : session.shutdowns = 0 := by
    have stopped := consistent.stopped
    rw [active] at stopped
    simpa using stopped.symm
  have references := consistent.references
  rw [consistent.closes, if_neg]
  omega

theorem consistent_read (step : SessionStep set .read session next) :
    Consistent next ∧ next.client.late = session.client.late := by
  cases step with
  | @read _ client queue result ran =>
    unfold Queue.read at ran
    split at ran
    · obtain ⟨rfl, same⟩ := runs_ret.mp ran
      obtain ⟨rfl, rfl⟩ := Prod.mk.inj same
      simpa [ReadResult.dones] using consistent
    · next active =>
        have opened := consistent.open_of_active (Bool.eq_false_iff.mpr active)
        have calls := runs_invariant (fun client => client.closes = 0 ∧ client.late = session.client.late)
          (fun call before after reply working answered kept =>
            working_open call before after reply _ working answered kept)
          (readItems_uses set _ _) ran ⟨opened, rfl⟩
        obtain ⟨formed, dispatched, distinct, once, earlier, stopped, references, closed⟩ := consistent
        obtain ⟨metadata, advances, same | ⟨ctx, req, done, same, above, below, listed, fresh⟩⟩ :=
          readItems_runs formed ran
        · obtain ⟨rfl, rfl⟩ := Prod.mk.inj same
          simp only [ReadResult.dones, append_nil, map_nil]
          refine ⟨⟨advances.formed, fun id member => advances.kept _ (dispatched id member), distinct,
            once, fun index member => lt_of_lt_of_le (earlier index member) advances.forward, stopped,
            references, ?_⟩, calls.2⟩
          exact calls.1.trans (opened.symm.trans closed)
        · obtain ⟨rfl, rfl⟩ := Prod.mk.inj same
          simp only [ReadResult.dones, map_cons, map_nil]
          refine ⟨⟨advances.formed, ?_, ?_, ?_, ?_, stopped, ?_, ?_⟩, calls.2⟩
          · intro id member
            rcases mem_append.mp member with old | last
            · exact advances.kept _ (dispatched id old)
            · rw [mem_singleton.mp last]
              exact listed
          · rw [map_append, nodup_append]
            refine ⟨distinct, nodup_singleton _, ?_⟩
            rintro index member last found rfl
            obtain ⟨id, held, rfl⟩ := mem_map.mp member
            rw [map_singleton, mem_singleton] at found
            exact fresh (found ▸ dispatched id held)
          · rw [nodup_append]
            refine ⟨once, nodup_singleton _, ?_⟩
            rintro index member last found rfl
            rw [mem_singleton] at found
            have := earlier index member
            omega
          · intro index member
            rcases mem_append.mp member with old | last
            · exact lt_of_lt_of_le (earlier index old) advances.forward
            · rw [mem_singleton.mp last]
              exact below
          · simp only [references, length_append, length_singleton]
            omega
          · have positive : session.queue.refClient + 1 ≠ 0 := by
              rw [references]
              split <;> omega
            rw [calls.1, if_neg positive]

theorem consistent_onDone (step : SessionStep set .onDone session next) :
    Consistent next ∧ next.client.late = session.client.late := by
  cases step with
  | @onDone _ front back id consumeErr client queue held ran =>
    obtain ⟨formed, dispatched, distinct, once, earlier, stopped, references, closed⟩ := consistent
    have count : session.outstanding.length = (front ++ back).length + 1 := by
      simp [held]
      omega
    have opened : session.client.closes = 0 := by
      rw [closed, if_neg]
      rw [references]
      split <;> omega
    obtain ⟨⟨metadata, rfl, change⟩, late, closes⟩ := onDone_runs opened ran
    have remaining : (front ++ back).Sublist session.outstanding := by
      rw [held]
      exact (List.Sublist.refl front).append (sublist_cons_self id back)
    have others : ∀ other ∈ front ++ back, other.index ≠ id.index := by
      intro other member same
      rw [held, map_append, map_cons, nodup_middle, nodup_cons, ← map_append] at distinct
      exact distinct.1 (same ▸ mem_map_of_mem member)
    have kept : metadata.WellFormed ∧ metadata.readIndex = session.queue.metadata.readIndex ∧
        ∀ other ∈ front ++ back, other.index ∈ metadata.currentlyDispatchedItems := by
      rcases change with rfl | rfl
      · exact ⟨formed, rfl, fun other member => dispatched other (remaining.subset member)⟩
      · obtain ⟨read, -, list⟩ := resetIfDrained_indices
          ((session.queue.metadata.subtractSizes id).dropDispatched id.index)
        have subtracted : (session.queue.metadata.subtractSizes id).WellFormed :=
          formed.congr rfl rfl rfl
        refine ⟨(subtracted.dropDispatched id.index).resetIfDrained, read, ?_⟩
        intro other member
        rw [list]
        exact (mem_swapRemove _ _ _ formed.unique).mpr ⟨others other member, dispatched other (remaining.subset member)⟩
    refine ⟨⟨kept.1, kept.2.2, distinct.sublist (remaining.map _), once, ?_, stopped, ?_, closes⟩, late⟩
    · intro index member
      rw [kept.2.1]
      exact earlier index member
    · simp only [references, count]
      omega

theorem consistent_shutdown (meets : session.shutdowns = 0)
    (step : SessionStep set .shutdown session next) : Consistent next := by
  cases step with
  | @shutdown _ client queue err ran =>
    obtain ⟨formed, dispatched, distinct, once, earlier, stopped, references, closed⟩ := consistent
    obtain ⟨rfl, -, closes⟩ := unrefClient_runs ran
    have opened : session.client.closes = 0 := by
      rw [closed, if_neg (by omega)]
    rw [opened, Nat.zero_add] at closes
    refine ⟨formed, dispatched, distinct, once, earlier, ?_, ?_, closes⟩
    · simp
    · rw [if_neg (Nat.succ_ne_zero _)]
      simp only [references]
      omega

theorem step_consistent {operator : Operator}
    (meets : ShutdownOnce operator session) (step : SessionStep set operator session next) :
    Consistent next := by
  cases operator with
  | offer => exact consistent_offer consistent step
  | read => exact (consistent_read consistent step).1
  | onDone => exact (consistent_onDone consistent step).1
  | shutdown => exact consistent_shutdown consistent (meets rfl) step

end

theorem reached_consistent {capacity : Int}
    (reached : SessionReached set ShutdownOnce capacity session) : Consistent session := by
  obtain ⟨first, opened, later⟩ := reached
  exact later.invariant (opened_consistent opened) fun _ _ _ meets moved consistent =>
    step_consistent consistent meets moved

/-- While Shutdown is called at most once, the indices and the list of dispatched
items stay well formed, no index is read twice, references are counted exactly,
and neither Read nor OnDone reaches a closed client. -/
theorem single_shutdown_consistent {capacity : Int} (reached : SessionReached set ShutdownOnce capacity session) :
    session.queue.metadata.readIndex ≤ session.queue.metadata.writeIndex ∧
    session.queue.metadata.currentlyDispatchedItems.Nodup ∧
    (∀ index ∈ session.queue.metadata.currentlyDispatchedItems, index < session.queue.metadata.readIndex) ∧
    (∀ id ∈ session.outstanding, id.index ∈ session.queue.metadata.currentlyDispatchedItems) ∧
    session.returned.Nodup ∧
    session.queue.refClient = (if session.shutdowns = 0 then 1 else 0) + session.outstanding.length ∧
    session.client.closes ≤ 1 ∧ (session.client.closes ≠ 0 → session.shutdowns ≠ 0) ∧
    ∀ operator next, operator = .read ∨ operator = .onDone →
      SessionStep set operator session next → next.client.late = session.client.late := by
  have consistent := reached_consistent reached
  obtain ⟨formed, dispatched, -, once, -, -, references, closed⟩ := reached_consistent reached
  refine ⟨formed.ordered, formed.unique, formed.below, dispatched, once, references, ?_, ?_, ?_⟩
  · rw [closed]
    split <;> omega
  · intro closes running
    rw [if_pos running] at references
    rw [closed, if_neg (by omega)] at closes
    exact closes rfl
  · rintro operator next (rfl | rfl) step
    · exact (consistent_read consistent step).2
    · exact (consistent_onDone consistent step).2

end session

section served
variable [Request T] (set : Settings Ctx T)

def Session.offer (ctx : Ctx) (req : T) (session : Session) : Session :=
  let r := (Queue.offer set ctx req session.queue).run serve session.client
  { session with client := r.1, queue := r.2.1 }

def Session.read (session : Session) : Session :=
  let r := (Queue.read set session.queue).run serve session.client
  { session with
    client := r.1
    queue := r.2.1
    outstanding := session.outstanding ++ r.2.2.dones
    returned := session.returned ++ r.2.2.dones.map (·.index) }

def Session.onDone (id : IndexDone) (consumeErr : ConsumeErr) (rest : List IndexDone) (session : Session) : Session :=
  let r := (Queue.onDone set id consumeErr session.queue).run serve session.client
  { session with client := r.1, queue := r.2, outstanding := rest }

def Session.shutdown (session : Session) : Session :=
  let r := (Queue.shutdown session.queue).run serve session.client
  { session with client := r.1, queue := r.2.1, shutdowns := session.shutdowns + 1 }

def Session.open (capacity : Int) : Session :=
  let r := (initClient set { capacity := capacity }).run serve Client.fresh
  { client := r.1, queue := r.2 }

omit [Request T] in
theorem opened_open (capacity : Int) : Opened set capacity (Session.open set capacity) :=
  .mk (runs_of_run _ _ Answers.served)

theorem step_offer (ctx : Ctx) (req : T) (session : Session) :
    SessionStep set .offer session (session.offer set ctx req) :=
  .offer session ctx req (runs_of_run _ _ Answers.served)

theorem step_read (session : Session) : SessionStep set .read session (session.read set) :=
  .read session (runs_of_run _ _ Answers.served)

theorem step_onDone (front back : List IndexDone) (id : IndexDone) (consumeErr : ConsumeErr)
    (session : Session) (held : session.outstanding = front ++ id :: back) :
    SessionStep set .onDone session (session.onDone set id consumeErr (front ++ back)) :=
  .onDone session front back id consumeErr held (runs_of_run _ _ Answers.served)

theorem step_shutdown (session : Session) : SessionStep set .shutdown session session.shutdown :=
  .shutdown session (runs_of_run _ _ Answers.served)

end served

section parcel

def parcelRead : Session :=
  ((Session.open (parcelSettings .items) 10).offer (parcelSettings .items) () ⟨3, 40⟩).read (parcelSettings .items)

theorem parcelRead_reached (allowed : Operator → Session → Prop)
    (offers : ∀ session, allowed .offer session) (reads : ∀ session, allowed .read session) :
    SessionReached (parcelSettings .items) allowed 10 parcelRead := by
  refine ⟨_, opened_open _ 10, .step (.step .start (offers _) ?_) (reads _) (step_read _ _)⟩
  exact step_offer (parcelSettings .items) () ⟨3, 40⟩ _

theorem single_shutdown_parcel :
    parcelRead.shutdown.outstanding.length = 1 ∧
    parcelRead.shutdown.queue.refClient =
      (if parcelRead.shutdown.shutdowns = 0 then 1 else 0) + parcelRead.shutdown.outstanding.length ∧
    parcelRead.shutdown.client.closes ≤ 1 := by
  obtain ⟨_, opened, reached⟩ :=
    parcelRead_reached ShutdownOnce (fun _ absent => by cases absent) (fun _ absent => by cases absent)
  have consistent := single_shutdown_consistent
    ⟨_, opened, .step reached (fun _ => rfl) (step_shutdown (parcelSettings .items) parcelRead)⟩
  exact ⟨by decide +kernel, consistent.2.2.2.2.2.1, consistent.2.2.2.2.2.2.1⟩

/-- A second Shutdown closes the client under the consumer, whose OnDone then
calls a closed client. -/
theorem second_shutdown_closes_early :
    ∃ session next, SessionReached (parcelSettings .items) Always 10 session ∧
      session.queue.refClient ≠ (if session.shutdowns = 0 then 1 else 0) + session.outstanding.length ∧
      SessionStep (parcelSettings .items) .onDone session next ∧
      next.client.late ≠ session.client.late := by
  refine ⟨parcelRead.shutdown.shutdown,
    parcelRead.shutdown.shutdown.onDone (parcelSettings .items) ⟨0, 3, 40⟩ .none [], ?_, ?_, ?_, ?_⟩
  · obtain ⟨_, opened, reached⟩ := parcelRead_reached Always (fun _ => trivial) fun _ => trivial
    exact ⟨_, opened, .step (.step reached trivial (step_shutdown _ _)) trivial (step_shutdown _ _)⟩
  · decide +kernel
  · exact step_onDone _ [] [] _ _ _ (by decide +kernel)
  · decide +kernel

end parcel

end CollectorFormal.Queue
