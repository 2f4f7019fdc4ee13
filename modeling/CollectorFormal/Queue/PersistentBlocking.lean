import CollectorFormal.Queue.Cond
import CollectorFormal.Queue.PersistentFaults

/-! Producers that block on a full persistent queue.

The code under the lock is that of Offer, Read and OnDone over a storage that may
fail; each call of hasMoreSpace.Signal it makes is a signal of the monitor. -/

namespace CollectorFormal.Queue

open Lib List Program

variable {Ctx T : Type} [Request T]

inductive OfferReturn where
  | queue (err : Option QueueError)
  | contextEnded
  deriving DecidableEq

def OfferResult.left : OfferResult → Option OfferReturn
  | .wait => none
  | .returned err => some (.queue err)

section code
variable (set : Settings Ctx T)

def persistentCode : Critical Session (Ctx × T) OfferReturn where
  attempt request before after result :=
    ∃ client queue answer,
      Program.Runs Answers (offer set request.1 request.2 before.queue) before.client client (queue, answer) ∧
      after = { before with client := client, queue := queue } ∧ result = answer.left
  abandoned _ := .contextEnded
  resolve _ _ _ _ := False
  critical before after wake :=
    ∃ operator, (operator = .read ∨ operator = .onDone) ∧ SessionStep set operator before after ∧
      wake = .signals (after.client.signals - before.client.signals)

end code

def Metadata.Drained (metadata : Metadata) : Prop :=
  metadata.readIndex = metadata.writeIndex ∧ metadata.currentlyDispatchedItems = []

def Metadata.InSync (metadata : Metadata) : Prop :=
  metadata.Drained → metadata.itemsSize = 0 ∧ metadata.bytesSize = 0

omit [Request T] in
theorem requestSize_drained {metadata : Metadata} (drained : metadata.Drained) : metadata.requestSize = 0 := by
  rw [Metadata.requestSize, drained.1, drained.2, length_nil]
  omega

omit [Request T] in
theorem inSync_resetIfDrained (metadata : Metadata) : metadata.resetIfDrained.InSync := by
  intro drained
  obtain ⟨read, written, dispatched⟩ := resetIfDrained_indices metadata
  have size : metadata.requestSize = 0 := by
    apply requestSize_drained
    exact ⟨read ▸ written ▸ drained.1, dispatched ▸ drained.2⟩
  rw [Metadata.resetIfDrained, if_pos size]
  exact ⟨rfl, rfl⟩

omit [Request T] in
theorem internalSize_drained {metadata : Metadata} (sync : metadata.InSync) (drained : metadata.Drained)
    (sizerType : SizerType) : metadata.internalSize sizerType = 0 := by
  cases sizerType with
  | requests => exact requestSize_drained drained
  | items => exact (sync drained).1
  | bytes => exact (sync drained).2

omit [Request T] in
theorem signals_mono {α : Type} {program : StorageM α} {first last : Client} {value : α}
    (ran : Program.Runs Answers program first last value) : first.signals ≤ last.signals := by
  refine runs_invariant (fun client => first.signals ≤ client.signals) ?_
    (uses_all (fun _ => True) (fun _ => trivial) program) ran (le_refl _)
  intro call before after reply _ answered bound
  cases answered <;> cases call <;>
    simp only [serve, Client.note, Client.perform] <;> first | exact bound | exact Nat.le_succ_of_le bound

variable {set : Settings Ctx T} {first last : Client}

theorem readItems_signals {fuel : Nat} {pq : PersistentQueue}
    {result : PersistentQueue × ReadResult Ctx T} (formed : pq.metadata.WellFormed)
    (sync : pq.metadata.InSync)
    (ran : Program.Runs Answers (readItems set fuel pq) first last result) :
    result.1.metadata.InSync ∧ result.1.capacity = pq.capacity ∧
      (result.1.metadata.Drained → result.1.metadata = pq.metadata ∨ first.signals < last.signals) := by
  induction fuel generalizing pq first with
  | zero =>
    obtain ⟨rfl, rfl⟩ := runs_ret.mp ran
    exact ⟨sync, rfl, fun _ => .inl rfl⟩
  | succ fuel ih =>
    unfold readItems at ran
    split at ran
    · obtain ⟨rfl, rfl⟩ := runs_ret.mp ran
      exact ⟨sync, rfl, fun _ => .inl rfl⟩
    · next more =>
        have less := lt_of_le_of_ne formed.ordered more
        obtain ⟨middle, between, next, ran⟩ := runs_bind.mp ran
        have before := signals_mono next
        rcases getNextItem_runs formed less next with ⟨metadata, rfl, advances⟩ | ⟨ctx, req, rfl⟩
        · obtain ⟨signalled, reply, answered, ran⟩ := runs_call.mp ran
          have after := signals_mono ran
          have counted : middle.signals < signalled.signals := by
            cases answered with
            | served => exact Nat.lt_succ_self _
            | refused _ fallible | lost _ fallible => cases fallible
          obtain ⟨syncLast, capacity, -⟩ :=
            ih advances.resetIfDrained.formed (inSync_resetIfDrained metadata) ran
          exact ⟨syncLast, capacity, fun _ => .inr (by omega)⟩
        · obtain ⟨rfl, rfl⟩ := runs_ret.mp ran
          refine ⟨inSync_resetIfDrained _, rfl, fun drained => ?_⟩
          have listed := drained.2
          rw [(resetIfDrained_indices _).2.2] at listed
          simp [Metadata.takeNext] at listed

omit [Request T] in
theorem onDone_signals {id : IndexDone} {consumeErr : ConsumeErr} {pq queue : PersistentQueue}
    (ran : Program.Runs Answers (onDone set id consumeErr pq) first last queue)
    (ordinary : consumeErr.isShutdownErr = false) : first.signals < last.signals := by
  obtain ⟨middle, between, head, ran⟩ := runs_bind.mp ran
  have rest := signals_mono ran
  rw [ordinary, if_neg (by decide)] at head
  obtain ⟨_, r, finished, head⟩ := runs_bind.mp head
  obtain ⟨_, reply, answered, head⟩ := runs_call.mp head
  obtain ⟨rfl, rfl⟩ := runs_ret.mp head
  have before := signals_mono finished
  cases answered with
  | served =>
    simp only [serve, Client.note, Client.perform] at rest
    omega
  | refused _ fallible | lost _ fallible => cases fallible

omit [Request T] in
theorem onDone_unchanged {id : IndexDone} {consumeErr : ConsumeErr} {pq queue : PersistentQueue}
    (ran : Program.Runs Answers (onDone set id consumeErr pq) first last queue)
    (shutdown : consumeErr.isShutdownErr = true) : queue.metadata = pq.metadata := by
  obtain ⟨middle, between, head, ran⟩ := runs_bind.mp ran
  obtain ⟨_, r, dropped, ran⟩ := runs_bind.mp ran
  obtain ⟨rfl, rfl⟩ := runs_ret.mp ran
  rw [shutdown, if_pos rfl] at head
  obtain ⟨rfl, rfl⟩ := runs_ret.mp head
  rw [(unrefClient_runs dropped).1]

structure Blocking (capacity : Int) (session : Session) : Prop where
  consistent : Consistent session
  sync : session.queue.metadata.InSync
  capacity : session.queue.capacity = capacity

section rules
variable {capacity : Int} {before after : Session}

/-- A producer waits, or is turned away, only on a queue that is not empty. -/
theorem offer_busy {request : Ctx × T} {result : Option OfferReturn}
    (blocking : Blocking capacity before) (fits : sizeof set.sizerType request.2 ≤ capacity)
    (attempted : (persistentCode set).attempt request before after result) :
    Blocking capacity after ∧ ¬ after.queue.metadata.Drained := by
  obtain ⟨client, queue, answer, ran, rfl, rfl⟩ := attempted
  have consistent := consistent_offer blocking.consistent (.offer before request.1 request.2 ran)
  unfold offer at ran
  split at ran
  · next full =>
      have busy : ¬ before.queue.metadata.Drained := by
        intro drained
        rw [internalSize_drained blocking.sync drained, blocking.capacity] at full
        omega
      split at ran <;>
      · obtain ⟨rfl, same⟩ := runs_ret.mp ran
        obtain ⟨rfl, -⟩ := Prod.mk.inj same
        exact ⟨⟨consistent, blocking.sync, blocking.capacity⟩, busy⟩
  · obtain ⟨_, between, put, ran⟩ := runs_bind.mp ran
    obtain ⟨rfl, same⟩ := runs_ret.mp ran
    obtain ⟨rfl, -⟩ := Prod.mk.inj same
    have queue := putInternal_runs put
    have busy : ¬ between.1.metadata.Drained := by
      intro drained
      have indices := drained.1
      have ordered := blocking.consistent.formed.ordered
      rw [queue] at indices
      simp only [Metadata.advanceWrite, Metadata.addSizes] at indices
      omega
    refine ⟨⟨consistent, fun drained => absurd drained busy, ?_⟩, busy⟩
    simp only [queue]
    exact blocking.capacity

theorem section_wakes {wake : Wake} (blocking : Blocking capacity before)
    (entered : (persistentCode set).critical before after wake) :
    Blocking capacity after ∧ (after.queue.metadata.Drained → before.queue.metadata.Drained ∨ wake ≠ .signals 0) := by
  obtain ⟨operator, rfl | rfl, step, rfl⟩ := entered
  · have consistent := (consistent_read blocking.consistent step).1
    cases step with
    | @read _ client queue result ran =>
      unfold read at ran
      split at ran
      · obtain ⟨rfl, same⟩ := runs_ret.mp ran
        obtain ⟨rfl, rfl⟩ := Prod.mk.inj same
        exact ⟨⟨consistent, blocking.sync, blocking.capacity⟩, fun drained => .inl drained⟩
      · obtain ⟨sync, same, wakes⟩ :=
          readItems_signals blocking.consistent.formed blocking.sync ran
        refine ⟨⟨consistent, sync, same.trans blocking.capacity⟩, fun drained => ?_⟩
        rcases wakes drained with unchanged | more
        · exact .inl (unchanged ▸ drained)
        · right
          simp only [ne_eq, Wake.signals.injEq]
          omega
  · have consistent := (consistent_onDone blocking.consistent step).1
    cases step with
    | @onDone _ front back id consumeErr client queue held ran =>
      have opened : before.client.closes = 0 := by
        obtain ⟨-, -, -, -, -, -, references, closed⟩ := blocking.consistent
        have count : before.outstanding.length ≠ 0 := by simp [held]
        rw [closed, if_neg]
        rw [references]
        split <;> omega
      obtain ⟨⟨metadata, rfl, change⟩, -, -⟩ := onDone_runs opened ran
      have sync : metadata.InSync := by
        rcases change with rfl | rfl
        · exact blocking.sync
        · exact inSync_resetIfDrained _
      refine ⟨⟨consistent, sync, blocking.capacity⟩, fun drained => ?_⟩
      cases shutdown : consumeErr.isShutdownErr with
      | true => exact .inl (onDone_unchanged ran shutdown ▸ drained)
      | false =>
        right
        have more := onDone_signals ran shutdown
        simp only [ne_eq, Wake.signals.injEq]
        omega

end rules

theorem persistent_neverIdle (set : Settings Ctx T) (capacity : Int) :
    NeverIdle (persistentCode set) (Blocking capacity) (fun request => sizeof set.sizerType request.2 ≤ capacity)
      (fun session => session.queue.metadata.Drained) where
  attempt _ _ _ _ blocking fits attempted := offer_busy blocking fits attempted
  resolve _ _ _ _ _ resolved := resolved.elim
  critical _ _ _ blocking entered := section_wakes blocking entered

/-- While every request offered fits the capacity, no producer is left in Wait on
an empty queue without a wake-up on its way. -/
theorem fitting_producers_woken {capacity : Int} {start : Session} {requests : List (Ctx × T)}
    {state : Monitor Session (Ctx × T) OfferReturn} (consistent : Consistent start)
    (sync : start.queue.metadata.InSync) (bounded : start.queue.capacity = capacity)
    (fit : ∀ request ∈ requests, sizeof set.sizerType request.2 ≤ capacity)
    (reached : Reached (MonitorStep (persistentCode set)) Always (.start start requests) state)
    {request : Ctx × T} (blocked : .selecting request ∈ state.goroutines)
    (empty : state.shared.queue.metadata.Drained) : state.WakePending := by
  have alive := reached_alive (persistent_neverIdle set capacity) ⟨consistent, sync, bounded⟩ fit reached
  obtain ⟨front, back, here⟩ := append_of_mem blocked
  exact alive.pending (selecting_pos here) empty

section parcel

def blockingSettings : Settings Unit Parcel :=
  { parcelSettings .items with blockOnOverflow := true }

omit [Request T] in
theorem opened_inSync {capacity : Int} {session : Session} (opened : Opened set capacity session) :
    session.queue.metadata.InSync ∧ session.queue.capacity = capacity := by
  cases opened with
  | @mk client queue ran =>
    obtain rfl := initClient_fresh rfl ran
    exact ⟨fun _ => ⟨rfl, rfl⟩, rfl⟩

/-- A parcel of the queue's whole capacity, read and being consumed. -/
def fullRead : Session :=
  ((Session.open blockingSettings 10).offer blockingSettings () ⟨10, 0⟩).read blockingSettings

def fullDone : Session := fullRead.onDone blockingSettings ⟨0, 10, 0⟩ .none []

theorem attempt_waits {session : Session} {request : Unit × Parcel}
    (full : session.queue.metadata.itemsSize + request.2.items > session.queue.capacity) :
    (persistentCode blockingSettings).attempt request session session none := by
  refine ⟨session.client, session.queue, .wait, ?_, rfl, rfl⟩
  have exceeds : session.queue.metadata.internalSize blockingSettings.sizerType +
      sizeof blockingSettings.sizerType request.2 > session.queue.capacity := full
  have blocks : blockingSettings.blockOnOverflow = true := rfl
  rw [offer, if_pos exceeds, if_pos blocks]
  exact runs_ret.mpr ⟨rfl, rfl⟩

theorem attempt_accepts : (persistentCode blockingSettings).attempt ((), ⟨10, 0⟩) (Session.open blockingSettings 10)
    ((Session.open blockingSettings 10).offer blockingSettings () ⟨10, 0⟩) (some (.queue none)) :=
  ⟨_, _, _, runs_of_run _ _ Answers.served, rfl, by decide +kernel⟩

theorem critical_read : (persistentCode blockingSettings).critical
    ((Session.open blockingSettings 10).offer blockingSettings () ⟨10, 0⟩) fullRead (.signals 0) :=
  ⟨.read, .inl rfl, step_read _ _, by decide +kernel⟩

theorem critical_onDone : (persistentCode blockingSettings).critical fullRead fullDone (.signals 1) :=
  ⟨.onDone, .inr rfl, step_onDone _ [] [] _ _ _ (by decide +kernel), by decide +kernel⟩

/-- The parcel is being consumed while a producer of `size` and one of 5 wait; OnDone
signals, and the first of them receives. -/
def wokenFirst (size : Nat) : Monitor Session (Unit × Parcel) OfferReturn :=
  { shared := fullDone
    waiting := 1
    goroutines := [.left ((), ⟨10, 0⟩) (.queue none), .woken ((), ⟨size, 0⟩), .selecting ((), ⟨5, 0⟩)] }

theorem wokenFirst_reached {size : Nat} (some : 0 < size) :
    Reached (MonitorStep (persistentCode blockingSettings)) Always
      (.start (Session.open blockingSettings 10) [((), ⟨10, 0⟩), ((), ⟨size, 0⟩), ((), ⟨5, 0⟩)])
      (wokenFirst size) := by
  have initial : Reached (MonitorStep (persistentCode blockingSettings)) Always
      (.start (Session.open blockingSettings 10) [((), ⟨10, 0⟩), ((), ⟨size, 0⟩), ((), ⟨5, 0⟩)])
      (.start (Session.open blockingSettings 10) [((), ⟨10, 0⟩), ((), ⟨size, 0⟩), ((), ⟨5, 0⟩)]) := .start
  have offered := initial.step trivial
    (.leave _ [] _ _ ((), ⟨10, 0⟩) (.queue none) _ rfl rfl (.calling _) attempt_accepts)
  have read := (offered.step trivial (.enter _ _ _ rfl critical_read)).step trivial (.unlock _ rfl)
  have held : fullRead.queue.metadata.itemsSize = 10 ∧ fullRead.queue.capacity = 10 := by
    decide +kernel
  have first := read.step trivial (.wait _ [_] [_] _ ((), ⟨size, 0⟩) _ rfl rfl (.calling _)
    (attempt_waits (by simp only [held]; omega)))
  have second := first.step trivial (.wait _ [_, _] [] _ ((), ⟨5, 0⟩) _ rfl rfl (.calling _)
    (attempt_waits (by simp only [held]; omega)))
  have done := second.step trivial (.enter _ _ _ rfl critical_onDone)
  have signalled := ((done.step trivial (.signal _ 0 rfl Nat.noConfusion)).step trivial
    (.send _ 0 rfl rfl)).step trivial (.unlock _ rfl)
  exact signalled.step trivial (.receive _ [_] [_] ((), (⟨size, 0⟩ : Parcel)) rfl rfl)

theorem fitting_producers_parcel : fullDone.queue.metadata.Drained ∧ (wokenFirst 7).WakePending := by
  have drained : fullDone.queue.metadata.Drained := ⟨by decide +kernel, by decide +kernel⟩
  have opened := opened_open blockingSettings 10
  have blocked : Goroutine.selecting ((), (⟨5, 0⟩ : Parcel)) ∈ (wokenFirst 7).goroutines :=
    mem_of_getLast? rfl
  refine ⟨drained, fitting_producers_woken (opened_consistent opened) (opened_inSync opened).1
    (opened_inSync opened).2 ?_ (wokenFirst_reached (by decide)) blocked drained⟩
  decide +kernel

/-- A producer larger than the queue takes the only wake-up and waits again. -/
theorem oversized_producer_takes_wakeup :
    ∃ state, Reached (MonitorStep (persistentCode blockingSettings)) Always
        (.start (Session.open blockingSettings 10) [((), ⟨10, 0⟩), ((), ⟨11, 0⟩), ((), ⟨5, 0⟩)]) state ∧
      blockingSettings.blockOnOverflow = true ∧ state.shared.queue.metadata.Drained ∧
      .selecting ((), ⟨5, 0⟩) ∈ state.goroutines ∧
      sizeof blockingSettings.sizerType (⟨5, 0⟩ : Parcel) ≤ state.shared.queue.capacity ∧
      ¬ state.WakePending := by
  have empty : fullDone.queue.metadata.itemsSize = 0 ∧ fullDone.queue.capacity = 10 := by
    decide +kernel
  have again := (wokenFirst_reached (by decide : 0 < 11)).step trivial
    (.wait _ [_] [_] _ ((), ⟨11, 0⟩) _ rfl rfl (.woken _) (attempt_waits (by simp only [wokenFirst, empty]; omega)))
  refine ⟨_, again, rfl, ⟨by decide +kernel, by decide +kernel⟩, mem_of_getLast? rfl,
    by decide +kernel, ?_⟩
  rintro (full | ⟨count, inside⟩ | ⟨count, inside⟩ | inside | ⟨request, member⟩)
  · cases full
  · cases inside
  · cases inside
  · cases inside
  · simp at member

end parcel

end CollectorFormal.Queue
