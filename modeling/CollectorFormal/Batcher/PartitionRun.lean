import CollectorFormal.Lib.Runs
import CollectorFormal.Batcher.Ledger

/-! The goroutines of a partition, in any order.

Between two sections under currentBatchMu a goroutine hands batches to flush, waits for a worker, or calls onEmpty.
The timer may fire whenever its goroutine waits for it, and a check that finds no batch may find the partition idle
long enough or not. -/

namespace CollectorFormal.Batcher

open Lib List

inductive Role (Req : Type) where
  | consume (call : Nat) (req : Req)
  | timer
  /-- shutdownInternal, on a worker of the pool or not. -/
  | shutdown (onWorker : Bool)

inductive Pc (Req : Type) where
  /-- Before the section of Consume or shutdownInternal, or in the select of the timer's loop. -/
  | start
  /-- With batches to give to flush, and with a call of flushCurrentBatchOrRemovePartition or not. -/
  | flush (tasks : List (Batch Req)) (again : Bool)
  /-- In flush, waiting for a worker. -/
  | execute (task : Batch Req) (tasks : List (Batch Req)) (again : Bool)
  /-- About to close shutdownCh. -/
  | closing
  /-- At the beginning of flushCurrentBatchOrRemovePartition. -/
  | check
  /-- About to call onEmpty. -/
  | empty
  /-- In onEmpty. -/
  | removing
  /-- In stopWG.Wait. -/
  | wait
  | returned

structure Thread (Req : Type) where
  role : Role Req
  pc : Pc Req

inductive Export (Req E : Type) where
  | exporting (batch : Batch Req)
  | notifying (err : List E) (done : List Done)

structure PartitionState (Req E : Type) where
  currentBatch : Option (Batch Req) := none
  active : Bool := true
  onEmpty : Bool
  /-- Whether shutdownCh is closed. -/
  closed : Bool := false
  threads : List (Thread Req) := [⟨.timer, .start⟩]
  exports : List (Export Req E) := []
  accounts : Accounts E := {}
  calls : Nat := 0
  sections : List (Section Req E) := []
  /-- The calls of flush. -/
  handed : List (Batch Req) := []
  /-- What the exporter answered. -/
  finished : List (Batch Req × List E) := []
  /-- onEmpty was called when it was nil. -/
  crashed : Bool := false

inductive PartitionLabel (Req : Type) where
  | consume (req : Req)
  | shutdown (onWorker : Bool)
  | acquire
  | release
  | deactivate
  | idle
  | enter
  | leave
  | internal

variable {Req E : Type}

def Role.isTimer : Role Req → Bool
  | .timer => true
  | _ => false

def Pc.isExecute : Pc Req → Bool
  | .execute _ _ _ => true
  | _ => false

def Pc.isReturned : Pc Req → Bool
  | .returned => true
  | _ => false

/-- The counter of stopWG: the timer's goroutine and the calls of flush that have not ended. -/
def PartitionState.stopWG (s : PartitionState Req E) : Nat :=
  s.threads.countP (fun thread => thread.role.isTimer && !thread.pc.isReturned) +
    s.threads.countP (fun thread => thread.pc.isExecute) + s.exports.length

/-- Where a goroutine goes on after flushCurrentBatchOrRemovePartition. -/
def Role.finish : Role Req → Pc Req
  | .consume _ _ => .returned
  | .timer => .start
  | .shutdown _ => .wait

/-- A shutdownInternal that ends on a worker makes it free. -/
def endLabel (onWorker : Bool) : PartitionLabel Req := if onWorker then .release else .internal

section steps
variable (kind : RequestKind Req E) (cfg : BatchConfig)

/-- The effect of the section of consumeInternal. -/
def PartitionState.consumed (s : PartitionState Req E) (call : Nat) (req : Req) : PartitionState Req E :=
  let r := consumeInternal kind cfg s.currentBatch call req
  { s with
    currentBatch := r.currentBatch
    accounts := s.accounts.consumed call r
    sections := s.sections ++ [entering kind cfg s.currentBatch call req] }

inductive Move : PartitionLabel Req → Role Req → Pc Req → PartitionState Req E → Pc Req →
    PartitionState Req E → Prop where
  | consume (s : PartitionState Req E) (call : Nat) (req : Req) :
      Move .internal (.consume call req) .start s
        (.flush (consumeInternal kind cfg s.currentBatch call req).flushes (!s.active))
        (s.consumed kind cfg call req)
  | flush (role : Role Req) (s : PartitionState Req E) (task : Batch Req) (tasks : List (Batch Req)) (again : Bool) :
      Move .internal role (.flush (task :: tasks) again) s (.execute task tasks again)
        { s with handed := s.handed ++ [task] }
  | execute (role : Role Req) (s : PartitionState Req E) (task : Batch Req) (tasks : List (Batch Req)) (again : Bool) :
      Move .acquire role (.execute task tasks again) s (.flush tasks again)
        { s with exports := s.exports ++ [.exporting task] }
  | flushed (role : Role Req) (s : PartitionState Req E) (again : Bool) :
      Move .internal role (.flush [] again) s (if again then .check else role.finish) s
  | tick (s : PartitionState Req E) : Move .internal .timer .start s .check s
  | stop (s : PartitionState Req E) (closed : s.closed = true) : Move .internal .timer .start s .returned s
  | deactivate (s : PartitionState Req E) (onWorker : Bool) (active : s.active = true) :
      Move .deactivate (.shutdown onWorker) .start s .closing { s with active := false, onEmpty := false }
  | inactive (s : PartitionState Req E) (onWorker : Bool) (inactive : s.active = false) :
      Move (endLabel onWorker) (.shutdown onWorker) .start s .returned s
  | close (s : PartitionState Req E) (onWorker : Bool) :
      Move .internal (.shutdown onWorker) .closing s .check { s with closed := true }
  | take (role : Role Req) (s : PartitionState Req E) (batch : Batch Req) (current : s.currentBatch = some batch) :
      Move .internal role .check s (.flush [batch] false) { s with currentBatch := none }
  | idle (role : Role Req) (s : PartitionState Req E) (none : s.currentBatch = none)
      (set : s.onEmpty = true) : Move .idle role .check s .empty s
  | nothing (role : Role Req) (s : PartitionState Req E) (none : s.currentBatch = none) :
      Move .internal role .check s role.finish s
  | enter (role : Role Req) (s : PartitionState Req E) (set : s.onEmpty = true) :
      Move .enter role .empty s .removing s
  | crash (role : Role Req) (s : PartitionState Req E) (unset : s.onEmpty = false) :
      Move .internal role .empty s .empty { s with crashed := true }
  | leave (role : Role Req) (s : PartitionState Req E) : Move .leave role .removing s role.finish s
  | wait (s : PartitionState Req E) (onWorker : Bool) (ended : s.stopWG = 0) :
      Move (endLabel onWorker) (.shutdown onWorker) .wait s .returned s

inductive PartitionStep : PartitionLabel Req → PartitionState Req E → PartitionState Req E → Prop where
  | consume (s : PartitionState Req E) (req : Req) :
      PartitionStep (.consume req) s
        { s with calls := s.calls + 1, threads := s.threads ++ [⟨.consume s.calls req, .start⟩] }
  | shutdown (s : PartitionState Req E) (onWorker : Bool) :
      PartitionStep (.shutdown onWorker) s { s with threads := s.threads ++ [⟨.shutdown onWorker, .start⟩] }
  | move {label : PartitionLabel Req} {role : Role Req} {pc next : Pc Req} {s after : PartitionState Req E}
      (front back : List (Thread Req)) (threads : s.threads = front ++ ⟨role, pc⟩ :: back)
      (moved : Move kind cfg label role pc s next after) :
      PartitionStep label s { after with threads := front ++ ⟨role, next⟩ :: back }
  | exported (s : PartitionState Req E) (front back : List (Export Req E)) (batch : Batch Req)
      (err : List E) (exports : s.exports = front ++ .exporting batch :: back) :
      PartitionStep .internal s
        { s with
          exports := front ++ .notifying err batch.done :: back
          finished := s.finished ++ [(batch, err)] }
  | notify (s : PartitionState Req E) (front back : List (Export Req E)) (err : List E) (done : Done)
      (rest : List Done) (exports : s.exports = front ++ .notifying err (done :: rest) :: back) :
      PartitionStep .internal s
        { s with
          exports := front ++ .notifying err rest :: back
          accounts := s.accounts.onDone err done }
  | release (s : PartitionState Req E) (front back : List (Export Req E)) (err : List E)
      (exports : s.exports = front ++ .notifying err [] :: back) :
      PartitionStep .release s { s with exports := front ++ back }

end steps

/-- newPartitionBatcher and Start: the timer's goroutine is running. -/
def newPartition (onEmpty : Bool) : PartitionState Req E := { onEmpty := onEmpty }

def Pc.tasks : Pc Req → List (Batch Req)
  | .flush tasks _ => tasks
  | .execute _ tasks _ => tasks
  | _ => []

def Pc.willCheck : Pc Req → Bool
  | .flush _ again => again
  | .execute _ _ again => again
  | .closing => true
  | .check => true
  | _ => false

/-- A shutdownInternal that has cleared active and has not returned. -/
def Thread.stopping : Thread Req → Bool
  | ⟨.shutdown _, pc⟩ =>
    match pc with
    | .start => false
    | .returned => false
    | _ => true
  | _ => false

def PartitionState.unhanded (s : PartitionState Req E) : List (Batch Req) :=
  s.currentBatch.toList ++ s.threads.flatMap fun thread => thread.pc.tasks

def tells (call : Nat) (batches : List (Batch Req)) : Nat :=
  (batches.flatMap Batch.done).countP fun done => done.call = call

def pieces (call : Nat) (sections : List (Section Req E)) : Nat :=
  (sections.map fun entry => if entry.call = call then entry.answer.reqList.length else 0).sum

/-- What holds in every state of a partition for nothing to be left behind. -/
structure Drains (s : PartitionState Req E) : Prop where
  /-- Whoever is in shutdownInternal, past its section, has cleared active. -/
  cleared : ∀ thread ∈ s.threads, thread.stopping = true → s.active = false
  returned : ∀ thread ∈ s.threads, ∀ onWorker, thread = ⟨.shutdown onWorker, .returned⟩ → s.active = false
  timers : s.active = false → (∃ thread ∈ s.threads, thread.stopping = true) ∨
    ∀ thread ∈ s.threads, thread.role.isTimer = true → thread.pc.isReturned = true
  current : s.currentBatch ≠ none → s.active = true ∨ ∃ thread ∈ s.threads, thread.pc.willCheck = true
  handed : ∀ call, tells call s.handed + tells call s.unhanded = pieces call s.sections

section drains
variable {kind : RequestKind Req E} {cfg : BatchConfig} {s after : PartitionState Req E}
  {label : PartitionLabel Req} {role : Role Req} {pc next : Pc Req}

theorem tells_append (call : Nat) (first second : List (Batch Req)) :
    tells call (first ++ second) = tells call first + tells call second := by
  simp [tells, countP_append]

theorem tells_cons (call : Nat) (batch : Batch Req) (batches : List (Batch Req)) :
    tells call (batch :: batches) = tells call [batch] + tells call batches :=
  tells_append call [batch] batches

theorem tells_perm {first second : List (Batch Req)} (call : Nat) (perm : first.Perm second) :
    tells call first = tells call second :=
  (perm.flatMap_right _).countP_eq _

theorem pieces_append (call : Nat) (sections : List (Section Req E)) (entry : Section Req E) :
    pieces call (sections ++ [entry]) =
      pieces call sections + if entry.call = call then entry.answer.reqList.length else 0 := by
  simp [pieces]

theorem tells_consumed (kind : RequestKind Req E) (cfg : BatchConfig) (currentBatch : Option (Batch Req))
    (call other : Nat) (req : Req) :
    tells other (consumeInternal kind cfg currentBatch call req).currentBatch.toList +
        tells other (consumeInternal kind cfg currentBatch call req).flushes =
      tells other currentBatch.toList +
        if call = other then (mergeSplitWith kind cfg currentBatch req).reqList.length else 0 := by
  have added := consumeInternal_done kind cfg currentBatch call req
  rw [Nat.add_comm, ← tells_append, tells, added, countP_append, countP_replicate, wrapDone_call]
  simp [tells]

section
variable (moved : Move kind cfg label role pc s next after)
include moved

theorem Move.active :
    after.active = s.active ∨ s.active = true ∧ after.active = false ∧ ∃ onWorker,
      role = .shutdown onWorker ∧ pc = .start ∧ next = .closing := by
  cases moved with
  | deactivate _ onWorker active => exact .inr ⟨active, rfl, onWorker, rfl, rfl, rfl⟩
  | _ => exact .inl rfl

theorem Move.inactive_stays (inactive : s.active = false) : after.active = false := by
  rcases moved.active with same | ⟨active, _⟩
  · exact same.trans inactive
  · rw [inactive] at active
    cases active

theorem Move.accounts (call : Nat) :
    tells call after.handed + (tells call after.currentBatch.toList + tells call next.tasks) + pieces call s.sections =
      tells call s.handed + (tells call s.currentBatch.toList + tells call pc.tasks) + pieces call after.sections := by
  cases moved with
  | consume _ other req =>
    have added := tells_consumed kind cfg s.currentBatch other call req
    simp only [PartitionState.consumed, Pc.tasks, pieces_append, tells, entering] at added ⊢
    simp only [flatMap_nil, countP_nil]
    omega
  | flush _ _ task tasks again =>
    simp only [Pc.tasks, tells_append]
    rw [tells_cons call task tasks]
    omega
  | flushed _ _ again => cases again <;> cases role <;> rfl
  | take _ _ batch current =>
    rw [current]
    simp [Pc.tasks, tells]
  | nothing | leave => cases role <;> rfl
  | _ => rfl

end

theorem tells_unhanded {front back : List (Thread Req)} {thread : Thread Req}
    (threads : s.threads = front ++ thread :: back) (call : Nat) :
    tells call s.unhanded = tells call s.currentBatch.toList + tells call thread.pc.tasks +
      tells call ((front ++ back).flatMap fun other => other.pc.tasks) := by
  rw [PartitionState.unhanded, threads, tells_append, tells_perm call (flatMap_placed _ thread front back),
    tells_append, Nat.add_assoc]

section
variable (moved : Move kind cfg label role pc s next after)
include moved

theorem Move.stopping_stays (stopping : Thread.stopping ⟨role, pc⟩ = true) :
    Thread.stopping ⟨role, next⟩ = true ∨ s.stopWG = 0 ∧ ∃ onWorker, role = .shutdown onWorker := by
  cases moved with
  | wait _ onWorker ended => exact .inr ⟨ended, onWorker, rfl⟩
  | flushed _ _ again =>
    left
    cases role with
    | shutdown onWorker => cases again <;> rfl
    | _ => cases stopping
  | close => exact .inl rfl
  | consume | tick | stop | deactivate | inactive => cases stopping
  | _ =>
    left
    cases role with
    | shutdown onWorker => rfl
    | _ => cases stopping

theorem Move.stopping_before (stopping : Thread.stopping ⟨role, next⟩ = true) :
    Thread.stopping ⟨role, pc⟩ = true ∨ after.active = false := by
  cases moved with
  | deactivate => exact .inr rfl
  | close => exact .inl rfl
  | consume | tick | stop | inactive | wait => cases stopping
  | _ =>
    left
    cases role with
    | shutdown onWorker => rfl
    | _ => cases stopping

theorem Move.returned_inactive {onWorker : Bool} (shutdown : role = .shutdown onWorker) (returned : next = .returned) :
    Thread.stopping ⟨role, pc⟩ = true ∨ s.active = false := by
  cases moved with
  | inactive _ _ inactive => exact .inr inactive
  | wait => exact .inl rfl
  | flushed _ _ again =>
    subst shutdown
    cases again <;> cases returned
  | nothing | leave =>
    subst shutdown
    cases returned
  | stop => cases shutdown
  | _ => cases returned

theorem Move.willCheck_stays (will : pc.willCheck = true) : next.willCheck = true ∨ after.currentBatch = none := by
  cases moved with
  | flush | execute => exact .inl will
  | flushed _ _ again =>
    left
    cases again with
    | true => rfl
    | false => cases will
  | close => exact .inl rfl
  | take => exact .inr rfl
  | idle _ _ none | nothing _ _ none => exact .inr none
  | _ => cases will

theorem Move.current_watched (current : after.currentBatch ≠ none) :
    after.active = true ∨ next.willCheck = true ∨ s.currentBatch ≠ none := by
  cases moved with
  | consume =>
    cases active : s.active with
    | true => exact .inl active
    | false => exact .inr (.inl rfl)
  | take => exact absurd rfl current
  | _ => exact .inr (.inr current)

theorem Move.timer_running : pc.isReturned = false := by
  cases moved with
  | _ => rfl

end

theorem stopWG_timers (ended : s.stopWG = 0) :
    ∀ thread ∈ s.threads, thread.role.isTimer = true → thread.pc.isReturned = true := by
  intro thread member timer
  have none : s.threads.countP (fun thread => thread.role.isTimer && !thread.pc.isReturned) = 0 := by
    unfold PartitionState.stopWG at ended
    omega
  simpa [timer] using countP_eq_zero.mp none thread member

section move
variable {front back : List (Thread Req)}

theorem Move.mem_before (threads : s.threads = front ++ ⟨role, pc⟩ :: back) {thread : Thread Req}
    (member : thread ∈ front ++ ⟨role, next⟩ :: back) : thread = ⟨role, next⟩ ∨ thread ∈ s.threads := by
  rw [threads]
  exact mem_placed _ member

section
variable (drains : Drains s)
include drains

section
variable (threads : s.threads = front ++ ⟨role, pc⟩ :: back)
include threads

section
variable (moved : Move kind cfg label role pc s next after)
include moved

theorem Drains.cleared_after :
    ∀ thread ∈ front ++ ⟨role, next⟩ :: back, thread.stopping = true → after.active = false := by
  intro thread member stopping
  rcases Move.mem_before threads member with rfl | before
  · rcases moved.stopping_before stopping with stopped | inactive
    · exact moved.inactive_stays (drains.cleared _ (threads ▸ mem_append_cons_self) stopped)
    · exact inactive
  · exact moved.inactive_stays (drains.cleared thread before stopping)

theorem Drains.returned_after :
    ∀ thread ∈ front ++ ⟨role, next⟩ :: back, ∀ onWorker,
      thread = ⟨.shutdown onWorker, .returned⟩ → after.active = false := by
  intro thread member onWorker same
  rcases Move.mem_before threads member with rfl | before
  · simp only [Thread.mk.injEq] at same
    rcases moved.returned_inactive same.1 same.2 with stopped | inactive
    · exact moved.inactive_stays (drains.cleared _ (threads ▸ mem_append_cons_self) stopped)
    · exact moved.inactive_stays inactive
  · exact moved.inactive_stays (drains.returned thread before onWorker same)

theorem Drains.timers_after (inactive : after.active = false) :
    (∃ thread ∈ front ++ ⟨role, next⟩ :: back, thread.stopping = true) ∨
      ∀ thread ∈ front ++ ⟨role, next⟩ :: back, thread.role.isTimer = true → thread.pc.isReturned = true := by
  rcases moved.active with same | ⟨_, _, onWorker, rfl, rfl, rfl⟩
  · rcases drains.timers (same.symm.trans inactive) with stopping | timers
    · by_cases stays : Thread.stopping ⟨role, pc⟩ = true → Thread.stopping ⟨role, next⟩ = true
      · rw [threads] at stopping
        exact .inl (exists_placed stopping stays)
      · obtain ⟨stopped, gone⟩ := Classical.not_imp.mp stays
        rcases moved.stopping_stays stopped with goes | ⟨ended, onWorker, rfl⟩
        · exact absurd goes gone
        · right
          intro thread member timer
          rcases Move.mem_before threads member with rfl | before
          · cases timer
          · exact stopWG_timers ended thread before timer
    · right
      intro thread member timer
      rcases Move.mem_before threads member with rfl | before
      · have returned := timers ⟨role, pc⟩ (threads ▸ mem_append_cons_self) timer
        rw [moved.timer_running] at returned
        cases returned
      · exact timers thread before timer
  · exact .inl ⟨_, mem_append_cons_self, rfl⟩

theorem Drains.current_after (current : after.currentBatch ≠ none) :
    after.active = true ∨ ∃ thread ∈ front ++ ⟨role, next⟩ :: back, thread.pc.willCheck = true := by
  rcases moved.current_watched current with active | will | before
  · exact .inl active
  · exact .inr ⟨_, mem_append_cons_self, will⟩
  · rcases drains.current before with active | will
    · rcases moved.active with same | ⟨_, _, onWorker, rfl, rfl, rfl⟩
      · exact .inl (same.trans active)
      · exact .inr ⟨_, mem_append_cons_self, rfl⟩
    · right
      rw [threads] at will
      refine exists_placed will fun will => ?_
      rcases moved.willCheck_stays will with goes | none
      · exact goes
      · exact absurd none current

theorem Drains.move :
    Drains { after with threads := front ++ ⟨role, next⟩ :: back } := by
  have cleared := drains.cleared_after threads moved
  have returned := drains.returned_after threads moved
  have timers := drains.timers_after threads moved
  have current := drains.current_after threads moved
  refine ⟨cleared, returned, timers, current, ?_⟩
  intro call
  have step := moved.accounts call
  have before := drains.handed call
  rw [tells_unhanded threads] at before
  have now : ({ after with threads := front ++ ⟨role, next⟩ :: back } : PartitionState Req E).threads =
      front ++ ⟨role, next⟩ :: back := rfl
  rw [tells_unhanded now]
  simp only at step before ⊢
  omega

end

end

end

end move

theorem Drains.congr {t : PartitionState Req E} (drains : Drains s) (currentBatch : t.currentBatch = s.currentBatch)
    (active : t.active = s.active) (threads : t.threads = s.threads) (sections : t.sections = s.sections)
    (handed : t.handed = s.handed) : Drains t := by
  obtain ⟨cleared, returned, timers, current, pieces⟩ := drains
  rw [← threads] at cleared returned timers current
  rw [← active] at cleared returned timers current
  rw [← currentBatch] at current
  refine ⟨cleared, returned, timers, current, ?_⟩
  intro call
  rw [PartitionState.unhanded, currentBatch, threads, sections, handed]
  exact pieces call

theorem Drains.arrive (drains : Drains s) (role : Role Req) (calls : Nat) (caller : role.isTimer = false) :
    Drains { s with calls := calls, threads := s.threads ++ [⟨role, .start⟩] } := by
  have fresh : Thread.stopping (⟨role, .start⟩ : Thread Req) = false := by
    cases role with
    | _ => rfl
  have old {p : Thread Req → Prop} (all : ∀ thread ∈ s.threads, p thread) (here : p ⟨role, .start⟩) :
      ∀ thread ∈ s.threads ++ [⟨role, .start⟩], p thread := by
    simpa [or_imp, forall_and] using ⟨all, here⟩
  refine ⟨old drains.cleared ?_, old drains.returned ?_, ?_, ?_, ?_⟩
  · intro stopping
    rw [fresh] at stopping
    cases stopping
  · rintro onWorker ⟨⟩
  · intro inactive
    rcases drains.timers inactive with ⟨thread, member, stopping⟩ | timers
    · exact .inl ⟨thread, mem_append_left _ member, stopping⟩
    · right
      apply old timers
      intro timer
      rw [caller] at timer
      cases timer
  · intro current
    rcases drains.current current with active | ⟨thread, member, will⟩
    · exact .inl active
    · exact .inr ⟨thread, mem_append_left _ member, will⟩
  · intro call
    have before := drains.handed call
    simpa [PartitionState.unhanded, Pc.tasks] using before

theorem PartitionStep.drains {t : PartitionState Req E} (step : PartitionStep kind cfg label s t)
    (drains : Drains s) : Drains t := by
  cases step with
  | consume _ req => exact drains.arrive (.consume s.calls req) (s.calls + 1) rfl
  | shutdown _ onWorker => exact drains.arrive (.shutdown onWorker) s.calls rfl
  | move front back threads moved => exact drains.move threads moved
  | exported | notify | release => exact drains.congr rfl rfl rfl rfl rfl

theorem newPartition_drains (onEmpty : Bool) : Drains (newPartition onEmpty : PartitionState Req E) := by
  constructor <;> simp [newPartition, Thread.stopping, tells, pieces, PartitionState.unhanded, Pc.tasks]

end drains

structure Returned (s : PartitionState Req E) : Prop where
  shutdown : ∃ onWorker, (⟨.shutdown onWorker, .returned⟩ : Thread Req) ∈ s.threads
  all : ∀ thread ∈ s.threads, thread.role.isTimer = false → thread.pc.isReturned = true

structure Drained (s : PartitionState Req E) : Prop where
  current : s.currentBatch = none
  unhanded : s.unhanded = []
  handed : ∀ call, tells call s.handed = pieces call s.sections

variable {s : PartitionState Req E}

theorem Drains.all_returned (drains : Drains s) (returned : Returned s) :
    ∀ thread ∈ s.threads, thread.pc = .returned := by
  have ended {thread : Thread Req} (finished : thread.pc.isReturned = true) : thread.pc = .returned := by
    obtain ⟨role, pc⟩ := thread
    cases pc <;> cases finished
    rfl
  intro thread member
  cases timer : thread.role.isTimer with
  | false => exact ended (returned.all thread member timer)
  | true =>
    obtain ⟨onWorker, shutdown⟩ := returned.shutdown
    have stopped := drains.timers (drains.returned _ shutdown onWorker rfl)
    rcases stopped with ⟨⟨role, pc⟩, inside, stopping⟩ | timers
    · cases role with
      | shutdown onWorker =>
        obtain rfl : pc = .returned := ended (returned.all _ inside rfl)
        cases stopping
      | _ => cases stopping
    · exact ended (timers thread member timer)

theorem Drains.drained (drains : Drains s) (returned : Returned s) : Drained s := by
  have finished := drains.all_returned returned
  have none : s.currentBatch = none := by
    by_contra current
    rcases drains.current current with active | ⟨thread, member, will⟩
    · obtain ⟨onWorker, shutdown⟩ := returned.shutdown
      rw [drains.returned _ shutdown onWorker rfl] at active
      cases active
    · rw [finished thread member] at will
      cases will
  have unhanded : s.unhanded = [] := by
    rw [PartitionState.unhanded, none, Option.toList_none, nil_append, flatMap_eq_nil_iff]
    intro thread member
    rw [finished thread member]
    rfl
  refine ⟨none, unhanded, fun call => ?_⟩
  have counted := drains.handed call
  rw [unhanded] at counted
  exact counted

theorem PartitionStep.consumes {kind : RequestKind Req E} {cfg : BatchConfig} {s : PartitionState Req E} {call : Nat}
    {req : Req} (front back : List (Thread Req)) (threads : s.threads = front ++ ⟨.consume call req, .start⟩ :: back)
    {consumed : Consumed Req E} (made : consumeInternal kind cfg s.currentBatch call req = consumed) :
    PartitionStep kind cfg .internal s
      { s with
        currentBatch := consumed.currentBatch
        accounts := s.accounts.consumed call consumed
        sections := s.sections ++ [entering kind cfg s.currentBatch call req]
        threads := front ++ ⟨.consume call req, .flush consumed.flushes (!s.active)⟩ :: back } := by
  subst made
  exact .move front back threads (.consume s call req)

end CollectorFormal.Batcher
