import CollectorFormal.Batcher.MultiBatcher

/-! The workers that all partitions share.

A worker runs a task of flush, or shutdownInternal of an evicted partition, which needs another worker if there is a
batch left, and waits for every call of flush of its partition. -/

namespace CollectorFormal.Batcher

open Lib List

variable {K Req E : Type}

def Role.onWorker : Role Req → Bool
  | .shutdown onWorker => onWorker
  | _ => false

/-- A worker that runs shutdownInternal. -/
def Thread.onWorker (thread : Thread Req) : Bool := thread.role.onWorker && !thread.pc.isReturned

def PartitionState.busy (s : PartitionState Req E) : Int :=
  s.exports.length + s.threads.countP Thread.onWorker

def PartitionLabel.taken : PartitionLabel Req → Int
  | .acquire => 1
  | .shutdown true => 1
  | .release => -1
  | _ => 0

section count
variable {kind : RequestKind Req E} {cfg : BatchConfig} {s t after : PartitionState Req E}
  {label : PartitionLabel Req} {role : Role Req} {pc next : Pc Req}

theorem workers_taken {free rest : Nat} (pool : label.workers free = some rest) :
    (rest : Int) + label.taken = free := by
  cases label with
  | acquire =>
    cases free with
    | zero => cases pool
    | succ free =>
      cases pool
      simp [PartitionLabel.taken]
  | consume | shutdown | leave => cases pool
  | release =>
    cases pool
    simp [PartitionLabel.taken]
  | _ =>
    cases pool
    simp [PartitionLabel.taken]

theorem Move.busy (moved : Move kind cfg label role pc s next after) :
    (after.exports.length : Int) + (Thread.onWorker ⟨role, next⟩).toNat =
      s.exports.length + (Thread.onWorker ⟨role, pc⟩).toNat + label.taken := by
  cases moved with
  | execute =>
    simp only [Thread.onWorker, Pc.isReturned, PartitionLabel.taken, length_append, length_singleton]
    omega
  | inactive _ onWorker | wait _ onWorker =>
    cases onWorker <;> simp [Thread.onWorker, Role.onWorker, Pc.isReturned, endLabel, PartitionLabel.taken]
  | consume | tick | stop =>
    simp [Thread.onWorker, Role.onWorker, PartitionState.consumed, PartitionLabel.taken]
  | deactivate | close => simp [Thread.onWorker, Pc.isReturned, PartitionLabel.taken]
  | flushed _ _ again =>
    cases again <;> cases role <;>
      simp [Thread.onWorker, Role.onWorker, Pc.isReturned, Role.finish, PartitionLabel.taken]
  | _ =>
    cases role <;>
      simp [Thread.onWorker, Role.onWorker, Pc.isReturned, Role.finish, PartitionLabel.taken]

theorem busy_placed {front back : List (Thread Req)} {thread : Thread Req}
    (threads : s.threads = front ++ thread :: back) :
    s.busy = s.exports.length + thread.onWorker.toNat + (front ++ back).countP Thread.onWorker := by
  rw [PartitionState.busy, threads, countP_append, countP_append, countP_cons]
  cases thread.onWorker with
  | false => simp
  | true =>
    simp
    omega

theorem PartitionStep.busy (step : PartitionStep kind cfg label s t) : t.busy = s.busy + label.taken := by
  cases step with
  | consume => simp [PartitionState.busy, Thread.onWorker, Role.onWorker, PartitionLabel.taken]
  | shutdown _ onWorker =>
    cases onWorker <;>
      simp [PartitionState.busy, Thread.onWorker, Role.onWorker, Pc.isReturned, PartitionLabel.taken]
    omega
  | @move _ role pc next _ after front back threads moved =>
    have step := moved.busy
    have now : ({ after with threads := front ++ ⟨role, next⟩ :: back } : PartitionState Req E).threads =
      front ++ ⟨role, next⟩ :: back := rfl
    rw [busy_placed threads, busy_placed now]
    simp only
    omega
  | exported _ _ _ _ _ exports | notify _ _ _ _ _ _ exports => simp [PartitionState.busy, exports, PartitionLabel.taken]
  | release _ front back err exports =>
    simp only [PartitionState.busy, exports, length_append, length_cons, PartitionLabel.taken]
    omega

end count

/-- Every worker is free, runs a task of flush or runs a shutdownInternal. -/
def Pooled (maxWorkers : Nat) (s : MultiState K Req E) : Prop :=
  s.workers + (s.partitions.map fun x => x.batcher.busy).sum = maxWorkers

theorem sum_placed {front back : List (KeyedPartition K Req E)} (x : KeyedPartition K Req E) :
    ((front ++ x :: back).map fun x => x.batcher.busy).sum =
      x.batcher.busy + ((front ++ back).map fun x => x.batcher.busy).sum := by
  simp only [map_append, map_cons, sum_append, sum_cons]
  omega

theorem Pooled.step [Lru K Nat] {kind : RequestKind Req E} {cfg : BatchConfig} {capacity maxWorkers : Nat}
    {label : MultiLabel K Req} {s t : MultiState K Req E} (pooled : Pooled maxWorkers s)
    (step : MultiStep kind cfg capacity label s t) : Pooled maxWorkers t := by
  unfold Pooled at pooled ⊢
  cases step with
  | hit | remove | purge | purged => exact pooled
  | create _ key req free missing =>
    have idle : (newPartition true : PartitionState Req E).busy = 0 := rfl
    simp only [map_append, map_cons, map_nil, sum_append, sum_singleton, idle, add_zero]
    exact pooled
  | shutdown _ free =>
    have same : ∀ x : KeyedPartition K Req E, x.shutdown.batcher.busy = x.batcher.busy := by
      intro x
      simp [KeyedPartition.shutdown, PartitionState.busy, Thread.onWorker, Role.onWorker]
    rw [map_shutdownAll (fun x => x.batcher.busy) same]
    exact pooled
  | evict _ _ _ _ _ _ _ _ _ _ partitions called | called _ _ _ _ _ _ _ partitions called =>
    rw [partitions, sum_placed] at pooled
    rw [sum_placed, called.busy]
    simp only [PartitionLabel.taken]
    omega
  | removed _ front back x batcher lock partitions left =>
    rw [partitions, sum_placed] at pooled
    rw [sum_placed, left.busy]
    simp only [PartitionLabel.taken]
    omega
  | inside _ front back x batcher label workers pool started partitions moved =>
    have taken := workers_taken pool
    rw [partitions, sum_placed] at pooled
    rw [sum_placed, moved.busy]
    simp only
    omega

section pooled
variable [Lru K Nat] {kind : RequestKind Req E} {cfg : BatchConfig} {capacity maxWorkers : Nat} {s : MultiState K Req E}

theorem pooled_reached (reached : Reached (MultiStep kind cfg capacity) Always (newMultiBatcher maxWorkers) s) :
    Pooled maxWorkers s := by
  refine reached.invariant ?_ fun _ _ _ _ step pooled => pooled.step step
  simp [Pooled, newMultiBatcher]

/-- There are never more exports at once than workers, and a worker that has nothing to do is free. -/
theorem exports_bounded (reached : Reached (MultiStep kind cfg capacity) Always (newMultiBatcher maxWorkers) s) :
    s.workers + (s.partitions.map fun x => x.batcher.exports.length).sum ≤ maxWorkers ∧
    ((∀ x ∈ s.partitions, x.batcher.exports = [] ∧ ∀ thread ∈ x.batcher.threads, thread.onWorker = false) →
      s.workers = maxWorkers) := by
  have pooled := pooled_reached reached
  unfold Pooled at pooled
  constructor
  · have fewer : ((s.partitions.map fun x => x.batcher.exports.length).sum : Nat) ≤
        (s.partitions.map fun x => x.batcher.busy).sum := by
      induction s.partitions with
      | nil => simp
      | cons x rest ih =>
        simp only [map_cons, sum_cons, PartitionState.busy] at ih ⊢
        omega
    omega
  · intro idle
    have none : (s.partitions.map fun x => x.batcher.busy).sum = 0 := by
      apply sum_eq_zero
      simp only [mem_map, forall_exists_index, and_imp, forall_apply_eq_imp_iff₂, PartitionState.busy]
      intro x member
      obtain ⟨exports, threads⟩ := idle x member
      simpa [exports] using threads
    omega

theorem exports_bounded_single : ∃ s : MultiState Nat (Batch.LogsRequest Unit Unit Nat) Batch.MergeError, s.partitions ≠ [] ∧
    s.workers + (s.partitions.map fun x => x.batcher.exports.length).sum ≤ 1 := by
  obtain ⟨s, reached, -, -, -, batcher, partitions, -⟩ := reaches_usedOnce
  exact ⟨s, by rw [partitions]; exact cons_ne_nil _ _, (exports_bounded reached).1⟩

end pooled

/-- Every worker that works for the partition waits for another one, or for a call of flush that does. -/
structure Blocked (s : PartitionState Req E) : Prop where
  exports : s.exports = []
  waiting : ∀ thread ∈ s.threads, thread.onWorker = true →
    thread.pc.isExecute = true ∨ thread.pc = .wait ∧ ∃ other ∈ s.threads, other.pc.isExecute = true

section blocked
variable {kind : RequestKind Req E} {cfg : BatchConfig} {s t after : PartitionState Req E}
  {label : PartitionLabel Req} {role : Role Req} {pc next : Pc Req} {front back : List (Thread Req)}

theorem Blocked.of_execute (exports : s.exports = [])
    (waiting : ∀ thread ∈ s.threads, thread.onWorker = true → thread.pc.isExecute = true) : Blocked s :=
  ⟨exports, fun thread member working => .inl (waiting thread member working)⟩

theorem stopWG_pos {thread : Thread Req} (member : thread ∈ s.threads) (waits : thread.pc.isExecute = true) :
    0 < s.stopWG := by
  have counted : 0 < s.threads.countP (fun thread => thread.pc.isExecute) :=
    countP_pos_iff.mpr ⟨thread, member, waits⟩
  unfold PartitionState.stopWG
  omega

section
variable (moved : Move kind cfg label role pc s next after)
include moved

theorem Move.execute_acquires (waits : pc.isExecute = true) : label = .acquire := by
  cases moved with
  | execute => rfl
  | _ => cases waits

theorem Move.exports_same (other : label ≠ .acquire) : after.exports = s.exports := by
  cases moved with
  | execute => exact absurd rfl other
  | _ => rfl

theorem Move.onWorker_before (working : Thread.onWorker ⟨role, next⟩ = true) : Thread.onWorker ⟨role, pc⟩ = true := by
  have running := moved.timer_running
  simp only [Thread.onWorker, Bool.and_eq_true, Bool.not_eq_true'] at working ⊢
  exact ⟨working.1, running⟩

theorem Move.release_onWorker (released : label = .release) : Thread.onWorker ⟨role, pc⟩ = true := by
  cases moved with
  | inactive _ onWorker | wait _ onWorker =>
    cases onWorker with
    | false => cases released
    | true => rfl
  | _ => cases released

end

theorem Blocked.mover_free (blocked : Blocked s) (threads : s.threads = front ++ ⟨role, pc⟩ :: back)
    (moved : Move kind cfg label role pc s next after) (other : label ≠ .acquire) :
    Thread.onWorker ⟨role, pc⟩ = false := by
  by_contra working
  have member : ⟨role, pc⟩ ∈ s.threads := threads ▸ mem_append_cons_self
  rcases blocked.waiting _ member (Bool.not_eq_false _ ▸ working) with waits | ⟨rfl, thread, inside, executes⟩
  · exact other (moved.execute_acquires waits)
  · have pending := stopWG_pos inside executes
    cases moved with
    | wait _ onWorker ended => omega

theorem Blocked.arrive (blocked : Blocked s) {role : Role Req} {calls : Nat} (free : role.onWorker = false) :
    Blocked { s with calls := calls, threads := s.threads ++ [⟨role, .start⟩] } := by
  refine ⟨blocked.exports, fun thread member working => ?_⟩
  rcases mem_append.mp member with before | new
  · rcases blocked.waiting thread before working with waits | ⟨wait, other, inside, executes⟩
    · exact .inl waits
    · exact .inr ⟨wait, other, mem_append_left _ inside, executes⟩
  · rw [mem_singleton.mp new, Thread.onWorker, free] at working
    cases working

/-- While no worker is free, a partition whose workers are blocked gives none back. -/
theorem Blocked.step (blocked : Blocked s) (step : PartitionStep kind cfg label s t) (other : label ≠ .acquire)
    (arrived : label ≠ .shutdown true) : Blocked t ∧ label ≠ .release := by
  have idle {front back : List (Export Req E)} {task : Export Req E} : s.exports ≠ front ++ task :: back := by
    rw [blocked.exports]
    simp
  cases step with
  | consume _ req => exact ⟨blocked.arrive rfl, nofun⟩
  | shutdown _ onWorker =>
    cases onWorker with
    | false => exact ⟨blocked.arrive rfl, nofun⟩
    | true => exact absurd rfl arrived
  | @move _ role pc next _ after front back threads moved =>
    have free := blocked.mover_free threads moved other
    have exports := (moved.exports_same other).trans blocked.exports
    refine ⟨⟨exports, fun thread member working => ?_⟩, fun released => ?_⟩
    · rcases Move.mem_before threads member with rfl | before
      · rw [moved.onWorker_before working] at free
        cases free
      · rcases blocked.waiting thread before working with waits | ⟨wait, executing⟩
        · exact .inl waits
        · rw [threads] at executing
          exact .inr ⟨wait, exists_placed executing fun waits => absurd (moved.execute_acquires waits) other⟩
    · rw [moved.release_onWorker released] at free
      cases free
  | exported _ _ _ _ _ exports | notify _ _ _ _ _ _ exports | release _ _ _ _ exports => exact absurd exports idle

end blocked

section waiting
variable [Lru K Nat] {kind : RequestKind Req E} {cfg : BatchConfig} {capacity maxWorkers : Nat}
  {label : MultiLabel K Req} {s t : MultiState K Req E}

structure AllWaiting (s : MultiState K Req E) : Prop where
  workers : s.workers = 0
  blocked : ∀ x ∈ s.partitions, Blocked x.batcher

theorem AllWaiting.step (waiting : AllWaiting s) (step : MultiStep kind cfg capacity label s t) :
    AllWaiting t := by
  have placed {front back : List (KeyedPartition K Req E)} {x : KeyedPartition K Req E}
      {batcher : PartitionState Req E} (partitions : s.partitions = front ++ x :: back) (blocked : Blocked batcher) :
      ∀ y ∈ front ++ ⟨x.key, batcher⟩ :: back, Blocked y.batcher :=
    forall_placed (partitions ▸ waiting.blocked) blocked
  have inside {front back : List (KeyedPartition K Req E)} {x : KeyedPartition K Req E}
      (partitions : s.partitions = front ++ x :: back) : Blocked x.batcher :=
    waiting.blocked x (partitions ▸ mem_append_cons_self)
  cases step with
  | hit | remove | purge | purged => exact ⟨waiting.workers, waiting.blocked⟩
  | create _ key req free missing =>
    refine ⟨waiting.workers, forall_snoc waiting.blocked ⟨rfl, fun thread member working => ?_⟩⟩
    rw [mem_singleton.mp member] at working
    cases working
  | shutdown _ free =>
    refine ⟨waiting.workers, fun y member => ?_⟩
    obtain ⟨x, before, rfl | rfl⟩ := mem_shutdownAll member
    · exact waiting.blocked y before
    · exact (waiting.blocked x before).arrive rfl
  | evict _ front back x batcher caller evicted free worker =>
    rw [waiting.workers] at worker
    cases worker
  | called _ _ _ _ _ _ _ partitions called | removed _ _ _ _ _ _ partitions called =>
    exact ⟨waiting.workers, placed partitions ((inside partitions).step called nofun nofun).1⟩
  | inside _ front back x batcher label workers pool started partitions moved =>
    rw [waiting.workers] at pool
    have other : label ≠ .acquire := by
      rintro rfl
      cases pool
    have arrived : label ≠ .shutdown true := by
      rintro rfl
      cases pool
    obtain ⟨blocked, kept⟩ := (inside partitions).step moved other arrived
    refine ⟨?_, placed partitions blocked⟩
    cases label with
    | acquire => exact absurd rfl other
    | release => exact absurd rfl kept
    | consume | shutdown | leave => cases pool
    | _ =>
      cases pool
      rfl

theorem AllWaiting.forever (waiting : AllWaiting s) (later : Reached (MultiStep kind cfg capacity) Always s t) :
    AllWaiting t :=
  later.invariant waiting fun _ _ _ _ step waiting => waiting.step step

end waiting

end CollectorFormal.Batcher
