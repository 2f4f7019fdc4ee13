import CollectorFormal.Batcher.MultiBatcher

/-! Shutdown against the removal of idle partitions. After a timer's goroutine has found its partition idle and
before it locks mb.lock in onEmpty, shutdownInternal may set onEmpty to nil and Shutdown may take mb.lock. -/

namespace CollectorFormal.Batcher

open Lib List

variable {K Req E : Type}

/-- A goroutine between its idle check and the end of onEmpty. -/
def Pc.inOnEmpty : Pc Req → Bool
  | .empty => true
  | .removing => true
  | _ => false

/-- Shutdown holds mb.lock and waits for a timer's goroutine that waits for mb.lock. -/
def Deadlocked (s : MultiState K Req E) : Prop :=
  (∃ evicted, s.lock = some ⟨.wait, evicted⟩) ∧ ∃ entry ∈ s.cache, ∃ x, s.partitions[entry.2]? = some x ∧
    ⟨.shutdown false, .wait⟩ ∈ x.batcher.threads ∧ ⟨.timer, .removing⟩ ∈ x.batcher.threads

/-- The safe order of steps: Shutdown takes the lock while no partition of the cache is being removed, none is found
idle while Shutdown waits, and shutdownInternal clears onEmpty while nobody is about to call it. -/
def Orderly : MultiLabel K Req → MultiState K Req E → Prop
  | .shutdown, s => ∀ entry ∈ s.cache, ∀ x, s.partitions[entry.2]? = some x →
      ∀ thread ∈ x.batcher.threads, thread.pc.inOnEmpty = false
  | .inside partition .idle, s => ∀ evicted, s.lock = some ⟨.wait, evicted⟩ → partition ∉ s.cache.map Prod.snd
  | .inside partition .deactivate, s => ∀ x, s.partitions[partition]? = some x →
      ∀ thread ∈ x.batcher.threads, thread.pc ≠ .empty
  | _, _ => True

/-- onEmpty is set whenever somebody is about to call it, and was whenever somebody did. -/
structure Callable (s : PartitionState Req E) : Prop where
  set : ∀ thread ∈ s.threads, thread.pc = .empty → s.onEmpty = true
  called : s.crashed = false

section partition
variable {kind : RequestKind Req E} {cfg : BatchConfig} {s t after : PartitionState Req E}
  {label : PartitionLabel Req} {role : Role Req} {pc next : Pc Req}

theorem Move.inOnEmpty (moved : Move kind cfg label role pc s next after) (busy : label ≠ .idle)
    (outside : pc.inOnEmpty = false) : next.inOnEmpty = false := by
  cases moved with
  | idle => exact absurd rfl busy
  | enter | crash | leave => cases outside
  | flushed _ _ again => cases again <;> cases role <;> rfl
  | nothing => cases role <;> rfl
  | _ => rfl

theorem PartitionStep.inOnEmpty (step : PartitionStep kind cfg label s t) (busy : label ≠ .idle)
    (outside : ∀ thread ∈ s.threads, thread.pc.inOnEmpty = false) :
    ∀ thread ∈ t.threads, thread.pc.inOnEmpty = false := by
  cases step with
  | consume | shutdown => exact forall_snoc outside rfl
  | move front back threads moved =>
    rw [threads] at outside
    exact forall_placed outside (moved.inOnEmpty busy (outside _ mem_append_cons_self))
  | exported | notify | release => exact outside

section
variable (moved : Move kind cfg label role pc s next after)
include moved

theorem Move.onEmpty_same (other : label ≠ .deactivate) : after.onEmpty = s.onEmpty := by
  cases moved with
  | deactivate => exact absurd rfl other
  | _ => rfl

theorem Move.empty_set (goes : next = .empty) : pc = .empty ∨ after.onEmpty = true := by
  cases moved with
  | idle _ _ _ set => exact .inr set
  | crash => exact .inl rfl
  | flushed _ _ again => cases again <;> cases role <;> cases goes
  | nothing | leave => cases role <;> cases goes
  | _ => cases goes

theorem Move.crashed_same (set : pc = .empty → s.onEmpty = true) : after.crashed = s.crashed := by
  cases moved with
  | crash _ _ unset =>
    rw [set rfl] at unset
    cases unset
  | _ => rfl

end

theorem PartitionStep.callable (step : PartitionStep kind cfg label s t) (callable : Callable s)
    (nobody : label = .deactivate → ∀ thread ∈ s.threads, thread.pc ≠ .empty) : Callable t := by
  cases step with
  | consume | shutdown => exact ⟨forall_snoc callable.set nofun, callable.called⟩
  | @move _ role pc next _ after front back threads moved =>
    have here : ⟨role, pc⟩ ∈ s.threads := threads ▸ mem_append_cons_self
    refine ⟨fun thread member empty => ?_, (moved.crashed_same (callable.set _ here)).trans callable.called⟩
    have stays {old : Thread Req} (before : old ∈ s.threads) (empty : old.pc = .empty) : after.onEmpty = true := by
      by_cases clears : label = .deactivate
      · exact absurd empty (nobody clears old before)
      · exact (moved.onEmpty_same clears).trans (callable.set old before empty)
    rcases Move.mem_before threads member with rfl | before
    · rcases moved.empty_set empty with old | set
      · exact stays here old
      · exact set
    · exact stays before empty
  | exported | notify | release => exact ⟨callable.set, callable.called⟩

end partition

structure Calm (s : MultiState K Req E) : Prop where
  callable : ∀ x ∈ s.partitions, Callable x.batcher
  undisturbed : ∀ evicted, s.lock = some ⟨.wait, evicted⟩ → ∀ entry ∈ s.cache, ∀ x,
    s.partitions[entry.2]? = some x → ∀ thread ∈ x.batcher.threads, thread.pc.inOnEmpty = false

section runs
variable [Lru K Nat] {kind : RequestKind Req E} {cfg : BatchConfig} {capacity maxWorkers : Nat}
  {label : MultiLabel K Req} {s t : MultiState K Req E}

omit [Lru K Nat] in
theorem getElem?_shutdownAll {cache : List (K × Nat)} {partitions : List (KeyedPartition K Req E)} {index : Nat}
    {y : KeyedPartition K Req E} (found : (shutdownAll cache partitions)[index]? = some y) :
    ∃ x, partitions[index]? = some x ∧ (y = x ∨ y = x.shutdown) := by
  rw [shutdownAll, getElem?_mapIdx, Option.map_eq_some_iff] at found
  obtain ⟨x, here, rfl⟩ := found
  refine ⟨x, here, ?_⟩
  split
  · exact .inr rfl
  · exact .inl rfl

theorem Calm.step (calm : Calm s) (step : MultiStep kind cfg capacity label s t) (orderly : Orderly label s) :
    Calm t := by
  have callable {front back : List (KeyedPartition K Req E)} {x : KeyedPartition K Req E}
      {batcher : PartitionState Req E} {label : PartitionLabel Req}
      (partitions : s.partitions = front ++ x :: back)
      (moved : PartitionStep kind cfg label x.batcher batcher)
      (nobody : label = .deactivate → ∀ thread ∈ x.batcher.threads, thread.pc ≠ .empty) :
      ∀ y ∈ front ++ ⟨x.key, batcher⟩ :: back, Callable y.batcher := by
    have all := calm.callable
    rw [partitions] at all
    exact forall_placed all (moved.callable (all x mem_append_cons_self) nobody)
  have undisturbed {front back : List (KeyedPartition K Req E)} {x : KeyedPartition K Req E}
      {batcher : PartitionState Req E} {label : PartitionLabel Req} {evicted : List Nat}
      (partitions : s.partitions = front ++ x :: back)
      (moved : PartitionStep kind cfg label x.batcher batcher)
      (lock : s.lock = some ⟨.wait, evicted⟩)
      (busy : label = .idle → front.length ∉ s.cache.map Prod.snd) : ∀ entry ∈ s.cache, ∀ y,
        (front ++ ⟨x.key, batcher⟩ :: back)[entry.2]? = some y →
          ∀ thread ∈ y.batcher.threads, thread.pc.inOnEmpty = false := by
    intro entry member y found
    rcases getElem?_placed x found with ⟨here, rfl⟩ | ⟨_, same⟩
    · have working : label ≠ .idle := fun idle => busy idle (mem_map.mpr ⟨entry, member, here⟩)
      refine moved.inOnEmpty working (calm.undisturbed evicted lock entry member x ?_)
      rw [partitions, here]
      simp
    · exact calm.undisturbed evicted lock entry member y (partitions ▸ same)
  cases step with
  | hit | remove | purge | purged => exact ⟨calm.callable, nofun⟩
  | create _ key req free missing =>
    exact ⟨forall_snoc calm.callable ⟨fun _ _ _ => rfl, rfl⟩, nofun⟩
  | shutdown _ free =>
    refine ⟨fun y member => ?_, fun _ _ entry member y found => ?_⟩
    · obtain ⟨x, before, rfl | rfl⟩ := mem_shutdownAll member
      · exact calm.callable y before
      · have called : PartitionStep kind cfg (.shutdown false) x.batcher x.shutdown.batcher :=
          .shutdown _ false
        exact called.callable (calm.callable x before) nofun
    · obtain ⟨x, here, rfl | rfl⟩ := getElem?_shutdownAll found
      · exact orderly entry member y here
      · have called : PartitionStep kind cfg (.shutdown false) x.batcher x.shutdown.batcher :=
          .shutdown _ false
        exact called.inOnEmpty nofun (orderly entry member x here)
  | evict _ front back x batcher caller rest free worker lock partitions called =>
    refine ⟨callable partitions called nofun, ?_⟩
    rintro _ ⟨⟩
    exact undisturbed partitions called lock nofun
  | called _ _ _ _ _ _ _ partitions called | removed _ _ _ _ _ _ partitions called =>
    exact ⟨callable partitions called nofun, nofun⟩
  | inside _ front back x batcher label workers pool started partitions moved =>
    refine ⟨callable partitions moved ?_, fun evicted lock => undisturbed partitions moved lock ?_⟩
    · rintro rfl
      refine orderly x ?_
      rw [partitions]
      simp
    · rintro rfl
      exact orderly evicted lock

/-- In an orderly run Shutdown never waits for a goroutine that waits for its lock, and onEmpty is never called once
it is nil. -/
theorem orderly_shutdown_safe (kind : RequestKind Req E) (cfg : BatchConfig) (capacity maxWorkers : Nat)
    (s : MultiState K Req E)
    (reached : Reached (MultiStep kind cfg capacity) Orderly (newMultiBatcher maxWorkers) s) :
    ¬ Deadlocked s ∧ ∀ x ∈ s.partitions, x.batcher.crashed = false := by
  have calm : Calm s := reached.invariant ⟨nofun, nofun⟩ fun _ _ _ orderly step calm => calm.step step orderly
  refine ⟨?_, fun x member => (calm.callable x member).called⟩
  rintro ⟨⟨evicted, lock⟩, entry, member, x, here, _, removing⟩
  have outside := calm.undisturbed evicted lock entry member x here _ removing
  cases outside

end runs

section written_out
open CollectorFormal.Batch

theorem orderly_shutdown_safe_waiting : ∃ s : MultiState Nat (LogsRequest Unit Unit Nat) MergeError,
    s.lock = some ⟨.wait, []⟩ ∧ ¬ Deadlocked s ∧ ∃ x ∈ s.partitions, x.batcher.crashed = false := by
  have fresh : Reached (MultiStep (logsKind unitWire) twoToThree 1) Orderly (newMultiBatcher 1)
      (newMultiBatcher 1 : MultiState Nat (LogsRequest Unit Unit Nat) MergeError) := .start
  have called := fresh.next (.create _ 7 (numbered 0) rfl rfl) trivial
    |>.next (.called _ [] [] _ _ _ rfl rfl (.consume _ _)) trivial
    |>.next (.inside _ [] [] _ _ _ 1 rfl nofun rfl (.consumes [_] [] rfl waiting_record)) trivial
  have locked := called.next (.shutdown _ rfl) fun entry _ x here thread inside => by
    rw [mem_singleton.mp (mem_of_getElem? here)] at inside
    change thread ∈ [⟨.timer, .start⟩, ⟨.consume 0 (numbered 0), .flush [] false⟩] at inside
    simp only [mem_cons, not_mem_nil, or_false] at inside
    rcases inside with rfl | rfl <;> rfl
  have stopped := locked.next (.inside _ [] [] _ _ _ 1 rfl nofun rfl (.move [_, _] [] rfl (.deactivate _ false rfl)))
    fun x here thread inside => by
      rw [mem_singleton.mp (mem_of_getElem? here)] at inside
      change thread ∈ [⟨.timer, .start⟩, ⟨.consume 0 (numbered 0), .flush [] false⟩, ⟨.shutdown false, .start⟩] at inside
      simp only [mem_cons, not_mem_nil, or_false] at inside
      rcases inside with rfl | rfl | rfl <;> nofun
  have waiting := stopped
    |>.next (.inside _ [] [] _ _ _ 1 rfl nofun rfl (.move [_, _] [] rfl (.close _ false))) trivial
    |>.next (.inside _ [] [] _ _ _ 1 rfl nofun rfl (.move [_, _] [] rfl (.take _ _ _ rfl))) trivial
  obtain ⟨free, called⟩ := orderly_shutdown_safe _ _ _ _ _ waiting
  exact ⟨_, rfl, free, _, mem_append_cons_self, called _ mem_append_cons_self⟩

/-- A timer's goroutine with an idle partition comes to wait for the lock, or finds onEmpty cleared. -/
theorem shutdown_not_safe :
    (∃ s : MultiState Nat (LogsRequest Unit Unit Nat) MergeError,
      Reached (MultiStep (logsKind unitWire) unlimited 1) Always (newMultiBatcher 1) s ∧ Deadlocked s) ∧
    ∃ s : MultiState Nat (LogsRequest Unit Unit Nat) MergeError,
      Reached (MultiStep (logsKind unitWire) unlimited 1) Always (newMultiBatcher 1) s ∧
        ∃ x ∈ s.partitions, x.batcher.crashed = true := by
  obtain ⟨⟨workers, lock, cache, partitions⟩, used, rfl, rfl, rfl, batcher, rfl, idle⟩ := reaches_usedOnce
  obtain ⟨currentBatch, active, onEmpty, closed, threads, exports⟩ := batcher
  obtain ⟨rfl, rfl, rfl, rfl, rfl, rfl⟩ := idle
  have empty := used
    |>.next (.inside _ [] [] _ _ _ 1 rfl nofun rfl (.move [] [_] rfl (.tick _))) trivial
    |>.next (.inside _ [] [] _ _ _ 1 rfl nofun rfl (.move [] [_] rfl (.idle _ _ rfl rfl))) trivial
  constructor
  · have waiting := empty
      |>.next (.inside _ [] [] _ _ _ 1 rfl nofun rfl (.move [] [_] rfl (.enter _ _ rfl))) trivial
      |>.next (.shutdown _ rfl) trivial
      |>.next (.inside _ [] [] _ _ _ 1 rfl nofun rfl (.move [_, _] [] rfl (.deactivate _ false rfl))) trivial
      |>.next (.inside _ [] [] _ _ _ 1 rfl nofun rfl (.move [_, _] [] rfl (.close _ false))) trivial
      |>.next (.inside _ [] [] _ _ _ 1 rfl nofun rfl (.move [_, _] [] rfl (.nothing _ _ rfl))) trivial
    exact ⟨_, waiting, ⟨[], rfl⟩, (7, 0), mem_singleton_self _, _, rfl, mem_append_cons_self,
      mem_append_left _ mem_cons_self⟩
  · have crashed := empty
      |>.next (.shutdown _ rfl) trivial
      |>.next (.inside _ [] [] _ _ _ 1 rfl nofun rfl (.move [_, _] [] rfl (.deactivate _ false rfl))) trivial
      |>.next (.inside _ [] [] _ _ _ 1 rfl nofun rfl (.move [] [_, _] rfl (.crash _ _ rfl))) trivial
    exact ⟨_, crashed, _, mem_append_cons_self, rfl⟩

end written_out

end CollectorFormal.Batcher
