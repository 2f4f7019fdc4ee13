import CollectorFormal.Lib.Lru
import CollectorFormal.Batcher.LogsRequest
import CollectorFormal.Batcher.PartitionRun

/-! The batcher of all partitions: a cache of them under mb.lock, and a pool of workers that they share.

A partition that leaves the cache is given to a worker that runs shutdownInternal, while the lock is held. Calls
that got it before may still come. -/

namespace CollectorFormal.Batcher

open Lib List

/-- Who holds mb.lock. -/
inductive Caller (Req : Type) where
  | getPartition (partition : Nat) (req : Req)
  | onEmpty (partition : Nat)
  | wait
  | purge

structure Holder (Req : Type) where
  caller : Caller Req
  /-- The partitions that still wait for a worker, while the lock is held. -/
  evicted : List Nat

structure KeyedPartition (K Req E : Type) where
  key : K
  batcher : PartitionState Req E

structure MultiState (K Req E : Type) where
  workers : Nat
  lock : Option (Holder Req) := none
  cache : List (K × Nat) := []
  /-- All partitions there have been, those that have left the cache as well. -/
  partitions : List (KeyedPartition K Req E) := []

inductive MultiLabel (K Req : Type) where
  | consume (key : K) (req : Req)
  | remove (partition : Nat)
  | shutdown
  | purge
  | evict
  | unlock
  | inside (partition : Nat) (label : PartitionLabel Req)

variable {K Req E : Type}

/-- The free workers after a step of a partition. The steps that mb.lock goes with are none
of its own. -/
def PartitionLabel.workers : PartitionLabel Req → Nat → Option Nat
  | .acquire, free + 1 => some free
  | .acquire, 0 => none
  | .release, free => some (free + 1)
  | .deactivate, free => some free
  | .idle, free => some free
  | .enter, free => some free
  | .internal, free => some free
  | .consume _, _ => none
  | .shutdown _, _ => none
  | .leave, _ => none

def KeyedPartition.shutdown (x : KeyedPartition K Req E) : KeyedPartition K Req E :=
  { x with batcher := { x.batcher with threads := x.batcher.threads ++ [⟨.shutdown false, .start⟩] } }

/-- The goroutines of Shutdown, one for every partition of the cache. -/
def shutdownAll (cache : List (K × Nat)) (partitions : List (KeyedPartition K Req E)) : List (KeyedPartition K Req E) :=
  partitions.mapIdx fun index x => if index ∈ cache.map Prod.snd then x.shutdown else x

section steps
variable [Lru K Nat] (kind : RequestKind Req E) (cfg : BatchConfig) (capacity : Nat)

inductive MultiStep : MultiLabel K Req → MultiState K Req E → MultiState K Req E → Prop where
  | hit (s : MultiState K Req E) (key : K) (req : Req) (partition : Nat) (cache : List (K × Nat))
      (free : s.lock = none) (found : Lru.get key s.cache = some (partition, cache)) :
      MultiStep (.consume key req) s { s with lock := some ⟨.getPartition partition req, []⟩, cache := cache }
  | create (s : MultiState K Req E) (key : K) (req : Req) (free : s.lock = none)
      (missing : Lru.get key s.cache = none) :
      MultiStep (.consume key req) s
        { s with
          lock := some ⟨.getPartition s.partitions.length req, (Lru.add capacity key s.partitions.length s.cache).2⟩
          cache := (Lru.add capacity key s.partitions.length s.cache).1
          partitions := s.partitions ++ [⟨key, newPartition true⟩] }
  | remove (s : MultiState K Req E) (front back : List (KeyedPartition K Req E))
      (x : KeyedPartition K Req E) (role : Role Req) (free : s.lock = none)
      (partitions : s.partitions = front ++ x :: back) (waits : ⟨role, .removing⟩ ∈ x.batcher.threads) :
      MultiStep (.remove front.length) s
        { s with
          lock := some ⟨.onEmpty front.length, (Lru.remove x.key s.cache).2⟩
          cache := (Lru.remove x.key s.cache).1 }
  | shutdown (s : MultiState K Req E) (free : s.lock = none) :
      MultiStep .shutdown s { s with lock := some ⟨.wait, []⟩, partitions := shutdownAll s.cache s.partitions }
  /-- wg.Wait returns: only Shutdown has goroutines that run shutdownInternal without a
  worker. Purge goes through the cache in any order. -/
  | purge (s : MultiState K Req E) (order : List Nat) (lock : s.lock = some ⟨.wait, []⟩)
      (returned : ∀ x ∈ s.partitions, ∀ thread ∈ x.batcher.threads,
        thread.role = .shutdown false → thread.pc = .returned)
      (same : order.Perm (s.cache.map Prod.snd)) :
      MultiStep .purge s { s with lock := some ⟨.purge, order⟩, cache := [] }
  | evict (s : MultiState K Req E) (front back : List (KeyedPartition K Req E))
      (x : KeyedPartition K Req E) (batcher : PartitionState Req E) (caller : Caller Req)
      (evicted : List Nat) (free : Nat) (worker : s.workers = free + 1)
      (lock : s.lock = some ⟨caller, front.length :: evicted⟩)
      (partitions : s.partitions = front ++ x :: back)
      (called : PartitionStep kind cfg (.shutdown true) x.batcher batcher) :
      MultiStep .evict s
        { s with
          workers := free
          lock := some ⟨caller, evicted⟩
          partitions := front ++ ⟨x.key, batcher⟩ :: back }
  | called (s : MultiState K Req E) (front back : List (KeyedPartition K Req E))
      (x : KeyedPartition K Req E) (batcher : PartitionState Req E) (req : Req)
      (lock : s.lock = some ⟨.getPartition front.length req, []⟩)
      (partitions : s.partitions = front ++ x :: back)
      (called : PartitionStep kind cfg (.consume req) x.batcher batcher) :
      MultiStep .unlock s { s with lock := none, partitions := front ++ ⟨x.key, batcher⟩ :: back }
  | removed (s : MultiState K Req E) (front back : List (KeyedPartition K Req E))
      (x : KeyedPartition K Req E) (batcher : PartitionState Req E)
      (lock : s.lock = some ⟨.onEmpty front.length, []⟩)
      (partitions : s.partitions = front ++ x :: back)
      (left : PartitionStep kind cfg .leave x.batcher batcher) :
      MultiStep .unlock s { s with lock := none, partitions := front ++ ⟨x.key, batcher⟩ :: back }
  | purged (s : MultiState K Req E) (lock : s.lock = some ⟨.purge, []⟩) :
      MultiStep .unlock s { s with lock := none }
  /-- A step of a partition, which has been started: Start comes after Add. -/
  | inside (s : MultiState K Req E) (front back : List (KeyedPartition K Req E))
      (x : KeyedPartition K Req E) (batcher : PartitionState Req E) (label : PartitionLabel Req)
      (workers : Nat) (pool : label.workers s.workers = some workers)
      (started : ∀ req evicted, s.lock = some ⟨.getPartition front.length req, evicted⟩ → evicted = [])
      (partitions : s.partitions = front ++ x :: back)
      (moved : PartitionStep kind cfg label x.batcher batcher) :
      MultiStep (.inside front.length label) s
        { s with workers := workers, partitions := front ++ ⟨x.key, batcher⟩ :: back }

end steps

def newMultiBatcher (maxWorkers : Nat) : MultiState K Req E := { workers := maxWorkers }

section runs
variable [Lru K Nat] {kind : RequestKind Req E} {cfg : BatchConfig} {capacity maxWorkers : Nat}
  {label : MultiLabel K Req} {s t : MultiState K Req E}

omit [Lru K Nat] in
theorem mem_shutdownAll {cache : List (K × Nat)} {partitions : List (KeyedPartition K Req E)}
    {y : KeyedPartition K Req E} (member : y ∈ shutdownAll cache partitions) :
    ∃ x ∈ partitions, y = x ∨ y = x.shutdown := by
  obtain ⟨index, inside, rfl⟩ := mem_mapIdx.mp member
  refine ⟨partitions[index], getElem_mem inside, ?_⟩
  split
  · exact .inr rfl
  · exact .inl rfl

omit [Lru K Nat] in
theorem map_shutdownAll {β : Type} (f : KeyedPartition K Req E → β) (same : ∀ x, f x.shutdown = f x)
    (cache : List (K × Nat)) (partitions : List (KeyedPartition K Req E)) :
    (shutdownAll cache partitions).map f = partitions.map f := by
  refine ext_getElem? fun index => ?_
  rw [shutdownAll, getElem?_map, getElem?_mapIdx, getElem?_map, Option.map_map]
  congr 1
  funext x
  split
  · exact same x
  · rfl

def MultiState.keys (s : MultiState K Req E) : List K := s.partitions.map KeyedPartition.key

/-- A partition is one of a state, or what one step of it made of one; calls of Consume come from getPartition. -/
def KeyedPartition.Follows (kind : RequestKind Req E) (cfg : BatchConfig) (s : MultiState K Req E)
    (y : KeyedPartition K Req E) : Prop :=
  ∃ x ∈ s.partitions, y = x ∨ x.key = y.key ∧ ∃ label, PartitionStep kind cfg label x.batcher y.batcher ∧
    ∀ req, label = .consume req → ∃ partition, s.keys[partition]? = some x.key ∧
      s.lock = some ⟨.getPartition partition req, []⟩

theorem MultiStep.partition (step : MultiStep kind cfg capacity label s t) {y : KeyedPartition K Req E}
    (member : y ∈ t.partitions) : y.batcher = newPartition true ∨ y.Follows kind cfg s := by
  have placed {front back : List (KeyedPartition K Req E)} {x : KeyedPartition K Req E}
      {batcher : PartitionState Req E} {label : PartitionLabel Req}
      (partitions : s.partitions = front ++ x :: back)
      (moved : PartitionStep kind cfg label x.batcher batcher)
      (called : ∀ req, label = .consume req → s.lock = some ⟨.getPartition front.length req, []⟩)
      (member : y ∈ front ++ ⟨x.key, batcher⟩ :: back) : y.Follows kind cfg s := by
    rw [KeyedPartition.Follows, MultiState.keys, partitions]
    rcases mem_placed x member with rfl | before
    · refine ⟨x, mem_append_cons_self, .inr ⟨rfl, label, moved, fun req same => ⟨front.length, ?_, called req same⟩⟩⟩
      simp
    · exact ⟨y, before, .inl rfl⟩
  cases step with
  | create _ key req free missing =>
    rcases mem_append.mp member with before | new
    · exact .inr ⟨y, before, .inl rfl⟩
    · rw [mem_singleton.mp new]
      exact .inl rfl
  | shutdown _ free =>
    obtain ⟨x, before, rfl | rfl⟩ := mem_shutdownAll member
    · exact .inr ⟨y, before, .inl rfl⟩
    · exact .inr ⟨x, before, .inr ⟨rfl, _, .shutdown _ false, nofun⟩⟩
  | evict _ _ _ _ _ _ _ _ _ _ partitions moved | removed _ _ _ _ _ _ partitions moved =>
    exact .inr (placed partitions moved nofun member)
  | called _ front back x batcher req lock partitions moved =>
    exact .inr (placed partitions moved (by rintro _ ⟨⟩; exact lock) member)
  | inside _ front back x batcher _ _ pool _ partitions moved =>
    exact .inr (placed partitions moved (by rintro _ rfl; cases pool) member)
  | hit | remove | purge | purged => exact .inr ⟨y, member, .inl rfl⟩

theorem partition_reached {allowed : MultiLabel K Req → MultiState K Req E → Prop}
    (reached : Reached (MultiStep kind cfg capacity) allowed (newMultiBatcher maxWorkers) s) :
    ∀ x ∈ s.partitions, Reached (PartitionStep kind cfg) Always (newPartition true) x.batcher := by
  induction reached with
  | start =>
    intro x member
    cases member
  | step reached meets step before =>
    intro y member
    rcases step.partition member with fresh | ⟨x, inside, rfl | ⟨_, label, moved, _⟩⟩
    · rw [fresh]
      exact .start
    · exact before y inside
    · exact (before x inside).next moved trivial

/-- Nothing is left in a partition once shutdownInternal and the calls of Consume have returned. -/
theorem no_data_stranded (kind : RequestKind Req E) (cfg : BatchConfig) (capacity maxWorkers : Nat)
    (s : MultiState K Req E)
    (reached : Reached (MultiStep kind cfg capacity) Always (newMultiBatcher maxWorkers) s) :
    ∀ x ∈ s.partitions, Returned x.batcher → Drained x.batcher := by
  intro x member returned
  have drains : Drains x.batcher := (partition_reached reached x member).invariant
    (newPartition_drains true) fun _ _ _ _ step drains => step.drains drains
  exact drains.drained returned

end runs

section witness
open CollectorFormal.Batch

structure UsedOnce (s : PartitionState (LogsRequest Unit Unit Nat) MergeError) : Prop where
  current : s.currentBatch = none
  active : s.active = true
  onEmpty : s.onEmpty = true
  exports : s.exports = []
  calls : s.calls = 1
  threads : s.threads = [⟨.timer, .start⟩, ⟨.consume 0 (numbered 0), .returned⟩]

theorem reaches_usedOnce : ∃ s : MultiState Nat (LogsRequest Unit Unit Nat) MergeError,
    Reached (MultiStep (logsKind unitWire) unlimited 1) Always (newMultiBatcher 1) s ∧ s.workers = 1 ∧
      s.lock = none ∧ s.cache = [(7, 0)] ∧ ∃ batcher, s.partitions = [⟨7, batcher⟩] ∧ UsedOnce batcher := by
  have fresh : Reached (MultiStep (logsKind unitWire) unlimited 1) Always (newMultiBatcher 1)
      (newMultiBatcher 1 : MultiState Nat (LogsRequest Unit Unit Nat) MergeError) := .start
  have called := fresh.next (.create _ 7 (numbered 0) rfl rfl) trivial
    |>.next (.called _ [] [] _ _ _ rfl rfl (.consume _ _)) trivial
  have exported := called
    |>.next (.inside _ [] [] _ _ _ 1 rfl nofun rfl (.move [_] [] rfl (.consume _ 0 (numbered 0)))) trivial
    |>.next (.inside _ [] [] _ _ _ 1 rfl nofun rfl (.move [_] [] rfl (.flush _ _ _ _ _))) trivial
    |>.next (.inside _ [] [] _ _ _ 0 rfl nofun rfl (.move [_] [] rfl (.execute _ _ _ _ _))) trivial
    |>.next (.inside _ [] [] _ _ _ 0 rfl nofun rfl (.move [_] [] rfl (.flushed _ _ _))) trivial
    |>.next (.inside _ [] [] _ _ _ 0 rfl nofun rfl (.exported _ [] [] _ [] rfl)) trivial
    |>.next (.inside _ [] [] _ _ _ 0 rfl nofun rfl (.notify _ [] [] _ _ _ rfl)) trivial
    |>.next (.inside _ [] [] _ _ _ 1 rfl nofun rfl (.release _ [] [] _ rfl)) trivial
  exact ⟨_, exported, rfl, rfl, rfl, _, rfl, rfl, rfl, rfl, rfl, rfl, rfl⟩

theorem waiting_record : consumeInternal (logsKind unitWire) twoToThree none 0 (numbered 0) =
    { currentBatch := some ⟨⟨(numbered 0).data, 1⟩, [.direct 0]⟩ } := by
  decide +kernel

/-- A record waits for others when its partition is evicted. -/
theorem evicted_returns : ∃ s : MultiState Nat (LogsRequest Unit Unit Nat) MergeError,
    Reached (MultiStep (logsKind unitWire) twoToThree 1) Always (newMultiBatcher 2) s ∧
      ∃ x ∈ s.partitions, Returned x.batcher ∧ x.batcher.calls = 1 := by
  have fresh : Reached (MultiStep (logsKind unitWire) twoToThree 1) Always (newMultiBatcher 2)
      (newMultiBatcher 2 : MultiState Nat (LogsRequest Unit Unit Nat) MergeError) := .start
  have waits := fresh.next (.create _ 7 (numbered 0) rfl rfl) trivial
    |>.next (.called _ [] [] _ _ _ rfl rfl (.consume _ _)) trivial
    |>.next (.inside _ [] [] _ _ _ 2 rfl nofun rfl (.consumes [_] [] rfl waiting_record)) trivial
    |>.next (.inside _ [] [] _ _ _ 2 rfl nofun rfl (.move [_] [] rfl (.flushed _ _ _))) trivial
  have evicted := waits.next (.create _ 8 (numbered 1) rfl rfl) trivial
    |>.next (.evict _ [] [_] _ _ _ _ 1 rfl rfl rfl (.shutdown _ true)) trivial
    |>.next (.inside _ [] [_] _ _ _ 1 rfl nofun rfl (.move [_, _] [] rfl (.deactivate _ true rfl))) trivial
    |>.next (.inside _ [] [_] _ _ _ 1 rfl nofun rfl (.move [_, _] [] rfl (.close _ true))) trivial
    |>.next (.inside _ [] [_] _ _ _ 1 rfl nofun rfl (.move [_, _] [] rfl (.take _ _ _ rfl))) trivial
    |>.next (.inside _ [] [_] _ _ _ 1 rfl nofun rfl (.move [_, _] [] rfl (.flush _ _ _ _ _))) trivial
    |>.next (.inside _ [] [_] _ _ _ 0 rfl nofun rfl (.move [_, _] [] rfl (.execute _ _ _ _ _))) trivial
    |>.next (.inside _ [] [_] _ _ _ 0 rfl nofun rfl (.move [_, _] [] rfl (.flushed _ _ _))) trivial
  have returned := evicted
    |>.next (.inside _ [] [_] _ _ _ 0 rfl nofun rfl (.exported _ [] [] _ [] rfl)) trivial
    |>.next (.inside _ [] [_] _ _ _ 0 rfl nofun rfl (.notify _ [] [] _ _ _ rfl)) trivial
    |>.next (.inside _ [] [_] _ _ _ 1 rfl nofun rfl (.release _ [] [] _ rfl)) trivial
    |>.next (.inside _ [] [_] _ _ _ 1 rfl nofun rfl (.move [] [_, _] rfl (.stop _ rfl))) trivial
    |>.next (.inside _ [] [_] _ _ _ 2 rfl nofun rfl (.move [_, _] [] rfl (.wait _ true rfl))) trivial
  refine ⟨_, returned, _, mem_append_cons_self, ⟨⟨true, ?_⟩, ?_⟩, rfl⟩
  · simp
  · intro thread member _
    change thread ∈ [⟨.timer, .returned⟩, ⟨.consume 0 (numbered 0), .returned⟩, ⟨.shutdown true, .returned⟩] at member
    simp only [mem_cons, not_mem_nil, or_false] at member
    rcases member with rfl | rfl | rfl <;> rfl

theorem no_data_stranded_evicted : ∃ s : MultiState Nat (LogsRequest Unit Unit Nat) MergeError,
    ∃ x ∈ s.partitions, Returned x.batcher ∧ x.batcher.calls = 1 ∧ Drained x.batcher := by
  obtain ⟨s, reached, x, member, returned, calls⟩ := evicted_returns
  exact ⟨s, x, member, returned, calls, no_data_stranded _ _ _ _ s reached x member returned⟩

end witness

end CollectorFormal.Batcher
