import Mathlib.Data.Set.Finite.Basic
import CollectorFormal.Batcher.WorkerPool

/-! Runs in which evictions take all workers. Calls for new partitions fill the cache, and
each further one evicts a partition whose shutdownInternal cannot end. -/

namespace CollectorFormal.Batcher

open Lib List Option

variable {K Req E : Type}

def Silent (label : PartitionLabel Req) (_ : PartitionState Req E) : Prop :=
  ∀ free, label.workers free = some free

def firstCall (req : Req) : PartitionState Req E :=
  { onEmpty := true, calls := 1, threads := [⟨.timer, .start⟩, ⟨.consume 0 req, .start⟩] }

def PartitionState.evicted (s : PartitionState Req E) : PartitionState Req E :=
  { s with threads := s.threads ++ [⟨.shutdown true, .start⟩] }

section scenes
variable {kind : RequestKind Req E} {cfg : BatchConfig} {s : PartitionState Req E} {req result receiver : Req}

theorem consumeInternal_alone (call : Nat)
    (alone : kind.mergeSplit cfg.maxSize cfg.sizer req none = ⟨[result], [], receiver⟩) :
    consumeInternal kind cfg none call req =
      if kind.sizeof cfg.sizer result < cfg.minSize then { currentBatch := some ⟨result, [.direct call]⟩ }
      else { currentBatch := none, flushes := [⟨result, [.direct call]⟩] } := by
  by_cases small : kind.sizeof cfg.sizer result < cfg.minSize <;>
    simp [consumeInternal, consumeFirst, alone, wrapDone, keepLast, small]

structure Waits (s : PartitionState Req E) : Prop where
  current : s.currentBatch ≠ none
  active : s.active = true
  exports : s.exports = []
  threads : ∀ thread ∈ s.threads, thread.onWorker = false

theorem Waits.blocked (waits : Waits s) : Blocked s := by
  refine ⟨waits.exports, fun thread member working => ?_⟩
  rw [waits.threads thread member] at working
  cases working

theorem firstCall_waits (alone : kind.mergeSplit cfg.maxSize cfg.sizer req none = ⟨[result], [], receiver⟩)
    (small : kind.sizeof cfg.sizer result < cfg.minSize) :
    ∃ kept, Reached (PartitionStep kind cfg) Silent (firstCall req) kept ∧ Waits kept := by
  have taken := consumeInternal_alone 0 alone
  rw [if_pos small] at taken
  have fresh : Reached (PartitionStep kind cfg) Silent (firstCall req) (firstCall req) := .start
  have called := fresh.next (.move [_] [] rfl (.consume _ 0 req)) fun _ => rfl
  change Reached _ _ _ { (firstCall req).consumed kind cfg 0 req with threads := [⟨.timer, .start⟩,
    ⟨.consume 0 req, .flush (consumeInternal kind cfg none 0 req).flushes false⟩] } at called
  rw [taken] at called
  have returned := called.next (.move [_] [] rfl (.flushed _ _ _)) fun _ => rfl
  refine ⟨_, returned, ?_, rfl, rfl, ?_⟩
  · change (consumeInternal kind cfg none 0 req).currentBatch ≠ none
    rw [taken]
    exact some_ne_none _
  · intro thread member
    rcases mem_append.mp member with timer | call
    · rw [mem_singleton.mp timer]
      rfl
    · rw [mem_singleton.mp call]
      rfl

theorem Waits.evicted (waits : Waits s) :
    ∃ blocked, Reached (PartitionStep kind cfg) Silent s.evicted blocked ∧ Blocked blocked := by
  obtain ⟨current, active, exports, threads⟩ := waits
  obtain ⟨batch, kept⟩ := ne_none_iff_exists'.mp current
  have begun : Reached (PartitionStep kind cfg) Silent s.evicted s.evicted := .start
  have waiting := begun.next (.move s.threads [] rfl (.deactivate _ true active)) (fun _ => rfl)
    |>.next (.move s.threads [] rfl (.close _ true)) (fun _ => rfl)
    |>.next (.move s.threads [] rfl (.take _ _ batch kept)) (fun _ => rfl)
    |>.next (.move s.threads [] rfl (.flush _ _ batch [] false)) (fun _ => rfl)
  refine ⟨_, waiting, Blocked.of_execute exports fun thread member working => ?_⟩
  rcases mem_append.mp member with before | last
  · rw [threads thread before] at working
    cases working
  · rw [mem_singleton.mp last]
    rfl

/-- A call that comes to a partition that is shut down waits for a worker, and the worker of
shutdownInternal waits for the call. -/
theorem firstCall_evicted (alone : kind.mergeSplit cfg.maxSize cfg.sizer req none = ⟨[result], [], receiver⟩)
    (large : ¬ kind.sizeof cfg.sizer result < cfg.minSize) :
    ∃ blocked, Reached (PartitionStep kind cfg) Silent (firstCall req).evicted blocked ∧ Blocked blocked := by
  have taken := consumeInternal_alone 0 alone
  rw [if_neg large] at taken
  have begun : Reached (PartitionStep kind cfg) Silent (firstCall req).evicted (firstCall req).evicted := .start
  have stopped := begun.next (.move [_, _] [] rfl (.deactivate _ true rfl)) (fun _ => rfl)
    |>.next (.move [_, _] [] rfl (.close _ true)) (fun _ => rfl)
    |>.next (.move [_, _] [] rfl (.nothing _ _ rfl)) (fun _ => rfl)
  have called := stopped.next (.move [_] [_] rfl (.consume _ 0 req)) fun _ => rfl
  change Reached _ _ _ { PartitionState.consumed kind cfg _ 0 req with threads := [⟨.timer, .start⟩,
    ⟨.consume 0 req, .flush (consumeInternal kind cfg none 0 req).flushes true⟩,
    ⟨.shutdown true, .wait⟩] } at called
  rw [taken] at called
  have waiting := called.next (.move [_] [_] rfl (.flush _ _ _ [] true)) fun _ => rfl
  refine ⟨_, waiting, rfl, fun thread member working => ?_⟩
  change thread ∈ [⟨.timer, .start⟩, ⟨.consume 0 req, .execute _ [] true⟩, ⟨.shutdown true, .wait⟩] at member
  simp only [mem_cons, not_mem_nil, or_false] at member
  rcases member with rfl | rfl | rfl
  · cases working
  · cases working
  · exact .inr ⟨rfl, _, mem_cons_of_mem _ mem_cons_self, rfl⟩

end scenes

section pool
variable [Lru K Nat] {kind : RequestKind Req E} {cfg : BatchConfig} {capacity maxWorkers : Nat}
  {s : MultiState K Req E}

theorem silent_steps (reached : Reached (MultiStep kind cfg capacity) Always (newMultiBatcher maxWorkers) s)
    {front back : List (KeyedPartition K Req E)} {x : KeyedPartition K Req E} {batcher : PartitionState Req E}
    (free : s.lock = none) (partitions : s.partitions = front ++ x :: back)
    (run : Reached (PartitionStep kind cfg) Silent x.batcher batcher) :
    Reached (MultiStep kind cfg capacity) Always (newMultiBatcher maxWorkers)
      { s with partitions := front ++ ⟨x.key, batcher⟩ :: back } := by
  induction run with
  | start =>
    rw [← partitions]
    exact reached
  | @step state next label _ silent moved before =>
    have started : ∀ req evicted, s.lock = some ⟨.getPartition front.length req, evicted⟩ → evicted = [] := by
      rw [free]
      nofun
    exact before.next (.inside _ front back ⟨x.key, state⟩ next label s.workers (silent s.workers) started rfl
      moved) trivial

/-- So many partitions have been evicted, each with a worker, and the cache has so many others. -/
structure Stage (full waiting : PartitionState Req E → Prop) (maxWorkers taken held : Nat)
    (s : MultiState K Req E) : Prop where
  lock : s.lock = none
  workers : s.workers + taken = maxWorkers
  cache : s.cache.map Prod.snd = (List.range' taken held).reverse
  partitions : ∃ gone kept, s.partitions = gone ++ kept ∧ gone.length = taken ∧ kept.length = held ∧
    (∀ x ∈ gone, waiting x.batcher) ∧ ∀ x ∈ kept, full x.batcher

variable [Infinite K] {full waiting : PartitionState Req E → Prop} {taken held : Nat} {req : Req}

section
variable (fills : ∃ filled, Reached (PartitionStep kind cfg) Silent (firstCall req) filled ∧ full filled)
include fills

theorem Stage.fill (stage : Stage full waiting maxWorkers taken held s) (room : held < capacity)
    (reached : Reached (MultiStep kind cfg capacity) Always (newMultiBatcher maxWorkers) s) :
    ∃ t : MultiState K Req E, Reached (MultiStep kind cfg capacity) Always (newMultiBatcher maxWorkers) t ∧
      Stage full waiting maxWorkers taken (held + 1) t := by
  obtain ⟨lock, workers, cache, gone, kept, partitions, goneLength, keptLength, allWaiting, allFull⟩ := stage
  obtain ⟨filled, run, isFull⟩ := fills
  obtain ⟨key, new⟩ := (List.finite_toSet (s.cache.map Prod.fst)).exists_notMem
  have length : s.cache.length = held := by
    rw [← length_map Prod.snd, cache, length_reverse, length_range']
  have created := reached.next (.create s key req lock (Lru.get_eq_none_iff.mpr new)) trivial
  rw [Lru.add_room key s.partitions.length (length ▸ room)] at created
  have called := created.next (.called _ s.partitions [] _ _ req rfl rfl (.consume _ req)) trivial
  have done := silent_steps called rfl rfl run
  refine ⟨_, done, rfl, workers, ?_, gone, kept ++ [⟨key, filled⟩], ?_, goneLength, ?_, allWaiting, ?_⟩
  · simp only [map_cons, cache, partitions, length_append, goneLength, keptLength]
    rw [range'_1_concat, reverse_append]
    rfl
  · simp only [partitions, append_assoc]
  · rw [length_append, keptLength, length_singleton]
  · exact forall_snoc allFull isFull

variable (waits : ∀ filled, full filled →
  ∃ blocked, Reached (PartitionStep kind cfg) Silent filled.evicted blocked ∧ waiting blocked)
include waits

theorem Stage.evict (stage : Stage full waiting maxWorkers taken capacity s) (positive : 1 ≤ capacity)
    (left : taken < maxWorkers)
    (reached : Reached (MultiStep kind cfg capacity) Always (newMultiBatcher maxWorkers) s) :
    ∃ t : MultiState K Req E, Reached (MultiStep kind cfg capacity) Always (newMultiBatcher maxWorkers) t ∧
      Stage full waiting maxWorkers (taken + 1) capacity t := by
  obtain ⟨lock, workers, cache, gone, kept, partitions, goneLength, keptLength, allWaiting, allFull⟩ := stage
  obtain ⟨oldest, others, rfl⟩ := exists_cons_of_length_pos (keptLength ▸ positive)
  obtain ⟨blocked, ending, isWaiting⟩ := waits oldest.batcher (allFull oldest mem_cons_self)
  obtain ⟨filled, run, isFull⟩ := fills
  obtain ⟨key, new⟩ := (List.finite_toSet (s.cache.map Prod.fst)).exists_notMem
  have length : s.cache.length = capacity := by
    rw [← length_map Prod.snd, cache, length_reverse, length_range']
  have index : s.partitions.length = taken + capacity := by
    rw [partitions, length_append, goneLength, keptLength]
  have values : s.partitions.length :: s.cache.map Prod.snd =
      (List.range' (taken + 1) capacity).reverse ++ [taken] := by
    calc
      s.partitions.length :: s.cache.map Prod.snd = (List.range' taken (capacity + 1)).reverse := by
        rw [range'_1_concat, reverse_append, cache, index]
        rfl
      _ = (List.range' (taken + 1) capacity).reverse ++ [taken] := by
        rw [range'_succ, reverse_cons]
  obtain ⟨rest, evicts⟩ := Lru.add_full key length.ge values
  have created := reached.next (.create s key req lock (Lru.get_eq_none_iff.mpr new)) trivial
  rw [evicts] at created
  have evicted := created.next (.evict _ gone (others ++ [⟨key, newPartition true⟩]) oldest _ _ []
    (s.workers - 1) (by simp only; omega) (by rw [goneLength]) (by simp [partitions])
    (.shutdown _ true)) trivial
  have called := evicted.next (.called _ (gone ++ ⟨oldest.key, oldest.batcher.evicted⟩ :: others) []
    ⟨key, newPartition true⟩ _ req (by simp [partitions]) (by simp [PartitionState.evicted])
    (.consume _ req)) trivial
  have moved (batcher : PartitionState Req E) :
      (gone ++ ⟨oldest.key, batcher⟩ :: others) ++ [(⟨key, firstCall req⟩ : KeyedPartition K Req E)] =
        gone ++ ⟨oldest.key, batcher⟩ :: (others ++ [⟨key, firstCall req⟩]) := append_assoc _ _ _
  have blocks := silent_steps called rfl (moved oldest.batcher.evicted) ending
  have done := silent_steps blocks rfl (moved blocked).symm run
  refine ⟨_, done, rfl, ?_, rest, gone ++ [⟨oldest.key, blocked⟩], others ++ [⟨key, filled⟩], ?_, ?_, ?_, ?_, ?_⟩
  · simp only
    omega
  · simp
  · rw [length_append, goneLength, length_singleton]
  · simpa using keptLength
  · exact forall_snoc allWaiting isWaiting
  · exact forall_snoc (fun x member => allFull x (mem_cons_of_mem _ member)) isFull

theorem reaches_all_taken (positive : 1 ≤ capacity) (maxWorkers : Nat) :
    ∃ t : MultiState K Req E, Reached (MultiStep kind cfg capacity) Always (newMultiBatcher maxWorkers) t ∧
      t.workers = 0 ∧ ∀ x ∈ t.partitions, waiting x.batcher ∨ full x.batcher := by
  have filling : ∀ held ≤ capacity, ∃ t : MultiState K Req E,
      Reached (MultiStep kind cfg capacity) Always (newMultiBatcher maxWorkers) t ∧
        Stage full waiting maxWorkers 0 held t := by
    intro held
    induction held with
    | zero =>
      intro _
      exact ⟨_, .start, rfl, rfl, rfl, [], [], rfl, rfl, rfl, nofun, nofun⟩
    | succ held ih =>
      intro room
      obtain ⟨t, reached, stage⟩ := ih (Nat.le_of_succ_le room)
      exact stage.fill fills room reached
  have evicting : ∀ taken ≤ maxWorkers, ∃ t : MultiState K Req E,
      Reached (MultiStep kind cfg capacity) Always (newMultiBatcher maxWorkers) t ∧
        Stage full waiting maxWorkers taken capacity t := by
    intro taken
    induction taken with
    | zero => exact fun _ => filling capacity le_rfl
    | succ taken ih =>
      intro left
      obtain ⟨t, reached, stage⟩ := ih (Nat.le_of_succ_le left)
      exact stage.evict fills waits positive left reached
  obtain ⟨t, reached, stage⟩ := evicting maxWorkers le_rfl
  obtain ⟨_, workers, _, gone, kept, partitions, _, _, allWaiting, allFull⟩ := stage
  refine ⟨t, reached, by omega, fun x member => ?_⟩
  rw [partitions] at member
  rcases mem_append.mp member with before | last
  · exact .inl (allWaiting x before)
  · exact .inr (allFull x last)

end

/-- Whether a request is kept as the current batch or is flushed at once: partitions that are evicted with a request
each take all workers. -/
theorem reaches_allWaiting (positive : 1 ≤ capacity) (maxWorkers : Nat) {result receiver : Req}
    (alone : kind.mergeSplit cfg.maxSize cfg.sizer req none = ⟨[result], [], receiver⟩) :
    ∃ s : MultiState K Req E,
      Reached (MultiStep kind cfg capacity) Always (newMultiBatcher maxWorkers) s ∧ AllWaiting s := by
  by_cases small : kind.sizeof cfg.sizer result < cfg.minSize
  · obtain ⟨s, reached, workers, all⟩ := reaches_all_taken (K := K)
      (firstCall_waits alone small) (fun _ waits => waits.evicted) positive maxWorkers
    refine ⟨s, reached, workers, fun x member => ?_⟩
    rcases all x member with blocked | waits
    · exact blocked
    · exact waits.blocked
  · obtain ⟨s, reached, workers, all⟩ := reaches_all_taken (K := K) ⟨firstCall req, .start, rfl⟩
      (by rintro _ rfl; exact firstCall_evicted alone small) positive maxWorkers
    refine ⟨s, reached, workers, fun x member => ?_⟩
    rcases all x member with blocked | first
    · exact blocked
    · rw [← first]
      refine ⟨rfl, fun thread member working => ?_⟩
      simp only [firstCall, mem_cons, not_mem_nil, or_false] at member
      rcases member with rfl | rfl <;> cases working

end pool

section logs
open CollectorFormal.Batch

variable {R S L : Type} [Inhabited R] [Inhabited S]

theorem empty_whole (wire : TreeWire R S L) {cfg : BatchConfig} (valid : cfg.validate = none) :
    ∃ result receiver, (logsKind wire).mergeSplit cfg.maxSize cfg.sizer { data := [] } none =
      ⟨[result], [], receiver⟩ := by
  have limit := (validate_sizes valid).2.1
  obtain ⟨splitter, known, nothing⟩ : ∃ splitter, logsSplitters wire cfg.sizer = some splitter ∧
      splitter.size [] = 0 := by
    cases szt : cfg.sizer with
    | requests => simp [BatchConfig.validate, szt] at valid
    | items | bytes => exact ⟨_, rfl, rfl⟩
  rw [logsKind_answer known]
  by_cases unlimited : cfg.maxSize = 0
  · rw [if_pos unlimited]
    exact ⟨_, _, rfl⟩
  · have fits : ¬ splitter.size [] > cfg.maxSize := by omega
    rw [if_neg unlimited, Splitter.split, Splitter.splitting]
    simp only [SignalRequest.merged, SignalRequest.sized, if_true, if_neg fits, nil_append, toList_none]
    exact ⟨_, _, rfl⟩

/-- Whatever the configuration, the number of workers and the capacity of the cache: all workers may come to wait for a
worker, and then do so for ever. -/
theorem workers_deadlock [Lru K Nat] [Infinite K] (wire : TreeWire R S L) (cfg : BatchConfig)
    (valid : cfg.validate = none) (capacity maxWorkers : Nat) (room : 1 ≤ capacity) :
    ∃ s : MultiState K (LogsRequest R S L) MergeError,
      Reached (MultiStep (logsKind wire) cfg capacity) Always (newMultiBatcher maxWorkers) s ∧
        ∀ t, Reached (MultiStep (logsKind wire) cfg capacity) Always s t → AllWaiting t := by
  obtain ⟨result, receiver, alone⟩ := empty_whole wire valid
  obtain ⟨s, reached, waiting⟩ := reaches_allWaiting (K := K) room maxWorkers alone
  exact ⟨s, reached, fun t later => waiting.forever later⟩

theorem workers_deadlock_unbatched : unlimited.validate = none ∧
    ∃ s : MultiState String (LogsRequest Unit Unit Nat) MergeError,
      Reached (MultiStep (logsKind unitWire) unlimited 2) Always (newMultiBatcher 3) s ∧
        ∀ t, Reached (MultiStep (logsKind unitWire) unlimited 2) Always s t → AllWaiting t :=
  ⟨by decide, workers_deadlock unitWire unlimited (by decide) 2 3 (by decide)⟩

def twoAtLeast : BatchConfig := { flushTimeout := 1, sizer := .items, minSize := 2, maxSize := 0 }

/-- The capacity that the cache has and ten workers, with requests of one record each. -/
theorem ten_workers_wait : twoAtLeast.validate = none ∧
    ∃ s : MultiState String (LogsRequest Unit Unit Nat) MergeError,
      Reached (MultiStep (logsKind unitWire) twoAtLeast 10000) Always (newMultiBatcher 10) s ∧ AllWaiting s := by
  have alone : (logsKind unitWire).mergeSplit twoAtLeast.maxSize twoAtLeast.sizer (numbered 0) none =
      ⟨[numbered 0], [], numbered 0⟩ := rfl
  exact ⟨by decide, reaches_allWaiting (by decide) 10 alone⟩

end logs

end CollectorFormal.Batcher
