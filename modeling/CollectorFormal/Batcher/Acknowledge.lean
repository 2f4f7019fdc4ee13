import CollectorFormal.Batcher.LogsRequest
import CollectorFormal.Batcher.PartitionRun

/-! The goroutines of a partition keep its ledger, and every Done is called once. -/

namespace CollectorFormal.Batcher

open Lib List

variable {Req E : Type}

def Pc.batches : Pc Req → List (Batch Req)
  | .flush tasks _ => tasks
  | .execute task tasks _ => task :: tasks
  | _ => []

def Export.batches : Export Req E → List (Batch Req)
  | .exporting batch => [batch]
  | .notifying _ _ => []

def Export.telling : Export Req E → List (List E × Done)
  | .exporting _ => []
  | .notifying err done => done.map (err, ·)

def PartitionState.ledger (s : PartitionState Req E) : Ledger Req E where
  current := s.currentBatch
  live := (s.threads.flatMap (fun thread => thread.pc.batches) ++ s.exports.flatMap Export.batches :)
  telling := (s.exports.flatMap Export.telling :)
  finished := s.finished
  accounts := s.accounts
  sections := s.sections

def Thread.calling : Thread Req → List Nat
  | ⟨.consume call _, .start⟩ => [call]
  | _ => []

structure Numbered (brings : Nat → Req → Prop) (s : PartitionState Req E) : Prop where
  calls : (s.threads.flatMap Thread.calling ++ s.sections.map Section.call).Perm (List.range s.calls)
  brought : ∀ thread ∈ s.threads, ∀ call req, thread.role = .consume call req → brings call req

def Bringing (brings : Nat → Req → Prop) : PartitionLabel Req → PartitionState Req E → Prop
  | .consume req, s => brings s.calls req
  | _, _ => True

section refinement
variable {kind : RequestKind Req E} {cfg : BatchConfig} {brings : Nat → Req → Prop}
  {s t after : PartitionState Req E} {label : PartitionLabel Req} {role : Role Req} {pc next : Pc Req}
  {front back : List (Thread Req)}

theorem live_placed {thread : Thread Req} (threads : s.threads = front ++ thread :: back) :
    s.ledger.live = (thread.pc.batches : Multiset (Batch Req)) + (s.exports.flatMap Export.batches :) +
      ((front ++ back).flatMap fun other => other.pc.batches :) := by
  have perm := flatMap_placed (fun other : Thread Req => other.pc.batches) thread front back
  rw [← threads] at perm
  simp only [PartitionState.ledger, ← Multiset.coe_add]
  rw [Multiset.coe_eq_coe.mpr perm, ← Multiset.coe_add]
  abel

theorem Move.numbers (moved : Move kind cfg label role pc s next after) :
    (Thread.calling ⟨role, pc⟩ ++ s.sections.map Section.call).Perm
        (Thread.calling ⟨role, next⟩ ++ after.sections.map Section.call) ∧ after.calls = s.calls := by
  cases moved with
  | consume _ call req =>
    refine ⟨?_, rfl⟩
    simp only [Thread.calling, PartitionState.consumed, map_append, map_singleton]
    exact perm_append_comm
  | flushed _ _ again => cases again <;> cases role <;> exact ⟨.refl _, rfl⟩
  | nothing | leave | flush | execute | take | idle | enter | crash => cases role <;> exact ⟨.refl _, rfl⟩
  | _ => exact ⟨.refl _, rfl⟩

theorem Numbered.move (numbered : Numbered brings s) (threads : s.threads = front ++ ⟨role, pc⟩ :: back)
    (moved : Move kind cfg label role pc s next after) :
    Numbered brings { after with threads := front ++ ⟨role, next⟩ :: back } := by
  obtain ⟨perm, calls⟩ := moved.numbers
  refine ⟨?_, ?_⟩
  · have before := numbered.calls
    rw [threads] at before
    simp only [calls]
    calc
      _ = (front ++ ⟨role, next⟩ :: back).flatMap Thread.calling ++ after.sections.map Section.call := rfl
      List.Perm _ ((Thread.calling ⟨role, next⟩ ++ (front ++ back).flatMap Thread.calling) ++
          after.sections.map Section.call) := (flatMap_placed _ _ _ _).append_right _
      List.Perm _ ((front ++ back).flatMap Thread.calling ++
          (Thread.calling ⟨role, next⟩ ++ after.sections.map Section.call)) := by
        rw [← append_assoc]
        exact perm_append_comm.append_right _
      List.Perm _ ((front ++ back).flatMap Thread.calling ++
          (Thread.calling ⟨role, pc⟩ ++ s.sections.map Section.call)) := perm.symm.append_left _
      List.Perm _ ((Thread.calling ⟨role, pc⟩ ++ (front ++ back).flatMap Thread.calling) ++
          s.sections.map Section.call) := by
        rw [← append_assoc]
        exact perm_append_comm.append_right _
      List.Perm _ ((front ++ ⟨role, pc⟩ :: back).flatMap Thread.calling ++ s.sections.map Section.call) :=
        (flatMap_placed _ _ _ _).symm.append_right _
      List.Perm _ (List.range s.calls) := before
  · intro thread member call req same
    rcases Move.mem_before threads member with rfl | inside
    · exact numbered.brought ⟨role, pc⟩ (threads ▸ mem_append_cons_self) call req same
    · exact numbered.brought thread inside call req same

theorem PartitionStep.numbered (step : PartitionStep kind cfg label s t) (brought : Bringing brings label s)
    (numbered : Numbered brings s) : Numbered brings t := by
  cases step with
  | consume _ req =>
    refine ⟨?_, ?_⟩
    · have before := numbered.calls.append_right [s.calls]
      rw [append_assoc] at before
      simp only [flatMap_append, flatMap_singleton, Thread.calling, range_succ, append_assoc]
      exact (perm_append_comm.append_left _).trans before
    · apply forall_snoc numbered.brought
      rintro call req ⟨⟩
      exact brought
  | shutdown _ onWorker =>
    refine ⟨?_, ?_⟩
    · simpa [Thread.calling] using numbered.calls
    · exact forall_snoc numbered.brought nofun
  | move front back threads moved => exact numbered.move threads moved
  | exported | notify | release => exact ⟨numbered.calls, numbered.brought⟩

theorem Numbered.fresh (numbered : Numbered brings s) {call : Nat} {req : Req}
    (threads : s.threads = front ++ ⟨.consume call req, .start⟩ :: back) :
    ∀ entry ∈ s.sections, entry.call ≠ call := by
  have distinct := numbered.calls.nodup_iff.mpr nodup_range
  rw [threads] at distinct
  rintro entry inside rfl
  refine disjoint_of_nodup_append distinct ?_ (mem_map_of_mem inside)
  simp [Thread.calling]

theorem ledger_eq {thread following : Thread Req} (threads : s.threads = front ++ thread :: back)
    (moved : t.threads = front ++ following :: back) (currentBatch : t.currentBatch = s.currentBatch)
    (live : (following.pc.batches : Multiset (Batch Req)) + (t.exports.flatMap Export.batches :) =
      (thread.pc.batches : Multiset (Batch Req)) + (s.exports.flatMap Export.batches :))
    (telling : t.exports.flatMap Export.telling = s.exports.flatMap Export.telling)
    (finished : t.finished = s.finished) (accounts : t.accounts = s.accounts)
    (sections : t.sections = s.sections) : t.ledger = s.ledger := by
  apply Ledger.ext currentBatch _ _ finished accounts sections
  · rw [live_placed threads, live_placed moved, live]
  · simp only [PartitionState.ledger, telling]

theorem Numbered.move_ledger (numbered : Numbered brings s)
    (threads : s.threads = front ++ ⟨role, pc⟩ :: back) (moved : Move kind cfg label role pc s next after) :
    let t : PartitionState Req E := { after with threads := front ++ ⟨role, next⟩ :: back }
    t.ledger = s.ledger ∨ LedgerStep kind cfg brings s.ledger t.ledger := by
  intro t
  have now : t.threads = front ++ ⟨role, next⟩ :: back := rfl
  have live := live_placed threads
  have later := live_placed now
  cases moved with
  | consume _ call req =>
    have brought := numbered.brought _ (threads ▸ mem_append_cons_self) call req rfl
    refine .inr ((LedgerStep.consume s.ledger call req brought (numbered.fresh threads)).of_eq
      (Ledger.ext rfl ?_ rfl rfl rfl rfl))
    change t.ledger.live = s.ledger.live + (consumeInternal kind cfg s.currentBatch call req).flushes
    rw [later, live]
    change ((consumeInternal kind cfg s.currentBatch call req).flushes : Multiset (Batch Req)) +
      (s.exports.flatMap Export.batches :) + _ = 0 + _ + _ + _
    abel
  | take _ _ batch current =>
    refine .inr ((LedgerStep.take s.ledger batch current).of_eq (Ledger.ext rfl ?_ rfl rfl rfl rfl))
    rw [later, live, ← Multiset.singleton_add]
    change {batch} + (s.exports.flatMap Export.batches : Multiset (Batch Req)) + _ = {batch} + (0 + _ + _)
    abel
  | execute _ _ task tasks again =>
    left
    refine ledger_eq threads now rfl ?_ ?_ rfl rfl rfl
    · change (tasks : Multiset (Batch Req)) + ((s.exports ++ [Export.exporting task]).flatMap Export.batches :) =
        (task :: tasks :) + (s.exports.flatMap Export.batches :)
      rw [flatMap_append, ← Multiset.coe_add, ← Multiset.cons_coe, ← Multiset.singleton_add]
      abel
    · change (s.exports ++ [Export.exporting task]).flatMap Export.telling = _
      simp [Export.telling]
  | flushed _ _ again =>
    cases again <;> cases role <;> exact .inl (ledger_eq threads now rfl rfl rfl rfl rfl rfl)
  | nothing | leave => cases role <;> exact .inl (ledger_eq threads now rfl rfl rfl rfl rfl rfl)
  | _ => exact .inl (ledger_eq threads now rfl rfl rfl rfl rfl rfl)

theorem exports_placed {front back : List (Export Req E)} {task : Export Req E}
    (exports : s.exports = front ++ task :: back) :
    s.ledger.live = (task.batches : Multiset (Batch Req)) + (((front ++ back).flatMap Export.batches :) +
        (s.threads.flatMap fun thread => thread.pc.batches :)) ∧
      s.ledger.telling = (task.telling : Multiset (List E × Done)) + ((front ++ back).flatMap Export.telling :) := by
  have batches := flatMap_placed Export.batches task front back
  have telling := flatMap_placed Export.telling task front back
  rw [← exports] at batches telling
  simp only [PartitionState.ledger, ← Multiset.coe_add]
  rw [Multiset.coe_eq_coe.mpr batches, Multiset.coe_eq_coe.mpr telling, ← Multiset.coe_add, ← Multiset.coe_add]
  refine ⟨?_, rfl⟩
  abel

theorem PartitionStep.ledger (step : PartitionStep kind cfg label s t) (numbered : Numbered brings s) :
    t.ledger = s.ledger ∨ LedgerStep kind cfg brings s.ledger t.ledger := by
  cases step with
  | consume | shutdown =>
    left
    simp [PartitionState.ledger, Pc.batches]
  | move front back threads moved => exact numbered.move_ledger threads moved
  | exported _ front back batch err exports =>
    obtain ⟨live, telling⟩ := exports_placed exports
    have front_of := live.trans (Multiset.singleton_add batch _)
    refine .inr ((LedgerStep.finish s.ledger batch err _ front_of).of_eq (Ledger.ext rfl ?_ ?_ rfl rfl rfl))
    · rw [(exports_placed rfl).1]
      exact Multiset.zero_add _
    · rw [(exports_placed rfl).2]
      simp only [Ledger.finish, telling, Export.telling, Multiset.map_coe]
      abel
  | notify _ front back err done rest exports =>
    obtain ⟨live, telling⟩ := exports_placed exports
    have front_of : s.ledger.telling = (err, done) ::ₘ ((rest.map (err, ·) : Multiset (List E × Done)) +
        ((front ++ back).flatMap Export.telling :)) := by
      rw [telling, ← Multiset.cons_add]
      rfl
    refine .inr ((LedgerStep.tell s.ledger err done _ front_of).of_eq (Ledger.ext rfl ?_ ?_ rfl rfl rfl))
    · rw [(exports_placed rfl).1]
      rw [live]
      rfl
    · rw [(exports_placed rfl).2]
      rfl
  | release _ front back err exports =>
    left
    refine Ledger.ext rfl ?_ ?_ rfl rfl rfl
    · simp [PartitionState.ledger, exports, Export.batches]
    · simp [PartitionState.ledger, exports, Export.telling]

end refinement

section acknowledged
variable {β : Type} {kind : RequestKind Req E} {cfg : BatchConfig} {data : Req → List β} {owner : β → Nat}
  {s : PartitionState Req E}

def Owns (data : Req → List β) (owner : β → Nat) (call : Nat) (req : Req) : Prop :=
  ∀ item ∈ data req, owner item = call

theorem newPartition_ledger (onEmpty : Bool) : (newPartition onEmpty : PartitionState Req E).ledger = {} := rfl

theorem empty_balanced : Ledger.Balanced ({} : Ledger Req E) := by
  constructor <;> simp [Ledger.owed, Accounts.acksOf]

/-- No section has left what it merged in the current batch without a request coming back. -/
def PartitionState.Clear (s : PartitionState Req E) : Prop := ∀ entry ∈ s.sections, ¬ entry.Stuck

/-- What holds of the ledger in every state that is reached. -/
structure Kept (kind : RequestKind Req E) (cfg : BatchConfig) (data : Req → List β) (owner : β → Nat)
    (s : PartitionState Req E) : Prop where
  numbered : Numbered (Owns data owner) s
  balanced : s.ledger.Balanced
  carries : s.Clear → s.ledger.Carries kind cfg data owner
  drains : Drains s

theorem Reached.kept (contract : Contract kind cfg data) (valid : cfg.validate = none) {onEmpty : Bool}
    (reached : Reached (PartitionStep kind cfg) (Bringing (Owns data owner)) (newPartition onEmpty) s) :
    Kept kind cfg data owner s := by
  refine reached.invariant ?_ ?_
  · refine ⟨⟨.refl _, ?_⟩, ?_, ?_, newPartition_drains onEmpty⟩
    · simp [newPartition]
    · rw [newPartition_ledger]
      exact empty_balanced
    · intro _
      rw [newPartition_ledger]
      constructor <;> simp [Ledger.Holds]
  · intro label s t brought step kept
    refine ⟨step.numbered brought kept.numbered, ?_, ?_, step.drains kept.drains⟩
    · rcases step.ledger kept.numbered with same | moved
      · rw [same]
        exact kept.balanced
      · exact moved.balanced kept.balanced
    · intro clear
      rcases step.ledger kept.numbered with same | moved
      · have sections : s.sections = t.sections := congrArg Ledger.sections same.symm
        rw [same]
        exact kept.carries fun entry member => clear entry (sections ▸ member)
      · refine moved.carries contract valid clear (kept.carries fun entry member => clear entry ?_)
        exact moved.sections.subset member

def PartitionState.unfinished (s : PartitionState Req E) : List (Batch Req) :=
  s.currentBatch.toList ++ s.threads.flatMap (fun thread => thread.pc.batches) ++ s.exports.flatMap Export.batches

/-- Every call has returned, one of them of shutdownInternal, and every worker is free. -/
structure Completed (s : PartitionState Req E) : Prop where
  returned : Returned s
  exports : s.exports = []

theorem mem_unfinished {batch : Batch Req} (inside : batch ∈ s.unfinished) :
    s.ledger.current = some batch ∨ batch ∈ s.ledger.live := by
  simp only [PartitionState.unfinished, append_assoc, mem_append, Option.mem_toList] at inside
  rcases inside with current | live
  · exact .inl current
  · exact .inr (by simpa [PartitionState.ledger] using live)

theorem unfinished_owed {batch : Batch Req} {done : Done} (inside : batch ∈ s.unfinished)
    (member : done ∈ batch.done) : done ∈ s.ledger.owed := by
  rcases mem_unfinished inside with current | live
  · have listed : done ∈ s.ledger.current.toList.flatMap Batch.done :=
      mem_flatMap.mpr ⟨batch, Option.mem_toList.mpr current, member⟩
    simp [Ledger.owed, listed]
  · exact live_owed (l := s.ledger) live member

section
variable (kept : Kept kind cfg data owner s)
include kept

theorem Kept.acked_unowed {call : Nat} {err : List E}
    (acked : (call, err) ∈ s.accounts.acks) : ∀ done ∈ s.ledger.owed, done.call ≠ call := by
  rintro done owed rfl
  obtain ⟨entry, known, rfl⟩ := kept.balanced.known done owed
  have some : s.ledger.owed.count entry.done ≠ 0 := Multiset.count_ne_zero.mpr owed
  have unacked := (kept.balanced.settles entry known).unanswered some
  have listed : err ∈ s.accounts.acksOf entry.call := by
    refine mem_filterMap.mpr ⟨_, acked, ?_⟩
    rw [entry.done_call, if_pos rfl]
  rw [show s.accounts.acksOf entry.call = [] from unacked] at listed
  cases listed

theorem Kept.unowed (completed : Completed s) : s.ledger.current = none ∧ s.ledger.live = 0 ∧ s.ledger.owed = 0 := by
  have current := (kept.drains.drained completed.returned).current
  have finished := kept.drains.all_returned completed.returned
  have live : s.ledger.live = 0 := by
    simp only [PartitionState.ledger, completed.exports, flatMap_nil, append_nil,
      Multiset.coe_eq_zero, flatMap_eq_nil_iff]
    intro thread member
    rw [finished thread member]
    rfl
  refine ⟨current, live, ?_⟩
  rw [Ledger.owed, live]
  simp [PartitionState.ledger, current, completed.exports]

theorem Kept.received (completed : Completed s) {call : Nat}
    (called : call < s.calls) : ∃ entry ∈ s.sections, entry.call = call := by
  have listed := kept.numbered.calls.mem_iff.mpr (mem_range.mpr called)
  rcases mem_append.mp listed with waiting | received
  · obtain ⟨⟨role, pc⟩, member, calling⟩ := mem_flatMap.mp waiting
    obtain rfl : pc = .returned := kept.drains.all_returned completed.returned _ member
    cases role <;> cases calling
  · exact mem_map.mp received

end

structure Answered (data : Req → List β) (owner : β → Nat) (s : PartitionState Req E) (call : Nat)
    (err : List E) : Prop where
  once : s.accounts.acksOf call = [err]
  exported : ∀ ended ∈ s.finished, (∃ item ∈ data ended.1.req, owner item = call) → ended.2 ⊆ err
  dropped : ∃ entry ∈ s.sections, entry.call = call ∧
    ((∃ item ∈ data entry.req, ∀ ended ∈ s.finished, item ∉ data ended.1.req) →
      entry.answer.err ≠ [] ∧ entry.answer.err ⊆ err)

theorem Kept.answered (kept : Kept kind cfg data owner s) (clear : s.Clear) (completed : Completed s) {call : Nat}
    (called : call < s.calls) : Answered data owner s call (s.accounts.told call) := by
  obtain ⟨current, live, owed⟩ := kept.unowed completed
  obtain ⟨entry, known, rfl⟩ := kept.received completed called
  have settles := kept.balanced.settles entry known
  rw [owed, Multiset.count_zero] at settles
  obtain ⟨once, told⟩ := settles.answered
  refine ⟨once, ?_, entry, known, rfl, ?_⟩
  · rintro ended member ⟨item, inside, owned⟩
    obtain ⟨done, listed, same⟩ := (kept.carries clear).owned ended.1 (.inr (.inr ⟨ended.2, member⟩)) item inside
    rcases kept.balanced.covered ended member done listed with telling | covered
    · simp [PartitionState.ledger, completed.exports] at telling
    · rw [same, owned] at covered
      exact covered
  · rintro ⟨item, inside, lost⟩
    refine ⟨?_, told⟩
    intro clean
    obtain ⟨batch, holds, found⟩ := (kept.carries clear).kept entry known clean item inside
    rcases holds with here | alive | ⟨err, finished⟩
    · rw [current] at here
      cases here
    · rw [live] at alive
      cases alive
    · exact lost _ finished found

end acknowledged

/-- Every Done that was passed to Consume is called once, not before the batches with the data of its request have been
exported, and with all of their errors, unless a request is merged for which nothing comes back. -/
theorem acknowledged_once {β : Type} (kind : RequestKind Req E) (cfg : BatchConfig) (data : Req → List β)
    (owner : β → Nat) (valid : cfg.validate = none) (contract : Contract kind cfg data) (onEmpty : Bool)
    (s : PartitionState Req E)
    (reached : Reached (PartitionStep kind cfg) (Bringing (Owns data owner)) (newPartition onEmpty) s)
    (clear : s.Clear) :
    (∀ ack ∈ s.accounts.acks, ∀ batch ∈ s.unfinished, ∀ item ∈ data batch.req, owner item ≠ ack.1) ∧
      (∀ call, (s.accounts.acksOf call).length ≤ 1) ∧
      (Completed s → ∀ call < s.calls, ∃ err, Answered data owner s call err) := by
  have kept := Reached.kept contract valid reached
  refine ⟨?_, ?_, fun completed call called => ⟨_, kept.answered clear completed called⟩⟩
  · intro ack acked batch inside item found own
    have holds : s.ledger.Holds batch := by
      rcases mem_unfinished inside with current | live
      · exact .inl current
      · exact .inr (.inl live)
    obtain ⟨done, listed, same⟩ := (kept.carries clear).owned batch holds item found
    exact kept.acked_unowed acked done (unfinished_owed inside listed) (same.trans own)
  · intro call
    by_cases known : ∃ entry ∈ s.sections, entry.call = call
    · obtain ⟨entry, member, rfl⟩ := known
      have settles := kept.balanced.settles entry member
      by_cases nothing : s.ledger.owed.count entry.done = 0
      · rw [nothing] at settles
        exact (congrArg List.length settles.answered.1).le
      · exact (congrArg List.length (settles.unanswered nothing)).le.trans (Nat.zero_le 1)
    · have unacked := kept.balanced.unknown call fun entry member same => known ⟨entry, member, same⟩
      exact (congrArg List.length unacked).le.trans (Nat.zero_le 1)

section runs
open CollectorFormal.Batch

def recordOwner (record : Unit × String × Unit × String × Nat) : Nat := record.2.2.2.2

/-- The request of the second call is split: a part is exported with the first one, the rest at the Shutdown. -/
theorem two_calls_complete : ∃ s : PartitionState (LogsRequest Unit Unit Nat) MergeError,
    Reached (PartitionStep (logsKind lengths.wire) twoToThree) (Bringing (Owns logsRecords recordOwner))
      (newPartition false) s ∧ Completed s ∧ s.calls = 2 ∧ s.Clear := by
  have first : consumeInternal (logsKind lengths.wire) twoToThree none 0 (recordsOf [0]) =
      { currentBatch := some ⟨⟨(recordsOf [0]).data, 1⟩, [.direct 0]⟩ } := by decide +kernel
  have second : consumeInternal (logsKind lengths.wire) twoToThree (some ⟨⟨(recordsOf [0]).data, 1⟩, [.direct 0]⟩) 1
      (recordsOf [1, 1, 1]) =
        { currentBatch := some ⟨⟨(recordsOf [1]).data, 1⟩, [.counted 1]⟩
          flushes := [⟨{ data := (recordsOf [0]).data ++ (recordsOf [1, 1]).data }, [.direct 0, .counted 1]⟩]
          refCount := some ⟨2, []⟩ } := by decide +kernel
  have brings (call : Nat) (count : Nat) : Owns logsRecords recordOwner call (recordsOf (List.replicate count call)) := by
    simp [Owns, logsRecords, recordsOf, flattenResource, Envelope.flatten, recordOwner]
  have fresh : Reached (PartitionStep (logsKind lengths.wire) twoToThree) (Bringing (Owns logsRecords recordOwner))
      (newPartition false) (newPartition false) := .start
  have called := fresh.next (.consume _ (recordsOf [0])) (brings 0 1)
    |>.next (.consumes [_] [] rfl first) trivial
    |>.next (.move [_] [] rfl (.flushed _ _ _)) trivial
    |>.next (.consume _ (recordsOf [1, 1, 1])) (brings 1 3)
    |>.next (.consumes [_, _] [] rfl second) trivial
  have exported := called.next (.move [_, _] [] rfl (.flush _ _ _ _ _)) trivial
    |>.next (.move [_, _] [] rfl (.execute _ _ _ _ _)) trivial
    |>.next (.move [_, _] [] rfl (.flushed _ _ _)) trivial
    |>.next (.exported _ [] [] _ [] rfl) trivial
    |>.next (.notify _ [] [] _ _ _ rfl) trivial
    |>.next (.notify _ [] [] _ _ _ rfl) trivial
    |>.next (.release _ [] [] _ rfl) trivial
  have stopped := exported.next (.shutdown _ false) trivial
    |>.next (.move [_, _, _] [] rfl (.deactivate _ false rfl)) trivial
    |>.next (.move [_, _, _] [] rfl (.close _ false)) trivial
    |>.next (.move [_, _, _] [] rfl (.take _ _ _ rfl)) trivial
    |>.next (.move [_, _, _] [] rfl (.flush _ _ _ _ _)) trivial
    |>.next (.move [_, _, _] [] rfl (.execute _ _ _ _ _)) trivial
    |>.next (.move [_, _, _] [] rfl (.flushed _ _ _)) trivial
    |>.next (.exported _ [] [] _ [] rfl) trivial
    |>.next (.notify _ [] [] _ _ _ rfl) trivial
    |>.next (.release _ [] [] _ rfl) trivial
    |>.next (.move [] [_, _, _] rfl (.stop _ rfl)) trivial
    |>.next (.move [_, _, _] [] rfl (.wait _ false rfl)) trivial
  refine ⟨_, stopped, ⟨⟨⟨false, ?_⟩, ?_⟩, rfl⟩, rfl, ?_⟩
  · simp
  · intro thread member _
    change thread ∈ [⟨.timer, .returned⟩, ⟨.consume 0 (recordsOf [0]), .returned⟩,
      ⟨.consume 1 (recordsOf [1, 1, 1]), .returned⟩, ⟨.shutdown false, .returned⟩] at member
    simp only [mem_cons, not_mem_nil, or_false] at member
    rcases member with rfl | rfl | rfl | rfl <;> rfl
  · intro entry member stuck
    rcases mem_append.mp member with before | new
    · cases mem_singleton.mp before
      obtain ⟨_, req, none, _⟩ := stuck
      cases none
    · cases mem_singleton.mp new
      exact absurd stuck.1 (by decide +kernel)

theorem acknowledged_once_split : twoToThree.validate = none ∧
    ∃ s : PartitionState (LogsRequest Unit Unit Nat) MergeError,
      Completed s ∧ s.calls = 2 ∧ ∀ call < 2, ∃ err, Answered logsRecords recordOwner s call err := by
  obtain ⟨s, reached, completed, calls, clear⟩ := two_calls_complete
  refine ⟨by decide, s, completed, calls, fun call called => ?_⟩
  exact (acknowledged_once (logsKind lengths.wire) twoToThree logsRecords recordOwner (by decide)
    (logs_contract lengths (by decide)) false s reached clear).2.2 completed call (calls ▸ called)

/-- A batch without records is waiting when a record comes that is too large. The call is told the error, and the
record stays in the batch. -/
theorem acknowledged_early : twentyBytes.validate = none ∧
    ∃ s : PartitionState (LogsRequest Unit Unit Nat) MergeError,
      Reached (PartitionStep (logsKind lengths.wire) twentyBytes) (Bringing (Owns logsRecords fun _ => 1))
        (newPartition false) s ∧
      ∃ ack ∈ s.accounts.acks, ∃ batch ∈ s.unfinished, ∃ item ∈ logsRecords batch.req, 1 = ack.1 := by
  have first : consumeInternal (logsKind lengths.wire) twentyBytes none 0 { data := [] } =
      { currentBatch := some ⟨⟨[], 0⟩, [.direct 0]⟩ } := by decide +kernel
  have second : consumeInternal (logsKind lengths.wire) twentyBytes (some ⟨⟨[], 0⟩, [.direct 0]⟩) 1 (recordsOf [100]) =
      { currentBatch := some ⟨⟨(recordsOf [100]).data, 110⟩, [.direct 0]⟩
        acked := some [.oversized "log record" 1] } := by decide +kernel
  have fresh : Reached (PartitionStep (logsKind lengths.wire) twentyBytes) (Bringing (Owns logsRecords fun _ => 1))
      (newPartition false) (newPartition false) := .start
  have called := fresh.next (.consume _ { data := [] }) nofun
    |>.next (.consumes [_] [] rfl first) trivial
    |>.next (.move [_] [] rfl (.flushed _ _ _)) trivial
    |>.next (.consume _ (recordsOf [100])) (fun _ _ => rfl)
    |>.next (.consumes [_, _] [] rfl second) trivial
  exact ⟨by decide, _, called, _, mem_singleton_self _, _, mem_singleton_self _, _, mem_singleton_self _, rfl⟩

end runs

end CollectorFormal.Batcher
