import Mathlib.Data.Multiset.Bind
import Mathlib.Data.Multiset.Count
import Mathlib.Tactic.Abel
import CollectorFormal.Batcher.PartitionBatcher

/-! What a batcher owes to the callers of Consume.

A ledger has the batches that were not exported yet, the ends of exports that someone is still to be told of, and
what every call was answered. The goroutines refine it. -/

namespace CollectorFormal.Batcher

open List Option Function

variable {Req E : Type}

/-- A section of consumeInternal and what MergeSplit answered in it. -/
structure Section (Req E : Type) where
  call : Nat
  req : Req
  /-- The request of the current batch. -/
  current : Option Req
  answer : Merged Req E

def entering (kind : RequestKind Req E) (cfg : BatchConfig) (currentBatch : Option (Batch Req)) (call : Nat)
    (req : Req) : Section Req E :=
  ⟨call, req, currentBatch.map Batch.req, mergeSplitWith kind cfg currentBatch req⟩

/-- Nothing came back, but the request of the current batch is another one. -/
def Section.Stuck (entry : Section Req E) : Prop :=
  entry.answer.reqList = [] ∧ ∃ req, entry.current = some req ∧ entry.answer.receiver ≠ req

def Section.done (entry : Section Req E) : Done :=
  (wrapDone entry.call entry.answer.reqList entry.answer.err).1

@[ext] structure Ledger (Req E : Type) where
  current : Option (Batch Req) := none
  /-- Batches given to flush and not exported yet. -/
  live : Multiset (Batch Req) := 0
  /-- The errors of ended exports and whom they are still to be told. -/
  telling : Multiset (List E × Done) := 0
  finished : List (Batch Req × List E) := []
  accounts : Accounts E := {}
  sections : List (Section Req E) := []

def Ledger.consume (kind : RequestKind Req E) (cfg : BatchConfig) (l : Ledger Req E) (call : Nat) (req : Req) :
    Ledger Req E :=
  let consumed := consumeInternal kind cfg l.current call req
  { l with
    current := consumed.currentBatch
    live := l.live + consumed.flushes
    accounts := l.accounts.consumed call consumed
    sections := l.sections ++ [entering kind cfg l.current call req] }

def Ledger.finish (l : Ledger Req E) (batch : Batch Req) (err : List E) (rest : Multiset (Batch Req)) : Ledger Req E :=
  { l with
    live := rest
    telling := l.telling + (batch.done : Multiset Done).map (err, ·)
    finished := l.finished ++ [(batch, err)] }

inductive LedgerStep (kind : RequestKind Req E) (cfg : BatchConfig) (brings : Nat → Req → Prop) :
    Ledger Req E → Ledger Req E → Prop where
  | consume (l : Ledger Req E) (call : Nat) (req : Req) (brought : brings call req)
      (fresh : ∀ entry ∈ l.sections, entry.call ≠ call) :
      LedgerStep kind cfg brings l (l.consume kind cfg call req)
  | take (l : Ledger Req E) (batch : Batch Req) (current : l.current = some batch) :
      LedgerStep kind cfg brings l { l with current := none, live := batch ::ₘ l.live }
  | finish (l : Ledger Req E) (batch : Batch Req) (err : List E) (rest : Multiset (Batch Req))
      (live : l.live = batch ::ₘ rest) : LedgerStep kind cfg brings l (l.finish batch err rest)
  | tell (l : Ledger Req E) (err : List E) (done : Done) (rest : Multiset (List E × Done))
      (telling : l.telling = (err, done) ::ₘ rest) :
      LedgerStep kind cfg brings l { l with telling := rest, accounts := l.accounts.onDone err done }

theorem LedgerStep.of_eq {kind : RequestKind Req E} {cfg : BatchConfig} {brings : Nat → Req → Prop}
    {l after result : Ledger Req E} (step : LedgerStep kind cfg brings l after) (same : result = after) :
    LedgerStep kind cfg brings l result := same ▸ step

/-- The calls of OnDone that are still to come. -/
def Ledger.owed (l : Ledger Req E) : Multiset Done :=
  (l.current.toList.flatMap Batch.done : Multiset Done) + l.live.bind (fun batch => (batch.done : Multiset Done)) +
    l.telling.map Prod.snd

def Accounts.acksOf (accounts : Accounts E) (call : Nat) : List (List E) :=
  accounts.acks.filterMap fun ack => if ack.1 = call then some ack.2 else none

/-- The errors that a call was told so far, or its refCountDone. -/
def Accounts.told (accounts : Accounts E) (call : Nat) : List E :=
  match accounts.refs call with
  | some rcd => rcd.err
  | none => (accounts.acksOf call).flatten

/-- How a call stands that is owed a number of calls of OnDone. -/
inductive Settles (accounts : Accounts E) (owed : Nat) (entry : Section Req E) : Prop where
  | refused (nothing : owed = 0) (uncounted : accounts.refs entry.call = none)
      (acked : accounts.acksOf entry.call = [entry.answer.err])
  | open (one : owed = 1) (direct : entry.done = .direct entry.call) (clean : entry.answer.err = [])
      (uncounted : accounts.refs entry.call = none) (unacked : accounts.acksOf entry.call = [])
  | closed (nothing : owed = 0) (err : List E) (clean : entry.answer.err = [])
      (uncounted : accounts.refs entry.call = none) (acked : accounts.acksOf entry.call = [err])
  | counted (rcd : RefCount E) (counts : entry.done = .counted entry.call)
      (found : accounts.refs entry.call = some rcd) (same : rcd.refCount = owed)
      (told : entry.answer.err ⊆ rcd.err)
      (acked : accounts.acksOf entry.call = if owed = 0 then [rcd.err] else [])

/-- Every call is owed what its batches and their ends will tell it. -/
structure Ledger.Balanced (l : Ledger Req E) : Prop where
  distinct : (l.sections.map Section.call).Nodup
  known : ∀ done ∈ l.owed, ∃ entry ∈ l.sections, done = entry.done
  settles : ∀ entry ∈ l.sections, Settles l.accounts (l.owed.count entry.done) entry
  unknown : ∀ call, (∀ entry ∈ l.sections, entry.call ≠ call) → l.accounts.acksOf call = []
  attributed : ∀ ended ∈ l.finished, ∀ done ∈ ended.1.done, ∃ entry ∈ l.sections, entry.call = done.call
  covered : ∀ ended ∈ l.finished, ∀ done ∈ ended.1.done,
    (ended.2, done) ∈ l.telling ∨ ended.2 ⊆ l.accounts.told done.call

section accounts
variable {accounts : Accounts E} {call other : Nat} {err : List E}

theorem acksOf_snoc (accounts : Accounts E) (call other : Nat) (err : List E) (refs : Nat → Option (RefCount E)) :
    (Accounts.mk refs (accounts.acks ++ [(call, err)])).acksOf other =
      accounts.acksOf other ++ if call = other then [err] else [] := by
  simp only [Accounts.acksOf, filterMap_append]
  split
  · next same => simp [same]
  · next different => simp [different]

theorem onDone_other (accounts : Accounts E) (err : List E) (done : Done) (different : done.call ≠ other) :
    (accounts.onDone err done).refs other = accounts.refs other ∧
      (accounts.onDone err done).acksOf other = accounts.acksOf other := by
  cases done with
  | direct call =>
    refine ⟨rfl, ?_⟩
    change call ≠ other at different
    rw [Accounts.onDone, acksOf_snoc, if_neg different, append_nil]
  | counted call =>
    change call ≠ other at different
    simp only [Accounts.onDone]
    split
    · exact ⟨rfl, rfl⟩
    · next rcd found =>
        refine ⟨update_of_ne (Ne.symm different) _ _, ?_⟩
        split
        · rw [acksOf_snoc, if_neg different, append_nil]
        · rfl

theorem onDone_direct (accounts : Accounts E) (call : Nat) (err : List E) :
    (accounts.onDone err (.direct call)).refs call = accounts.refs call ∧
      (accounts.onDone err (.direct call)).acksOf call = accounts.acksOf call ++ [err] := by
  refine ⟨rfl, ?_⟩
  rw [Accounts.onDone, acksOf_snoc, if_pos rfl]

theorem onDone_counted {rcd : RefCount E} (found : accounts.refs call = some rcd) (err : List E) :
    (accounts.onDone err (.counted call)).refs call = some (rcd.onDone err) ∧
      (accounts.onDone err (.counted call)).acksOf call =
        accounts.acksOf call ++ if rcd.refCount = 1 then [rcd.err ++ err] else [] := by
  simp only [Accounts.onDone, found]
  refine ⟨update_self _ _ _, ?_⟩
  by_cases last : rcd.refCount = 1
  · have zero : (rcd.onDone err).refCount = 0 := by
      rw [RefCount.onDone, last]
      rfl
    rw [if_pos zero, acksOf_snoc, if_pos rfl, if_pos last]
    rfl
  · have more : ¬ (rcd.onDone err).refCount = 0 := by
      simp only [RefCount.onDone]
      omega
    rw [if_neg more, if_neg last, append_nil]
    rfl

theorem consumed_other (accounts : Accounts E) (consumed : Consumed Req E) (different : call ≠ other) :
    (accounts.consumed call consumed).refs other = accounts.refs other ∧
      (accounts.consumed call consumed).acksOf other = accounts.acksOf other := by
  refine ⟨update_of_ne (Ne.symm different) _ _, ?_⟩
  cases acked : consumed.acked with
  | none => simp [Accounts.consumed, Accounts.acksOf, acked]
  | some err => simp [Accounts.consumed, Accounts.acksOf, acked, different]

theorem consumed_same (accounts : Accounts E) (call : Nat) (consumed : Consumed Req E) :
    (accounts.consumed call consumed).refs call = consumed.refCount ∧
      (accounts.consumed call consumed).acksOf call = accounts.acksOf call ++ consumed.acked.toList := by
  refine ⟨update_self _ _ _, ?_⟩
  cases acked : consumed.acked with
  | none | some => simp [Accounts.consumed, Accounts.acksOf, acked]

variable {entry : Section Req E}

theorem Settles.congr {after : Accounts E} {owed : Nat}
    (settles : Settles accounts owed entry) (refs : after.refs entry.call = accounts.refs entry.call)
    (acks : after.acksOf entry.call = accounts.acksOf entry.call) : Settles after owed entry := by
  cases settles with
  | refused nothing uncounted acked => exact .refused nothing (refs.trans uncounted) (acks.trans acked)
  | «open» one direct clean uncounted unacked =>
    exact .open one direct clean (refs.trans uncounted) (acks.trans unacked)
  | closed nothing err clean uncounted acked =>
    exact .closed nothing err clean (refs.trans uncounted) (acks.trans acked)
  | counted rcd counts found same told acked =>
    exact .counted rcd counts (refs.trans found) same told (acks.trans acked)

theorem told_congr {after : Accounts E} (refs : after.refs call = accounts.refs call)
    (acks : after.acksOf call = accounts.acksOf call) : after.told call = accounts.told call := by
  rw [Accounts.told, Accounts.told, refs, acks]

theorem Settles.answered (settles : Settles accounts 0 entry) :
    accounts.acksOf entry.call = [accounts.told entry.call] ∧ entry.answer.err ⊆ accounts.told entry.call := by
  cases settles with
  | refused _ uncounted acked => simp [Accounts.told, uncounted, acked]
  | «open» one => cases one
  | closed _ err clean uncounted acked => simp [Accounts.told, uncounted, acked, clean]
  | counted rcd _ found _ told acked =>
    simp only [Accounts.told, found, acked]
    exact ⟨rfl, told⟩

theorem Settles.unanswered {owed : Nat} (settles : Settles accounts owed entry)
    (some : owed ≠ 0) : accounts.acksOf entry.call = [] := by
  cases settles with
  | refused nothing | closed nothing => exact absurd nothing some
  | «open» _ _ _ _ unacked => exact unacked
  | counted rcd _ _ _ _ acked => rw [acked, if_neg some]

theorem Settles.tell {owed : Nat} (settles : Settles accounts (owed + 1) entry) (err : List E) :
    Settles (accounts.onDone err entry.done) owed entry ∧ err ⊆ (accounts.onDone err entry.done).told entry.call ∧
      accounts.told entry.call ⊆ (accounts.onDone err entry.done).told entry.call := by
  cases settles with
  | refused nothing | closed nothing => cases nothing
  | «open» one direct clean uncounted unacked =>
    obtain ⟨refs, acks⟩ := onDone_direct accounts entry.call err
    rw [uncounted] at refs
    rw [unacked] at acks
    rw [direct]
    refine ⟨.closed (by omega) err clean refs acks, ?_, ?_⟩
    · simp [Accounts.told, refs, acks]
    · simp [Accounts.told, uncounted, unacked]
  | counted rcd counts found same told acked =>
    obtain ⟨refs, acks⟩ := onDone_counted found err
    rw [acked, if_neg (Nat.succ_ne_zero owed), nil_append] at acks
    rw [counts]
    refine ⟨.counted (rcd.onDone err) counts refs ?_ ?_ ?_, ?_, ?_⟩
    · simp only [RefCount.onDone, same]
      omega
    · exact fun cause member => mem_append_left _ (told member)
    · rw [acks]
      by_cases last : owed = 0
      · rw [if_pos last, if_pos (by omega)]
        rfl
      · rw [if_neg last, if_neg (by omega)]
    · simp only [Accounts.told, refs]
      exact subset_append_right _ _
    · simp only [Accounts.told, refs, found]
      exact subset_append_left _ _

end accounts

section balance
variable {kind : RequestKind Req E} {cfg : BatchConfig} {brings : Nat → Req → Prop} {l after : Ledger Req E}

theorem Section.done_call (entry : Section Req E) : entry.done.call = entry.call :=
  wrapDone_call _ _ _

variable {batch : Batch Req}

theorem owed_take (current : l.current = some batch) :
    Ledger.owed { l with current := none, live := batch ::ₘ l.live } = l.owed := by
  simp only [Ledger.owed, current, toList_none, toList_some, flatMap_nil,
    flatMap_singleton, Multiset.cons_bind, Multiset.coe_nil, zero_add]

theorem owed_finish (err : List E) {rest : Multiset (Batch Req)} (live : l.live = batch ::ₘ rest) :
    (l.finish batch err rest).owed = l.owed := by
  simp only [Ledger.finish, Ledger.owed, live, Multiset.cons_bind, Multiset.map_add, Multiset.map_map, comp_def, Multiset.map_id']
  abel

theorem owed_tell {err : List E} {done : Done} {rest : Multiset (List E × Done)}
    (telling : l.telling = (err, done) ::ₘ rest) (accounts : Accounts E) :
    l.owed = done ::ₘ Ledger.owed { l with telling := rest, accounts := accounts } := by
  simp only [Ledger.owed, telling, Multiset.map_cons, Multiset.add_cons]

theorem owed_consume (kind : RequestKind Req E) (cfg : BatchConfig) (l : Ledger Req E) (call : Nat) (req : Req) :
    (l.consume kind cfg call req).owed =
      l.owed + Multiset.replicate (mergeSplitWith kind cfg l.current req).reqList.length
        (Section.done (entering kind cfg l.current call req)) := by
  have listed := consumeInternal_done kind cfg l.current call req
  simp only [flatMap_append] at listed
  have added := congrArg (fun dones : List Done => (dones : Multiset Done)) listed
  simp only [← Multiset.coe_add, Multiset.coe_replicate] at added
  have flushed (batches : List (Batch Req)) : (batches : Multiset (Batch Req)).bind
      (fun batch => (batch.done : Multiset Done)) = (batches.flatMap Batch.done : Multiset Done) :=
    Multiset.coe_bind _ _
  simp only [Ledger.consume, Ledger.owed, Multiset.add_bind, flushed, Section.done]
  rw [add_comm] at added
  calc
    _ = l.live.bind (fun batch => (batch.done : Multiset Done)) + l.telling.map Prod.snd +
        (((consumeInternal kind cfg l.current call req).currentBatch.toList.flatMap Batch.done : Multiset Done) +
          ((consumeInternal kind cfg l.current call req).flushes.flatMap Batch.done : Multiset Done)) := by abel
    _ = _ := by
      rw [added]
      abel

theorem Ledger.Balanced.entry_eq (balanced : l.Balanced) {first second : Section Req E}
    (inside : first ∈ l.sections) (also : second ∈ l.sections) (same : first.call = second.call) :
    first = second :=
  inj_on_of_nodup_map balanced.distinct inside also same

theorem live_owed {done : Done} (inside : batch ∈ l.live) (member : done ∈ batch.done) : done ∈ l.owed := by
  have bound : done ∈ l.live.bind fun batch => (batch.done : Multiset Done) :=
    Multiset.mem_bind.mpr ⟨batch, inside, member⟩
  simp [Ledger.owed, bound]

theorem settles_consumed {accounts : Accounts E} {currentBatch : Option (Batch Req)} {call : Nat} {req : Req}
    (unacked : accounts.acksOf call = []) :
    Settles (accounts.consumed call (consumeInternal kind cfg currentBatch call req))
      (mergeSplitWith kind cfg currentBatch req).reqList.length
      (entering kind cfg currentBatch call req) := by
  have spec := consumeInternal_spec kind cfg currentBatch call req
  obtain ⟨refs, acks⟩ := consumed_same accounts call (consumeInternal kind cfg currentBatch call req)
  simp only at spec
  rw [unacked, nil_append] at acks
  split at spec
  · next none =>
      rw [spec.refCount] at refs
      rw [spec.acked] at acks
      exact .refused (length_eq_zero_iff.mpr none) refs acks
  · next some =>
      rw [spec.refCount, wrapDone_eq] at refs
      rw [spec.acked] at acks
      have positive := length_pos_iff.mpr some
      by_cases many : (mergeSplitWith kind cfg currentBatch req).reqList.length +
          (if (mergeSplitWith kind cfg currentBatch req).err.isEmpty then 0 else 1) > 1
      · rw [if_pos many] at refs
        refine .counted _ ?_ refs rfl (List.Subset.refl _) ?_
        · rw [Section.done, entering, wrapDone_eq, if_pos many]
        · rw [if_neg (by omega)]
          exact acks
      · rw [if_neg many] at refs
        have clean : (mergeSplitWith kind cfg currentBatch req).err = [] := by
          by_contra error
          rw [if_neg (by simpa using error)] at many
          omega
        refine .open (by omega) ?_ clean refs acks
        rw [Section.done, entering, wrapDone_eq, if_neg many]

theorem Ledger.Balanced.consume (balanced : l.Balanced) {call : Nat} {req : Req}
    (fresh : ∀ entry ∈ l.sections, entry.call ≠ call) :
    (l.consume kind cfg call req).Balanced := by
  have owed := owed_consume kind cfg l call req
  have unacked := balanced.unknown call fresh
  have unowed : l.owed.count (Section.done (entering kind cfg l.current call req)) = 0 := by
    rw [Multiset.count_eq_zero]
    intro member
    obtain ⟨entry, inside, same⟩ := balanced.known _ member
    apply fresh entry inside
    rw [← entry.done_call, ← same, Section.done_call]
    rfl
  refine ⟨?_, ?_, ?_, ?_, ?_, ?_⟩
  · simp only [Ledger.consume]
    rw [map_append, map_singleton, nodup_append]
    refine ⟨balanced.distinct, nodup_singleton _, ?_⟩
    rintro first inside second single rfl
    obtain ⟨entry, member, rfl⟩ := mem_map.mp inside
    exact fresh entry member (mem_singleton.mp single)
  · intro done member
    rw [owed] at member
    rcases Multiset.mem_add.mp member with before | new
    · obtain ⟨entry, inside, same⟩ := balanced.known done before
      exact ⟨entry, mem_append_left _ inside, same⟩
    · exact ⟨_, mem_append_right _ (mem_singleton_self _), Multiset.eq_of_mem_replicate new⟩
  · intro entry inside
    rw [owed, Multiset.count_add]
    rcases mem_append.mp inside with before | new
    · have different : call ≠ entry.call := Ne.symm (fresh entry before)
      obtain ⟨refs, acks⟩ := consumed_other l.accounts (consumeInternal kind cfg l.current call req) different
      have none : Multiset.count entry.done
          (Multiset.replicate (mergeSplitWith kind cfg l.current req).reqList.length
            (Section.done (entering kind cfg l.current call req))) = 0 := by
        rw [Multiset.count_eq_zero]
        intro member
        have same := congrArg Done.call (Multiset.eq_of_mem_replicate member)
        rw [Section.done_call, Section.done_call] at same
        exact different same.symm
      rw [none, Nat.add_zero]
      exact (balanced.settles entry before).congr refs acks
    · rw [mem_singleton.mp new, unowed, Multiset.count_replicate_self, Nat.zero_add]
      exact settles_consumed unacked
  · intro other unknown
    have different : call ≠ other := unknown _ (mem_append_right _ (mem_singleton_self _))
    refine (consumed_other _ _ different).2.trans (balanced.unknown other fun entry inside => ?_)
    exact unknown entry (mem_append_left _ inside)
  · intro ended member done inside
    obtain ⟨entry, known, same⟩ := balanced.attributed ended member done inside
    exact ⟨entry, mem_append_left _ known, same⟩
  · intro ended member done inside
    rcases balanced.covered ended member done inside with telling | told
    · exact .inl telling
    · obtain ⟨entry, known, same⟩ := balanced.attributed ended member done inside
      obtain ⟨refs, acks⟩ := consumed_other l.accounts (consumeInternal kind cfg l.current call req)
        (Ne.symm (fresh entry known))
      rw [same] at refs acks
      exact .inr ((told_congr refs acks).symm ▸ told)

theorem Ledger.Balanced.finish (balanced : l.Balanced) {batch : Batch Req} {rest : Multiset (Batch Req)}
    (err : List E) (live : l.live = batch ::ₘ rest) : (l.finish batch err rest).Balanced := by
  have owed := owed_finish err live
  have inside : batch ∈ l.live := by simp [live]
  refine ⟨balanced.distinct, ?_, ?_, balanced.unknown, ?_, ?_⟩
  · rw [owed]
    exact balanced.known
  · rw [owed]
    exact balanced.settles
  · intro ended member done listed
    rcases mem_append.mp member with before | new
    · exact balanced.attributed ended before done listed
    · rw [mem_singleton.mp new] at listed
      obtain ⟨entry, known, rfl⟩ := balanced.known done (live_owed inside listed)
      exact ⟨entry, known, entry.done_call.symm⟩
  · intro ended member done listed
    rcases mem_append.mp member with before | new
    · rcases balanced.covered ended before done listed with telling | told
      · exact .inl (Multiset.mem_add.mpr (.inl telling))
      · exact .inr told
    · rw [mem_singleton.mp new] at listed ⊢
      exact .inl (Multiset.mem_add.mpr (.inr (Multiset.mem_map_of_mem _ listed)))

theorem Ledger.Balanced.tell (balanced : l.Balanced) {err : List E} {done : Done}
    {rest : Multiset (List E × Done)} (telling : l.telling = (err, done) ::ₘ rest) :
    Ledger.Balanced { l with telling := rest, accounts := l.accounts.onDone err done } := by
  have owed := owed_tell telling (l.accounts.onDone err done)
  obtain ⟨entry, known, rfl⟩ := balanced.known done (by simp [owed])
  have settles := balanced.settles entry known
  rw [owed, Multiset.count_cons_self] at settles
  obtain ⟨settled, told, kept⟩ := settles.tell err
  have others {other : Nat} (different : entry.call ≠ other) :=
    onDone_other l.accounts err entry.done (entry.done_call.symm ▸ different)
  refine ⟨balanced.distinct, ?_, ?_, ?_, balanced.attributed, ?_⟩
  · intro done member
    exact balanced.known done (owed ▸ Multiset.mem_cons_of_mem member)
  · intro other inside
    by_cases same : entry.call = other.call
    · obtain rfl := balanced.entry_eq known inside same
      exact settled
    · have different : other.done ≠ entry.done := by
        intro equal
        apply same
        rw [← entry.done_call, ← equal, other.done_call]
      have before := balanced.settles other inside
      rw [owed, Multiset.count_cons_of_ne different] at before
      exact before.congr (others same).1 (others same).2
  · intro other unknown
    rw [(others (unknown entry known)).2]
    exact balanced.unknown other unknown
  · intro ended member done listed
    by_cases same : entry.call = done.call
    · rcases balanced.covered ended member done listed with waiting | before
      · rw [telling] at waiting
        rcases Multiset.mem_cons.mp waiting with equal | later
        · right
          rw [← same, (Prod.mk.inj equal).1]
          exact told
        · exact .inl later
      · right
        rw [← same] at before ⊢
        exact fun cause found => kept (before found)
    · rcases balanced.covered ended member done listed with waiting | before
      · rw [telling] at waiting
        rcases Multiset.mem_cons.mp waiting with equal | later
        · exact absurd (congrArg Done.call (Prod.mk.inj equal).2) (by rw [entry.done_call]; exact Ne.symm same)
        · exact .inl later
      · right
        rw [told_congr (others same).1 (others same).2]
        exact before

theorem LedgerStep.sections (step : LedgerStep kind cfg brings l after) : l.sections <+: after.sections := by
  cases step with
  | consume => exact prefix_append _ _
  | take | finish | tell => exact prefix_rfl

theorem LedgerStep.balanced (step : LedgerStep kind cfg brings l after) (balanced : l.Balanced) :
    after.Balanced := by
  cases step with
  | consume call req brought fresh => exact balanced.consume fresh
  | take batch current =>
    have owed := owed_take current
    refine { balanced with known := ?_, settles := ?_ }
    · rw [owed]
      exact balanced.known
    · rw [owed]
      exact balanced.settles
  | finish batch err rest live => exact balanced.finish err live
  | tell err done rest telling => exact balanced.tell telling

end balance

def Ledger.Holds (l : Ledger Req E) (batch : Batch Req) : Prop :=
  l.current = some batch ∨ batch ∈ l.live ∨ ∃ err, (batch, err) ∈ l.finished

/-- Every item is in a batch that tells the call it came with. -/
structure Ledger.Carries {β : Type} (kind : RequestKind Req E) (cfg : BatchConfig) (data : Req → List β)
    (owner : β → Nat) (l : Ledger Req E) : Prop where
  small : ∀ batch, l.current = some batch → kind.sizeof cfg.sizer batch.req < cfg.minSize
  owned : ∀ batch, l.Holds batch → ∀ item ∈ data batch.req, ∃ done ∈ batch.done, done.call = owner item
  kept : ∀ entry ∈ l.sections, entry.answer.err = [] → ∀ item ∈ data entry.req,
    ∃ batch, l.Holds batch ∧ item ∈ data batch.req

section carries
variable {β : Type} {kind : RequestKind Req E} {cfg : BatchConfig} {data : Req → List β} {owner : β → Nat}
  {currentBatch : Option (Batch Req)} {call : Nat} {req : Req} {l after : Ledger Req E}
  (contract : Contract kind cfg data) (valid : cfg.validate = none)

section placed
variable (small : ∀ batch, currentBatch = some batch → kind.sizeof cfg.sizer batch.req < cfg.minSize)
include contract valid small

theorem Contract.parts {first : Req} {rest : List Req}
    (came : (mergeSplitWith kind cfg currentBatch req).reqList = first :: rest) :
    ∃ more, data first = currentBatch.elim [] (fun current => data current.req) ++ more ∧
      (more ++ rest.flatMap data).Sublist (data req) := by
  cases currentBatch with
  | none =>
    have sublist := contract.sublist req none
    rw [mergeSplitWith] at came
    rw [came, flatMap_cons, elim_none, append_nil] at sublist
    exact ⟨data first, rfl, sublist⟩
  | some current =>
    have sublist := contract.sublist current.req (some req)
    rw [mergeSplitWith] at came
    have fits : cfg.maxSize = 0 ∨ kind.sizeof cfg.sizer current.req ≤ cfg.maxSize := by
      have less := small current rfl
      have sizes := validate_sizes valid
      omega
    obtain ⟨more, same⟩ := contract.first current.req (some req) first rest fits came
    refine ⟨more, same.symm, ?_⟩
    rw [came, flatMap_cons, ← same, append_assoc, elim_some] at sublist
    exact (append_sublist_append_left _).mp sublist

theorem placed_owned (owned : ∀ batch, currentBatch = some batch → ∀ item ∈ data batch.req,
      ∃ done ∈ batch.done, done.call = owner item)
    (brought : ∀ item ∈ data req, owner item = call) {done : Done} (own : done.call = call) :
    ∀ batch ∈ placed currentBatch done (mergeSplitWith kind cfg currentBatch req).reqList,
      ∀ item ∈ data batch.req, ∃ done ∈ batch.done, done.call = owner item := by
  intro batch member item inside
  cases came : (mergeSplitWith kind cfg currentBatch req).reqList with
  | nil =>
    rw [came] at member
    cases member
  | cons first rest =>
    obtain ⟨more, same, sublist⟩ := contract.parts valid small came
    rw [came, placed] at member
    rcases mem_cons.mp member with rfl | later
    · simp only [same, mem_append] at inside
      rcases inside with before | new
      · cases currentBatch with
        | none => cases before
        | some current =>
          obtain ⟨told, listed, same⟩ := owned current rfl item before
          exact ⟨told, mem_append_left _ listed, same⟩
      · refine ⟨done, mem_append_right _ (mem_singleton_self done), ?_⟩
        rw [brought item (sublist.subset (mem_append_left _ new)), own]
    · obtain ⟨result, listed, rfl⟩ := mem_map.mp later
      refine ⟨done, mem_singleton_self done, ?_⟩
      have new : item ∈ rest.flatMap data := mem_flatMap.mpr ⟨result, listed, inside⟩
      rw [brought item (sublist.subset (mem_append_right _ new)), own]

theorem placed_keeps_current (some : (mergeSplitWith kind cfg currentBatch req).reqList ≠ []) (done : Done) {batch : Batch Req}
    (current : currentBatch = Option.some batch) {item : β} (inside : item ∈ data batch.req) :
    ∃ batch ∈ placed currentBatch done (mergeSplitWith kind cfg currentBatch req).reqList, item ∈ data batch.req := by
  cases came : (mergeSplitWith kind cfg currentBatch req).reqList with
  | nil => exact absurd came some
  | cons first rest =>
    obtain ⟨more, same, _⟩ := contract.parts valid small came
    refine ⟨_, mem_cons_self, ?_⟩
    rw [same, current]
    exact mem_append_left _ inside

end placed

include contract in
theorem placed_keeps_new (done : Done)
    (clean : (mergeSplitWith kind cfg currentBatch req).err = []) {item : β} (inside : item ∈ data req) :
    ∃ batch ∈ placed currentBatch done (mergeSplitWith kind cfg currentBatch req).reqList, item ∈ data batch.req := by
  have whole : item ∈ (mergeSplitWith kind cfg currentBatch req).reqList.flatMap data := by
    cases currentBatch with
    | none =>
      rw [mergeSplitWith, contract.complete req none clean]
      exact mem_append_left _ inside
    | some current =>
      rw [mergeSplitWith, contract.complete current.req (some req) clean]
      exact mem_append_right _ inside
  obtain ⟨result, listed, found⟩ := mem_flatMap.mp whole
  cases came : (mergeSplitWith kind cfg currentBatch req).reqList with
  | nil =>
    rw [came] at listed
    cases listed
  | cons first rest =>
    rw [came] at listed
    rcases mem_cons.mp listed with rfl | later
    · exact ⟨_, mem_cons_self, found⟩
    · exact ⟨⟨result, [done]⟩, mem_cons_of_mem _ (mem_map_of_mem later), found⟩

include contract valid in
theorem Ledger.Carries.consume (carries : l.Carries kind cfg data owner) (brought : ∀ item ∈ data req, owner item = call)
    (unstuck : ¬ (entering kind cfg l.current call req).Stuck) :
    (l.consume kind cfg call req).Carries kind cfg data owner := by
  have spec := consumeInternal_spec kind cfg l.current call req
  have held {batch : Batch Req} (placed : (l.consume kind cfg call req).current = some batch ∨
      batch ∈ (consumeInternal kind cfg l.current call req).flushes) : (l.consume kind cfg call req).Holds batch :=
    placed.imp_right fun flushed => .inl (Multiset.mem_add.mpr (.inr flushed))
  simp only at spec
  split at spec
  · next none =>
      have unchanged : (consumeInternal kind cfg l.current call req).currentBatch = l.current := by
        rw [spec.current]
        cases current : l.current with
        | none => rfl
        | some batch =>
          rw [current] at none unstuck
          rw [map_some]
          by_contra different
          refine unstuck ⟨none, batch.req, rfl, fun same => different ?_⟩
          rw [show (mergeSplitWith kind cfg (some batch) req).receiver = batch.req from same]
      simp only [Ledger.consume, unchanged, spec.flushes, Multiset.coe_nil, add_zero]
      refine ⟨carries.small, carries.owned, ?_⟩
      intro entry member clean item inside
      rcases mem_append.mp member with before | new
      · exact carries.kept entry before clean item inside
      · rw [mem_singleton.mp new] at clean inside
        obtain ⟨batch, listed, _⟩ := placed_keeps_new contract (.direct call) clean inside
        rw [none] at listed
        cases listed
  · next came =>
      refine ⟨spec.small, ?_, ?_⟩
      · intro batch holds
        have old (live : batch ∈ l.live ∨ ∃ err, (batch, err) ∈ l.finished) := carries.owned batch (.inr live)
        have new := placed_owned contract valid carries.small
          (fun current same => carries.owned current (.inl same)) brought
          (Section.done_call (entering kind cfg l.current call req)) batch
        rcases holds with current | live | finished
        · exact new ((spec.mem batch).mp (.inl current))
        · rcases Multiset.mem_add.mp live with before | flushed
          · exact old (.inl before)
          · exact new ((spec.mem batch).mp (.inr flushed))
        · exact old (.inr finished)
      · intro entry member clean item inside
        rcases mem_append.mp member with before | new
        · obtain ⟨batch, holds, found⟩ := carries.kept entry before clean item inside
          rcases holds with current | live | finished
          · obtain ⟨batch, listed, found⟩ :=
              placed_keeps_current contract valid carries.small came _ current found
            exact ⟨batch, held ((spec.mem batch).mpr listed), found⟩
          · exact ⟨batch, .inr (.inl (Multiset.mem_add.mpr (.inl live))), found⟩
          · exact ⟨batch, .inr (.inr finished), found⟩
        · rw [mem_singleton.mp new] at clean inside
          obtain ⟨batch, listed, found⟩ := placed_keeps_new contract _ clean inside
          exact ⟨batch, held ((spec.mem batch).mpr listed), found⟩

theorem Ledger.Carries.pass (carries : l.Carries kind cfg data owner)
    (current : ∀ batch, after.current = some batch → l.current = some batch)
    (holds : ∀ batch, after.Holds batch ↔ l.Holds batch) (sections : after.sections = l.sections) :
    after.Carries kind cfg data owner := by
  refine ⟨fun batch same => carries.small batch (current batch same), ?_, ?_⟩
  · intro batch held
    exact carries.owned batch ((holds batch).mp held)
  · rw [sections]
    intro entry member clean item inside
    obtain ⟨batch, held, found⟩ := carries.kept entry member clean item inside
    exact ⟨batch, (holds batch).mpr held, found⟩

theorem Ledger.holds_take {batch taken : Batch Req} (current : l.current = some taken) :
    Ledger.Holds { l with current := none, live := taken ::ₘ l.live } batch ↔ l.Holds batch := by
  simp only [Ledger.Holds, current, Multiset.mem_cons, Option.some.injEq, reduceCtorEq, false_or]
  tauto

theorem Ledger.holds_finish {batch ended : Batch Req} {rest : Multiset (Batch Req)} (err : List E)
    (live : l.live = ended ::ₘ rest) : (l.finish ended err rest).Holds batch ↔ l.Holds batch := by
  simp only [Ledger.finish, Ledger.Holds, live, Multiset.mem_cons, mem_append, mem_singleton, Prod.mk.injEq,
    exists_or, exists_and_left, exists_eq, and_true]
  tauto

theorem LedgerStep.carries (step : LedgerStep kind cfg (fun call req => ∀ item ∈ data req, owner item = call) l after)
    (contract : Contract kind cfg data) (valid : cfg.validate = none) (clear : ∀ entry ∈ after.sections, ¬ entry.Stuck)
    (carries : l.Carries kind cfg data owner) : after.Carries kind cfg data owner := by
  cases step with
  | consume call req brought fresh =>
    exact carries.consume contract valid brought (clear _ (mem_append_right _ (mem_singleton_self _)))
  | take taken current => exact carries.pass (by simp) (fun batch => Ledger.holds_take current) rfl
  | finish ended err rest live =>
    exact carries.pass (fun batch same => same) (fun batch => Ledger.holds_finish err live) rfl
  | tell err done rest telling => exact carries.pass (fun batch same => same) (fun batch => Iff.rfl) rfl

end carries

end CollectorFormal.Batcher
