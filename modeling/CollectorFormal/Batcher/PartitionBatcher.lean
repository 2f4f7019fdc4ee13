import Mathlib.Algebra.Order.Ring.Int
import Mathlib.Data.List.Induction
import Mathlib.Logic.Function.Basic
import CollectorFormal.Request

/-! The batcher of a partition: its configuration and what it does under its lock.

An error is the list of its causes, as multierr joins them, and nil is the empty list. Nothing depends on the
contexts, which are left out. -/

namespace CollectorFormal.Batcher

open List Option

structure BatchConfig where
  flushTimeout : Int
  sizer : SizerType
  minSize : Int
  maxSize : Int

inductive BatchConfigError where
  /-- "batch supports only items or bytes sizer, found ..." -/
  | sizer (found : SizerType)
  /-- "flush_timeout must be positive, found ..." -/
  | flushTimeout (found : Int)
  /-- "min_size must be non-negative, found ..." -/
  | minSize (found : Int)
  /-- "max_size must be non-negative, found ..." -/
  | maxSize (found : Int)
  /-- "max_size (...) must be greater or equal to min_size (...)" -/
  | maxBelowMin (maxSize minSize : Int)
  deriving DecidableEq

def BatchConfig.validate (cfg : BatchConfig) : Option BatchConfigError :=
  if cfg.sizer ≠ .items ∧ cfg.sizer ≠ .bytes then some (.sizer cfg.sizer)
  else if cfg.flushTimeout ≤ 0 then some (.flushTimeout cfg.flushTimeout)
  else if cfg.minSize < 0 then some (.minSize cfg.minSize)
  else if cfg.maxSize < 0 then some (.maxSize cfg.maxSize)
  else if cfg.maxSize > 0 ∧ cfg.maxSize < cfg.minSize then some (.maxBelowMin cfg.maxSize cfg.minSize)
  else none

variable {Req E : Type}

/-- What MergeSplit returns, and what it leaves of the request it is called on. -/
structure Merged (Req E : Type) where
  reqList : List Req
  err : List E
  receiver : Req
  deriving DecidableEq

structure RequestKind (Req E : Type) where
  sizeof : SizerType → Req → Int
  mergeSplit : Int → SizerType → Req → Option Req → Merged Req E

/-- The Done of a call of Consume, or the refCountDone made of it. -/
inductive Done where
  | direct (call : Nat)
  | counted (call : Nat)
  deriving DecidableEq

def Done.call : Done → Nat
  | .direct call => call
  | .counted call => call

structure RefCount (E : Type) where
  refCount : Int
  err : List E
  deriving DecidableEq

def RefCount.onDone (err : List E) (rcd : RefCount E) : RefCount E where
  refCount := rcd.refCount - 1
  err := rcd.err ++ err

/-- What has become of the Dones: the refCountDone of a call, and the calls of OnDone on
what was passed to Consume. -/
structure Accounts (E : Type) where
  refs : Nat → Option (RefCount E) := fun _ => none
  acks : List (Nat × List E) := []

/-- OnDone of a Done or of a refCountDone. -/
def Accounts.onDone (err : List E) (accounts : Accounts E) : Done → Accounts E
  | .direct call => { accounts with acks := accounts.acks ++ [(call, err)] }
  | .counted call =>
    match accounts.refs call with
    | none => accounts
    | some rcd =>
      let rcd := rcd.onDone err
      { refs := Function.update accounts.refs call (some rcd)
        acks := if rcd.refCount = 0 then accounts.acks ++ [(call, rcd.err)] else accounts.acks }

structure Batch (Req : Type) where
  req : Req
  done : List Done
  deriving DecidableEq

/-- What a call of Consume does under the lock. -/
structure Consumed (Req E : Type) where
  currentBatch : Option (Batch Req)
  /-- What is given to flush afterwards, in order. -/
  flushes : List (Batch Req) := []
  /-- The error that Done is called with right away. -/
  acked : Option (List E) := none
  refCount : Option (RefCount E) := none
  deriving DecidableEq

def Accounts.consumed (call : Nat) (consumed : Consumed Req E) (accounts : Accounts E) : Accounts E where
  refs := Function.update accounts.refs call consumed.refCount
  acks := accounts.acks ++ (consumed.acked.map fun err => (call, err)).toList

section definitions
variable (kind : RequestKind Req E) (cfg : BatchConfig)

/-- The Done that goes with the requests that came back, and its counter. An error of MergeSplit counts as one more.
-/
def wrapDone (call : Nat) (reqList : List Req) (err : List E) : Done × Option (RefCount E) :=
  let numRefs := reqList.length + if err.isEmpty then 0 else 1
  if numRefs > 1 then
    let rcd : RefCount E := ⟨numRefs, []⟩
    (.counted call, some (if err.isEmpty then rcd else rcd.onDone err))
  else (.direct call, none)

/-- The last request is not flushed while it is below the minimum: it is the next batch. -/
def keepLast (done : Done) (reqList : List Req) : List (Batch Req) × Option (Batch Req) :=
  match reqList.getLast? with
  | some lastReq =>
    if kind.sizeof cfg.sizer lastReq < cfg.minSize then
      (reqList.dropLast.map (⟨·, [done]⟩), some ⟨lastReq, [done]⟩)
    else (reqList.map (⟨·, [done]⟩), none)
  | none => ([], none)

/-- consumeInternal without a current batch. -/
def consumeFirst (call : Nat) (req : Req) : Consumed Req E :=
  let r := kind.mergeSplit cfg.maxSize cfg.sizer req none
  if r.reqList.isEmpty then { currentBatch := none, acked := some r.err }
  else
    let done := wrapDone call r.reqList r.err
    let last := keepLast kind cfg done.1 r.reqList
    { currentBatch := last.2, flushes := last.1, refCount := done.2 }

/-- consumeInternal with a current batch. -/
def consumeMerge (current : Batch Req) (call : Nat) (req : Req) : Consumed Req E :=
  let r := kind.mergeSplit cfg.maxSize cfg.sizer current.req (some req)
  match r.reqList with
  -- the current batch is what MergeSplit made of it
  | [] => { currentBatch := some { current with req := r.receiver }, acked := some r.err }
  | first :: rest =>
    let done := wrapDone call (first :: rest) r.err
    let merged : Batch Req := ⟨first, current.done ++ [done.1]⟩
    if rest.length > 0 ∨ kind.sizeof cfg.sizer first ≥ cfg.minSize then
      let last := keepLast kind cfg done.1 rest
      { currentBatch := last.2, flushes := merged :: last.1, refCount := done.2 }
    else { currentBatch := some merged, refCount := done.2 }

def consumeInternal (currentBatch : Option (Batch Req)) (call : Nat) (req : Req) : Consumed Req E :=
  match currentBatch with
  | none => consumeFirst kind cfg call req
  | some current => consumeMerge kind cfg current call req

def mergeSplitWith (currentBatch : Option (Batch Req)) (req : Req) : Merged Req E :=
  match currentBatch with
  | none => kind.mergeSplit cfg.maxSize cfg.sizer req none
  | some current => kind.mergeSplit cfg.maxSize cfg.sizer current.req (some req)

end definitions

/-- What is asked of MergeSplit: the data come back in order, those of its receiver first and within one request if
they fit, and some may be missing only with an error. -/
structure Contract {β : Type} (kind : RequestKind Req E) (cfg : BatchConfig) (data : Req → List β) : Prop where
  sublist : ∀ req r2, ((kind.mergeSplit cfg.maxSize cfg.sizer req r2).reqList.flatMap data).Sublist
    (data req ++ r2.elim [] data)
  complete : ∀ req r2, (kind.mergeSplit cfg.maxSize cfg.sizer req r2).err = [] →
    (kind.mergeSplit cfg.maxSize cfg.sizer req r2).reqList.flatMap data = data req ++ r2.elim [] data
  first : ∀ req r2 first rest, cfg.maxSize = 0 ∨ kind.sizeof cfg.sizer req ≤ cfg.maxSize →
    (kind.mergeSplit cfg.maxSize cfg.sizer req r2).reqList = first :: rest → data req <+: data first

/-- The batches of the requests that came back: the first one is the current batch's. -/
def placed (currentBatch : Option (Batch Req)) (done : Done) : List Req → List (Batch Req)
  | [] => []
  | first :: rest => ⟨first, (currentBatch.elim [] Batch.done) ++ [done]⟩ :: rest.map (⟨·, [done]⟩)

section specification
variable {kind : RequestKind Req E} {cfg : BatchConfig} {currentBatch : Option (Batch Req)} {call : Nat} {req : Req}

theorem placed_done (done : Done) {reqList : List Req} (some : reqList ≠ []) :
    (placed currentBatch done reqList).flatMap Batch.done =
      currentBatch.toList.flatMap Batch.done ++ List.replicate reqList.length done := by
  have alone (others : List Req) : (others.map fun req => (⟨req, [done]⟩ : Batch Req)).flatMap Batch.done =
      List.replicate others.length done := by
    induction others with
    | nil => rfl
    | cons req others ih => rw [map_cons, flatMap_cons, ih, length_cons, replicate_succ, singleton_append]
  cases reqList with
  | nil => exact absurd rfl some
  | cons first rest =>
    rw [placed, flatMap_cons, alone, length_cons, replicate_succ, append_assoc, singleton_append]
    cases currentBatch with
    | none => rfl
    | some current => rw [toList_some, flatMap_singleton, elim_some]

theorem validate_sizes (valid : cfg.validate = none) :
    0 ≤ cfg.minSize ∧ 0 ≤ cfg.maxSize ∧ (0 < cfg.maxSize → cfg.minSize ≤ cfg.maxSize) := by
  unfold BatchConfig.validate at valid
  grind

theorem wrapDone_eq (call : Nat) (reqList : List Req) (err : List E) :
    wrapDone call reqList err =
      if reqList.length + (if err.isEmpty then 0 else 1) > 1 then
        (.counted call, some ⟨reqList.length, err⟩)
      else (.direct call, none) := by
  unfold wrapDone
  cases err with
  | nil => rfl
  | cons cause more =>
    simp only [isEmpty_cons, Bool.false_eq_true, if_false, RefCount.onDone, nil_append]
    split
    · simp
    · rfl

theorem wrapDone_call (call : Nat) (reqList : List Req) (err : List E) : (wrapDone call reqList err).1.call = call := by
  rw [wrapDone_eq, apply_ite Prod.fst, apply_ite Done.call]
  exact ite_self call

theorem keepLast_batches (done : Done) (reqList : List Req) :
    (keepLast kind cfg done reqList).1 ++ (keepLast kind cfg done reqList).2.toList = reqList.map (⟨·, [done]⟩) := by
  induction reqList using List.reverseRecOn with
  | nil => rfl
  | append_singleton front last _ =>
    simp only [keepLast, getLast?_concat, dropLast_concat]
    split <;> simp

theorem keepLast_small {done : Done} {reqList : List Req} {batch : Batch Req}
    (kept : (keepLast kind cfg done reqList).2 = some batch) :
    kind.sizeof cfg.sizer batch.req < cfg.minSize := by
  unfold keepLast at kept
  split at kept
  · split at kept
    · cases kept
      assumption
    · cases kept
  · cases kept

structure Refused (currentBatch : Option (Batch Req)) (r : Merged Req E) (consumed : Consumed Req E) :
    Prop where
  current : consumed.currentBatch = currentBatch.map fun current => { current with req := r.receiver }
  flushes : consumed.flushes = []
  acked : consumed.acked = some r.err
  refCount : consumed.refCount = none

structure Accepted (kind : RequestKind Req E) (cfg : BatchConfig) (currentBatch : Option (Batch Req))
    (call : Nat) (r : Merged Req E) (consumed : Consumed Req E) : Prop where
  batches : consumed.flushes ++ consumed.currentBatch.toList =
    placed currentBatch (wrapDone call r.reqList r.err).1 r.reqList
  small : ∀ batch, consumed.currentBatch = some batch → kind.sizeof cfg.sizer batch.req < cfg.minSize
  acked : consumed.acked = none
  refCount : consumed.refCount = (wrapDone call r.reqList r.err).2

theorem Accepted.mem {r : Merged Req E} {consumed : Consumed Req E}
    (accepted : Accepted kind cfg currentBatch call r consumed) (batch : Batch Req) :
    consumed.currentBatch = some batch ∨ batch ∈ consumed.flushes ↔
      batch ∈ placed currentBatch (wrapDone call r.reqList r.err).1 r.reqList := by
  rw [← accepted.batches, mem_append, mem_toList, or_comm]

theorem Accepted.result {r : Merged Req E} {consumed : Consumed Req E}
    (accepted : Accepted kind cfg currentBatch call r consumed) {batch : Batch Req}
    (inside : consumed.currentBatch = some batch ∨ batch ∈ consumed.flushes) : batch.req ∈ r.reqList := by
  have listed := (accepted.mem batch).mp inside
  generalize r.reqList = reqList at listed
  cases reqList with
  | nil => cases listed
  | cons first rest =>
    rcases mem_cons.mp listed with rfl | later
    · exact mem_cons_self
    · obtain ⟨result, member, rfl⟩ := mem_map.mp later
      exact mem_cons_of_mem _ member

theorem consumeInternal_spec (kind : RequestKind Req E) (cfg : BatchConfig)
    (currentBatch : Option (Batch Req)) (call : Nat) (req : Req) :
    let r := mergeSplitWith kind cfg currentBatch req
    let consumed := consumeInternal kind cfg currentBatch call req
    if r.reqList = [] then Refused currentBatch r consumed
    else Accepted kind cfg currentBatch call r consumed := by
  cases currentBatch with
  | none =>
    simp only [mergeSplitWith, consumeInternal, consumeFirst]
    generalize kind.mergeSplit cfg.maxSize cfg.sizer req none = r
    obtain ⟨reqList, err, receiver⟩ := r
    cases reqList with
    | nil => exact ⟨rfl, rfl, rfl, rfl⟩
    | cons first rest =>
      refine ⟨?_, fun batch kept => keepLast_small kept, rfl, rfl⟩
      exact keepLast_batches _ (first :: rest)
  | some current =>
    simp only [mergeSplitWith, consumeInternal, consumeMerge]
    generalize kind.mergeSplit cfg.maxSize cfg.sizer current.req (some req) = r
    obtain ⟨reqList, err, receiver⟩ := r
    cases reqList with
    | nil => exact ⟨rfl, rfl, rfl, rfl⟩
    | cons first rest =>
      rw [if_neg (cons_ne_nil first rest)]
      by_cases flushed : rest.length > 0 ∨ kind.sizeof cfg.sizer first ≥ cfg.minSize
      · simp only [if_pos flushed]
        refine ⟨?_, fun batch kept => keepLast_small kept, rfl, rfl⟩
        rw [cons_append, keepLast_batches]
        rfl
      · simp only [if_neg flushed]
        obtain ⟨alone, small⟩ := not_or.mp flushed
        obtain rfl : rest = [] := length_eq_zero_iff.mp (Nat.eq_zero_of_not_pos alone)
        refine ⟨rfl, ?_, rfl, rfl⟩
        rintro batch ⟨⟩
        exact lt_of_not_ge small

theorem consumeInternal_done (kind : RequestKind Req E) (cfg : BatchConfig)
    (currentBatch : Option (Batch Req)) (call : Nat) (req : Req) :
    let r := mergeSplitWith kind cfg currentBatch req
    let consumed := consumeInternal kind cfg currentBatch call req
    (consumed.flushes ++ consumed.currentBatch.toList).flatMap Batch.done =
      currentBatch.toList.flatMap Batch.done ++ List.replicate r.reqList.length (wrapDone call r.reqList r.err).1 := by
  have spec := consumeInternal_spec kind cfg currentBatch call req
  simp only at spec ⊢
  split at spec
  · next none =>
      rw [spec.flushes, spec.current, none]
      cases currentBatch with
      | none => rfl
      | some current => simp
  · next some => rw [spec.batches, placed_done _ some]

end specification

end CollectorFormal.Batcher
