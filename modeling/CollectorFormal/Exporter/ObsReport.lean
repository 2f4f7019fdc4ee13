import Mathlib.Data.List.Forall2
import CollectorFormal.Exporter.RetrySender

/-! What the exporter helper reports of a request: obsReportSender over the retry sender.

The items counted before are put down to the error that Send returns, while every attempt may deliver a part. -/

namespace CollectorFormal.Exporter

open Lib List

variable {D I : Type}

structure FailureAttributes where
  errorType : String
  errorPermanent : Bool
  deriving DecidableEq

structure SpanEnd (D : Type) where
  itemsSent : Nat
  itemsFailed : Nat
  status : Option (Err D)

structure Telemetry (D : Type) where
  inFlight : Int
  sendSize : List Nat
  sendSizeBytes : List Nat
  itemsSent : Nat
  itemsFailed : List (Nat × Option FailureAttributes)
  spans : List (SpanEnd D)

def Telemetry.totalFailed (telemetry : Telemetry D) : Nat := (telemetry.itemsFailed.map (·.1)).sum

structure ObsReportSender (D I : Type) where
  batchEnabled : Bool
  bytesEnabled : Bool
  items : D → List I
  bytesSize : D → Nat
  /-- The name of an error that is not of a shutdown: of the context, of a gRPC status or another. -/
  otherType : Err D → String

namespace ObsReportSender
variable (ors : ObsReportSender D I)

def itemsCount (req : D) : Nat := (ors.items req).length

def determineErrorType (err : Err D) : String :=
  if isShutdownErr err then "Shutdown" else ors.otherType err

/-- Without a value for the empty set. -/
def extractFailureAttributes (err : Option (Err D)) : Option FailureAttributes :=
  err.map fun err => ⟨ors.determineErrorType err, isPermanent err⟩

def startOp (telemetry : Telemetry D) : Telemetry D :=
  { telemetry with inFlight := telemetry.inFlight + 1 }

def recordSize (req : D) (telemetry : Telemetry D) : Telemetry D :=
  if ors.batchEnabled then
    { telemetry with
      sendSize := telemetry.sendSize ++ [ors.itemsCount req]
      sendSizeBytes :=
        if ors.bytesEnabled then telemetry.sendSizeBytes ++ [ors.bytesSize req] else telemetry.sendSizeBytes }
  else telemetry

def toNumItems (numExportedItems : Nat) (err : Option (Err D)) : Nat × Nat :=
  if err.isSome then (0, numExportedItems) else (numExportedItems, 0)

def endOp (numRecords : Nat) (err : Option (Err D)) (telemetry : Telemetry D) : Telemetry D :=
  let numSent := (toNumItems numRecords err).1
  let numFailedToSend := (toNumItems numRecords err).2
  { telemetry with
    inFlight := telemetry.inFlight - 1
    itemsSent := telemetry.itemsSent + numSent
    itemsFailed :=
      if numFailedToSend > 0 then
        telemetry.itemsFailed ++ [(numFailedToSend, ors.extractFailureAttributes err)]
      else telemetry.itemsFailed
    spans := telemetry.spans ++ [⟨numSent, numFailedToSend, err⟩] }

/-- Send, around a call of the next sender that may still be running. -/
def send (run : SendRun D) (req : D) (telemetry : Telemetry D) : Telemetry D :=
  let started := ors.recordSize req (startOp telemetry)
  match run.returned with
  | none => started
  | some returned => ors.endOp (ors.itemsCount req) returned.err started

/-- What the destination takes of an attempt's request: all of it, or what the error does not
give back. -/
def Delivers (attempt : Attempt D) (delivered : List I) : Prop :=
  match attempt.outcome with
  | none => delivered.Perm (ors.items attempt.request)
  | some err => (delivered ++ ors.items (onError attempt.request err)).Perm (ors.items attempt.request)

/-- The counters tell the items delivered by some attempt from those delivered by none. -/
structure Exact (req : D) (deliveries : List (List I)) (before after : Telemetry D) : Prop where
  sent : after.itemsSent = before.itemsSent + deliveries.flatten.length
  failed : ∃ undelivered, (deliveries.flatten ++ undelivered).Perm (ors.items req) ∧
    after.totalFailed = before.totalFailed + undelivered.length
  sum : (after.itemsSent - before.itemsSent) + (after.totalFailed - before.totalFailed) = ors.itemsCount req

end ObsReportSender

inductive LoopRun : List (Round D) → D → SendRun D → Prop
  | waiting (req : D) : LoopRun [] req ⟨[], none⟩
  | sent {round : Round D} (rounds : List (Round D)) (req : D) (start finish : Int) (outcome : round.outcome = none) :
      LoopRun (round :: rounds) req ⟨[⟨start, finish, req, none⟩], some ⟨finish, none⟩⟩
  | gaveUp {round : Round D} (rounds : List (Round D)) (req : D) (start finish time : Int) {err : Err D}
      (result : Err D) (outcome : round.outcome = some err) :
      LoopRun (round :: rounds) req ⟨[⟨start, finish, req, some err⟩], some ⟨time, some result⟩⟩
  | retried {round : Round D} {rounds : List (Round D)} {req : D} (start finish : Int) {err : Err D}
      {attempts : List (Attempt D)} {returned : Option (Returned D)} (outcome : round.outcome = some err)
      (rest : LoopRun rounds (onError req err) ⟨attempts, returned⟩) :
      LoopRun (round :: rounds) req ⟨⟨start, finish, req, some err⟩ :: attempts, returned⟩

theorem sendLoop_runs (ctx : Context) (stop maxElapsedTime : Option Int) (rounds : List (Round D)) (now : Int)
    (req : D) : LoopRun rounds req (sendLoop ctx stop maxElapsedTime rounds now req) := by
  induction rounds generalizing now req with
  | nil => exact .waiting req
  | cons round rounds ih =>
    unfold sendLoop
    cases outcome : round.outcome with
    | none => exact .sent rounds req now _ outcome
    | some err =>
      have spec := afterFailure_spec ctx stop maxElapsedTime round (now + round.took) err
      cases after : afterFailure ctx stop maxElapsedTime round (now + round.took) err with
      | ok next =>
        simp only [after]
        exact .retried now _ outcome (ih next (onError req err))
      | error returned =>
        simp only [after] at spec ⊢
        rcases Option.ne_none_iff_exists'.mp spec.failed with ⟨result, same⟩
        have shape : returned = ⟨returned.time, some result⟩ := by rw [← same]
        rw [shape]
        exact .gaveUp rounds req now _ returned.time result outcome

namespace LoopRun
variable {rounds : List (Round D)} {req : D} {run : SendRun D}

theorem succeeded_iff (ran : LoopRun rounds req run) {returned : Returned D} (ended : run.returned = some returned) :
    returned.err = none ↔ ∃ round ∈ rounds.take run.attempts.length, round.outcome = none := by
  induction ran with
  | waiting req => cases ended
  | sent _ _ _ _ outcome | gaveUp _ _ _ _ _ _ outcome =>
    cases ended
    simp [outcome]
  | retried start finish outcome rest ih =>
    rw [ih ended]
    simp [outcome]

section delivery
variable {ors : ObsReportSender D I} {deliveries : List (List I)}

theorem undelivered (ran : LoopRun rounds req run) (delivers : List.Forall₂ ors.Delivers run.attempts deliveries) :
    ∃ rest, (deliveries.flatten ++ rest).Perm (ors.items req) := by
  induction ran generalizing deliveries with
  | waiting req =>
    cases delivers
    exact ⟨ors.items req, .refl _⟩
  | sent rounds req start finish outcome =>
    rcases forall₂_cons_left_iff.mp delivers with ⟨delivered, _, all, none_left, rfl⟩
    cases none_left
    refine ⟨[], ?_⟩
    rw [flatten_singleton, append_nil]
    exact all
  | @gaveUp round rounds req start finish time err result outcome =>
    rcases forall₂_cons_left_iff.mp delivers with ⟨delivered, _, part, none_left, rfl⟩
    cases none_left
    refine ⟨ors.items (onError req err), ?_⟩
    rw [flatten_singleton]
    exact part
  | @retried round rounds req start finish err attempts returned outcome rest ih =>
    rcases forall₂_cons_left_iff.mp delivers with ⟨delivered, later, part, others, rfl⟩
    rcases ih others with ⟨left, remaining⟩
    refine ⟨left, ?_⟩
    calc
      _ = delivered ++ (later.flatten ++ left) := by rw [flatten_cons, append_assoc]
      (delivered ++ (later.flatten ++ left)).Perm (delivered ++ ors.items (onError req err)) :=
        remaining.append_left delivered
      (delivered ++ ors.items (onError req err)).Perm (ors.items req) := part

theorem delivered_all (ran : LoopRun rounds req run)
    (delivers : List.Forall₂ ors.Delivers run.attempts deliveries) {time : Int}
    (ended : run.returned = some ⟨time, none⟩) : deliveries.flatten.Perm (ors.items req) := by
  induction ran generalizing deliveries with
  | waiting | gaveUp => cases ended
  | sent rounds req start finish outcome =>
    rcases forall₂_cons_left_iff.mp delivers with ⟨delivered, _, all, none_left, rfl⟩
    cases none_left
    rw [flatten_singleton]
    exact all
  | @retried round rounds req start finish err attempts returned outcome rest ih =>
    rcases forall₂_cons_left_iff.mp delivers with ⟨delivered, later, part, others, rfl⟩
    rw [flatten_cons]
    exact ((ih others ended).append_left delivered).trans part

end delivery

end LoopRun

namespace ObsReportSender
variable {ors : ObsReportSender D I} {run : SendRun D} {req : D} {before : Telemetry D} {time : Int}

@[simp]
theorem recordSize_itemsSent : (ors.recordSize req before).itemsSent = before.itemsSent := by
  unfold recordSize
  split <;> rfl

@[simp]
theorem recordSize_totalFailed : (ors.recordSize req before).totalFailed = before.totalFailed := by
  unfold recordSize
  split <;> rfl

theorem endOp_totalFailed (numRecords : Nat) (err : Option (Err D)) :
    (ors.endOp numRecords err before).totalFailed = before.totalFailed + (toNumItems numRecords err).2 := by
  unfold endOp Telemetry.totalFailed
  by_cases some_failed : (toNumItems numRecords err).2 > 0
  · simp [some_failed]
  · have none_failed : (toNumItems numRecords err).2 = 0 := by omega
    simp [none_failed]

theorem send_succeeded (ended : run.returned = some ⟨time, none⟩) :
    (ors.send run req before).itemsSent = before.itemsSent + ors.itemsCount req ∧
      (ors.send run req before).totalFailed = before.totalFailed := by
  unfold send
  rw [ended]
  refine ⟨?_, ?_⟩
  · simp [endOp, toNumItems, startOp]
  · rw [endOp_totalFailed, recordSize_totalFailed]
    rfl

theorem send_failed {err : Err D} (ended : run.returned = some ⟨time, some err⟩) :
    (ors.send run req before).itemsSent = before.itemsSent ∧
      (ors.send run req before).totalFailed = before.totalFailed + ors.itemsCount req := by
  unfold send
  rw [ended]
  refine ⟨?_, ?_⟩
  · simp [endOp, toNumItems, startOp]
  · rw [endOp_totalFailed, recordSize_totalFailed]
    rfl

/-- When Send returns, the counters are exact iff an attempt succeeded or no attempt delivered anything. -/
theorem accounting_exact_iff (cfg : BackOffConfig) (ctx : Context) (stop : Option Int) (now : Int)
    (rounds : List (Round D)) (deliveries : List (List I))
    (delivers : List.Forall₂ ors.Delivers (Exporter.send cfg ctx stop now req rounds).attempts deliveries)
    (returned : (Exporter.send cfg ctx stop now req rounds).returned.isSome = true) :
    ors.Exact req deliveries before (ors.send (Exporter.send cfg ctx stop now req rounds) req before) ↔
      (∃ round ∈ rounds.take deliveries.length, round.outcome = none) ∨ ∀ delivered ∈ deliveries, delivered = [] := by
  have ran : LoopRun rounds req (Exporter.send cfg ctx stop now req rounds) := sendLoop_runs ctx stop _ rounds now req
  rw [← delivers.length_eq]
  generalize Exporter.send cfg ctx stop now req rounds = run at delivers returned ran ⊢
  rcases Option.isSome_iff_exists.mp returned with ⟨⟨time, err⟩, ended⟩
  rw [← ran.succeeded_iff ended]
  cases err with
  | none =>
    rcases @send_succeeded D I ors run req before time ended with ⟨sent, failed⟩
    have all := ran.delivered_all delivers ended
    have count : deliveries.flatten.length = ors.itemsCount req := all.length_eq
    refine iff_of_true ⟨?_, ⟨[], ?_, ?_⟩, ?_⟩ (.inl rfl)
    · rw [sent, count]
    · rwa [append_nil]
    · exact failed
    · omega
  | some err =>
    rcases @send_failed D I ors run req before time err ended with ⟨sent, failed⟩
    rcases ran.undelivered delivers with ⟨rest, split⟩
    have count : deliveries.flatten.length + rest.length = ors.itemsCount req := by
      rw [← length_append]
      exact split.length_eq
    constructor
    · intro exact_counts
      have none_sent := exact_counts.sent
      refine .inr (flatten_eq_nil_iff.mp (eq_nil_of_length_eq_zero ?_))
      omega
    · intro cause
      have nothing : deliveries.flatten = [] := by
        rcases cause with absurd_success | none_delivered
        · cases absurd_success
        · exact flatten_eq_nil_iff.mpr none_delivered
      rw [nothing, length_nil, Nat.zero_add] at count
      refine ⟨?_, ⟨rest, split, ?_⟩, ?_⟩
      · rw [sent, nothing]
        rfl
      · rw [failed, count]
      · omega

def twoRecords : ObsReportSender (List Bool) Bool where
  batchEnabled := false
  bytesEnabled := false
  items := id
  bytesSize := List.length
  otherType := fun _ => "_OTHER"

/-- A destination that takes the first record, gives the second back and then refuses it. -/
def halfTaken : List (Round (List Bool)) :=
  [⟨1, some (.leaf (.logs [false])), some 5, .timer⟩, ⟨1, some (.leaf .permanent), some 5, .timer⟩]

/-- The same destination, if it takes the second record in the end. -/
def takenLater : List (Round (List Bool)) :=
  [⟨1, some (.leaf (.logs [false])), some 5, .timer⟩, ⟨1, none, some 5, .timer⟩]

theorem accounting_exact_takenLater :
    twoRecords.Exact [true, false] [[true], [false]] ⟨0, [], [], 0, [], []⟩
      (twoRecords.send (Exporter.send ⟨0⟩ ⟨none, none⟩ none 0 [true, false] takenLater) [true, false]
        ⟨0, [], [], 0, [], []⟩) := by
  refine (accounting_exact_iff ⟨0⟩ ⟨none, none⟩ none 0 takenLater [[true], [false]] ?_ rfl).mpr (.inl ?_)
  · exact .cons (.refl _) (.cons (.refl _) .nil)
  · exact ⟨_, mem_cons_of_mem _ (mem_singleton_self _), rfl⟩

/-- One of two records is delivered, and both are counted as failed. -/
theorem delivered_record_counted_failed :
    List.Forall₂ twoRecords.Delivers
        (Exporter.send ⟨0⟩ ⟨none, none⟩ none 0 [true, false] halfTaken).attempts [[true], []] ∧
      ¬ twoRecords.Exact [true, false] [[true], []] ⟨0, [], [], 0, [], []⟩
        (twoRecords.send (Exporter.send ⟨0⟩ ⟨none, none⟩ none 0 [true, false] halfTaken) [true, false]
          ⟨0, [], [], 0, [], []⟩) := by
  constructor
  · exact .cons (.refl _) (.cons (.refl _) .nil)
  · intro exact_counts
    have sent := exact_counts.sent
    revert sent
    decide

end ObsReportSender

end CollectorFormal.Exporter
