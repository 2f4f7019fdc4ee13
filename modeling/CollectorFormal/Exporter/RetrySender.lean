import Mathlib.Algebra.Order.Ring.Int
import Mathlib.Data.List.Chain
import CollectorFormal.Lib.ErrorTree

/-! The retry sender of the exporter helper, for requests of logs.

Time passes while the next sender works and while the loop waits. What the sender cannot choose is given with each
pass: how long the attempt took and how it ended, the next interval of the backoff, and which case of the select is
taken when several are ready. -/

namespace CollectorFormal.Exporter

open Lib List

inductive Label (D : Type) where
  | text (text : String)
  | permanent
  | throttle (delay : Int)
  | logs (data : D)
  | shutdown

abbrev Err (D : Type) := ErrorTree (Label D)

variable {D : Type}

def Label.delay? : Label D → Option Int
  | .throttle delay => some delay
  | _ => none

def Label.data? : Label D → Option D
  | .logs data => some data
  | _ => none

def isPermanent (err : Err D) : Bool :=
  (err.as fun | .permanent => some () | _ => none).isSome

def isShutdownErr (err : Err D) : Bool :=
  (err.as fun | .shutdown => some () | _ => none).isSome

def newShutdownErr (err : Err D) : Err D := .wrap .shutdown err

/-- fmt.Errorf with the text in front of the wrapped error. -/
def errorf (text : String) (err : Err D) : Err D := .wrap (.text text) err

/-- logsRequest.OnError -/
def onError (req : D) (err : Err D) : D := (err.as Label.data?).getD req

structure BackOffConfig where
  maxElapsedTime : Int

def BackOffConfig.limit (cfg : BackOffConfig) (began : Int) : Option Int :=
  if cfg.maxElapsedTime > 0 then some (began + cfg.maxElapsedTime) else none

structure Context where
  deadline : Option Int
  /-- When the context is cancelled, if it is cancelled before its deadline. -/
  cancelled : Option Int

def earlier : Option Int → Option Int → Option Int
  | some first, some second => some (min first second)
  | some first, none => some first
  | none, second => second

/-- When the channel of Done is closed. -/
def Context.done (ctx : Context) : Option Int := earlier ctx.deadline ctx.cancelled

inductive Case where
  | done
  | stopCh
  | timer
  deriving DecidableEq

section waiting
variable (now delay : Int) (done stop : Option Int)

def ready : Case → Option Int
  | .done => done.map (max now)
  | .stopCh => stop.map (max now)
  | .timer => some (now + delay)

def woken : Int :=
  ((earlier (ready now delay done stop .done) (ready now delay done stop .stopCh)).map
    (min (now + delay))).getD (now + delay)

def select (prefer : Case) : Case :=
  let isReady := fun case => ready now delay done stop case = some (woken now delay done stop)
  if isReady prefer then prefer
  else if isReady .done then .done
  else if isReady .stopCh then .stopCh
  else .timer

theorem woken_ready : ∃ case, ready now delay done stop case = some (woken now delay done stop) := by
  rcases done with _ | done <;> rcases stop with _ | stop
  · exact ⟨.timer, rfl⟩
  · rcases min_choice (now + delay) (max now stop) with first | first
    · exact ⟨.timer, congrArg some first.symm⟩
    · exact ⟨.stopCh, congrArg some first.symm⟩
  · rcases min_choice (now + delay) (max now done) with first | first
    · exact ⟨.timer, congrArg some first.symm⟩
    · exact ⟨.done, congrArg some first.symm⟩
  · rcases min_choice (now + delay) (min (max now done) (max now stop)) with first | first
    · exact ⟨.timer, congrArg some first.symm⟩
    · rcases min_choice (max now done) (max now stop) with second | second
      · exact ⟨.done, congrArg some (first.trans second).symm⟩
      · exact ⟨.stopCh, congrArg some (first.trans second).symm⟩

theorem woken_le : woken now delay done stop ≤ now + delay := by
  unfold woken
  cases earlier (ready now delay done stop .done) (ready now delay done stop .stopCh) with
  | none => exact le_rfl
  | some first => exact min_le_left _ _

theorem select_ready (prefer : Case) :
    ready now delay done stop (select now delay done stop prefer) = some (woken now delay done stop) := by
  unfold select
  simp only
  split
  · assumption
  · split
    · assumption
    · split
      · assumption
      · next done_late stop_late =>
          obtain ⟨case, first⟩ := woken_ready now delay done stop
          cases case with
          | done => exact absurd first done_late
          | stopCh => exact absurd first stop_late
          | timer => exact first

end waiting

/-- What the environment decides in one pass through the loop. -/
structure Round (D : Type) where
  took : Nat
  outcome : Option (Err D)
  /-- Without a value for Stop. -/
  nextBackOff : Option Nat
  prefer : Case

structure Attempt (D : Type) where
  start : Int
  finish : Int
  request : D
  outcome : Option (Err D)

structure Returned (D : Type) where
  time : Int
  err : Option (Err D)

structure SendRun (D : Type) where
  attempts : List (Attempt D)
  returned : Option (Returned D)

section definitions
variable (ctx : Context) (stop maxElapsedTime : Option Int)

def backoffDelay (backoff : Nat) (err : Err D) : Int :=
  match err.as Label.delay? with
  | some delay => max backoff delay
  | none => backoff

/-- The loop after an attempt that failed: what Send returns, or the time of the next attempt. -/
def afterFailure (round : Round D) (now : Int) (err : Err D) : Except (Returned D) Int :=
  if isPermanent err then .error ⟨now, some (errorf "not retryable error: " err)⟩
  else
    match round.nextBackOff with
    | none => .error ⟨now, some (errorf "no more retries left: " err)⟩
    | some backoff =>
      let delay := backoffDelay backoff err
      if maxElapsedTime.any (· < now + delay) then
        .error ⟨now, some (errorf "no more retries left: " err)⟩
      else if ctx.deadline.any (· < now + delay) then
        .error ⟨now, some (errorf "request will be cancelled before next retry: " err)⟩
      else
        let woken := woken now delay ctx.done stop
        match select now delay ctx.done stop round.prefer with
        | .done => .error ⟨woken, some (errorf "request is cancelled or timed out: " err)⟩
        | .stopCh => .error ⟨woken, some (newShutdownErr err)⟩
        | .timer => .ok woken

def sendLoop : List (Round D) → Int → D → SendRun D
  | [], _, _ => ⟨[], none⟩
  | round :: rounds, now, req =>
    let finish := now + round.took
    let attempt : Attempt D := ⟨now, finish, req, round.outcome⟩
    match round.outcome with
    | none => ⟨[attempt], some ⟨finish, none⟩⟩
    | some err =>
      match afterFailure ctx stop maxElapsedTime round finish err with
      | .error returned => ⟨[attempt], some returned⟩
      | .ok woken =>
        let run := sendLoop rounds woken (onError req err)
        { run with attempts := attempt :: run.attempts }

end definitions

/-- Send, called at a time, with Shutdown called at the time of stop if that is given. -/
def send (cfg : BackOffConfig) (ctx : Context) (stop : Option Int) (now : Int) (req : D)
    (rounds : List (Round D)) : SendRun D :=
  sendLoop ctx stop (cfg.limit now) rounds now req

def Throttled (err : Err D) (delay : Int) : Prop :=
  ∃ front back, err.labels = front ++ .throttle delay :: back ∧ ∀ label ∈ front, label.delay? = none

def Names (err : Err D) (data : D) : Prop :=
  ∃ front back, err.labels = front ++ .logs data :: back ∧ ∀ label ∈ front, label.data? = none

/-- What is still to be sent after the errors: what the latest one names that names anything. -/
def StillToSend (req : D) (errs : List (Err D)) (data : D) : Prop :=
  (∃ before err after, errs = before ++ err :: after ∧ Names err data ∧ ∀ later ∈ after, ∀ other, ¬ Names later other) ∨
  data = req ∧ ∀ err ∈ errs, ∀ other, ¬ Names err other

/-- One attempt after another, in a Send that began at a time. -/
structure Follows (cfg : BackOffConfig) (ctx : Context) (began : Int) (last next : Attempt D) : Prop where
  failed : ∃ err, last.outcome = some err ∧ .permanent ∉ err.labels
  throttled : ∀ err delay, last.outcome = some err → Throttled err delay → last.finish + delay ≤ next.start
  ordered : last.finish ≤ next.start
  elapsed : 0 < cfg.maxElapsedTime → next.start ≤ began + cfg.maxElapsedTime
  deadline : ∀ deadline, ctx.deadline = some deadline → next.start ≤ deadline

/-- A limit is passed before the time of the next attempt. -/
def Ended (ctx : Context) (stop maxElapsedTime : Option Int) (next : Int) : Prop :=
  (∃ limit, maxElapsedTime = some limit ∧ limit < next) ∨ (∃ done, ctx.done = some done ∧ done ≤ next) ∨
    ∃ called, stop = some called ∧ called ≤ next

/-- An attempt after which Send returns: it was successful, or there is a reason not to try again. -/
def Final (ctx : Context) (stop maxElapsedTime : Option Int) (round : Round D) (last : Attempt D) : Prop :=
  ∀ err backoff, last.outcome = some err → .permanent ∉ err.labels → round.nextBackOff = some backoff →
    Ended ctx stop maxElapsedTime (last.finish + backoffDelay backoff err)

section proofs
variable {ctx : Context} {stop maxElapsedTime : Option Int} {err : Err D}

theorem throttled_iff (err : Err D) (delay : Int) : err.as Label.delay? = some delay ↔ Throttled err delay := by
  apply ErrorTree.as_eq_some_iff
  intro label found
  cases label with
  | throttle other => simp [Label.delay?]
  | _ => simp [Label.delay?]

theorem names_iff (err : Err D) (data : D) : err.as Label.data? = some data ↔ Names err data := by
  apply ErrorTree.as_eq_some_iff
  intro label found
  cases label with
  | logs other => simp [Label.data?]
  | _ => simp [Label.data?]

theorem isPermanent_iff (err : Err D) : isPermanent err = true ↔ .permanent ∈ err.labels := by
  apply ErrorTree.as_isSome_iff_mem
  rintro (_ | _) <;> simp

theorem isShutdownErr_iff (err : Err D) : isShutdownErr err = true ↔ .shutdown ∈ err.labels := by
  apply ErrorTree.as_isSome_iff_mem
  rintro (_ | _) <;> simp

theorem backoffDelay_nonneg (backoff : Nat) (err : Err D) : 0 ≤ backoffDelay backoff err := by
  unfold backoffDelay
  split
  · exact le_max_of_le_left (Int.natCast_nonneg backoff)
  · exact Int.natCast_nonneg backoff

theorem throttled_le_backoffDelay (backoff : Nat) {delay : Int} (throttled : Throttled err delay) :
    delay ≤ backoffDelay backoff err := by
  unfold backoffDelay
  rw [(throttled_iff err delay).mpr throttled]
  exact le_max_right _ _

structure Retries (ctx : Context) (maxElapsedTime : Option Int) (now : Int) (err : Err D) (next : Int) :
    Prop where
  temporary : .permanent ∉ err.labels
  throttled : ∀ delay, Throttled err delay → now + delay ≤ next
  ordered : now ≤ next
  elapsed : ∀ limit, maxElapsedTime = some limit → next ≤ limit
  deadline : ∀ deadline, ctx.deadline = some deadline → next ≤ deadline

/-- What it means that Send gives up: there is an error, it tells of a shutdown only after one, and there was a
reason. -/
structure GivesUp (ctx : Context) (stop maxElapsedTime : Option Int) (round : Round D) (now : Int) (err : Err D)
    (returned : Returned D) : Prop where
  failed : returned.err ≠ none
  stopped : ∀ result, returned.err = some result → .shutdown ∈ result.labels →
    .shutdown ∈ err.labels ∨ ∃ time, stop = some time ∧ time ≤ returned.time
  reason : ∀ backoff, .permanent ∉ err.labels → round.nextBackOff = some backoff →
    Ended ctx stop maxElapsedTime (now + backoffDelay backoff err)

theorem errorf_givesUp {round : Round D} {now : Int} (time : Int) (text : String)
    (reason : ∀ backoff, .permanent ∉ err.labels → round.nextBackOff = some backoff →
      Ended ctx stop maxElapsedTime (now + backoffDelay backoff err)) :
    GivesUp ctx stop maxElapsedTime round now err ⟨time, some (errorf text err)⟩ := by
  refine ⟨by simp, ?_, reason⟩
  rintro result ⟨⟩ member
  rcases mem_cons.mp member with same | inside
  · cases same
  · exact .inl inside

theorem any_before_eq_false {limit : Option Int} {next : Int} (within : ¬ limit.any (· < next) = true) :
    ∀ time, limit = some time → next ≤ time := by
  rintro time rfl
  simpa using within

theorem any_before_eq_true {limit : Option Int} {next : Int} (before : limit.any (· < next) = true) :
    ∃ time, limit = some time ∧ time < next := by
  cases limit with
  | none => cases before
  | some time => exact ⟨time, rfl, of_decide_eq_true before⟩

theorem done_le_deadline {deadline : Int} (has : ctx.deadline = some deadline) :
    ∃ done, ctx.done = some done ∧ done ≤ deadline := by
  rw [Context.done, has]
  cases ctx.cancelled with
  | none => exact ⟨deadline, rfl, le_rfl⟩
  | some cancelled => exact ⟨min deadline cancelled, rfl, min_le_left _ _⟩

variable (ctx stop maxElapsedTime) in
theorem afterFailure_spec (round : Round D) (now : Int) (err : Err D) :
    match afterFailure ctx stop maxElapsedTime round now err with
    | .error returned => GivesUp ctx stop maxElapsedTime round now err returned
    | .ok next => Retries ctx maxElapsedTime now err next := by
  unfold afterFailure
  by_cases permanent : isPermanent err = true
  · rw [if_pos permanent]
    exact errorf_givesUp now _ fun _ temporary => absurd ((isPermanent_iff err).mp permanent) temporary
  rw [if_neg permanent]
  cases next : round.nextBackOff with
  | none => exact errorf_givesUp now _ fun backoff _ given => by rw [next] at given; cases given
  | some backoff =>
    have given {other : Nat} (same : round.nextBackOff = some other) : other = backoff := by
      rw [next] at same
      exact (Option.some.inj same).symm
    simp only
    by_cases beyond : maxElapsedTime.any (· < now + backoffDelay backoff err) = true
    · rw [if_pos beyond]
      exact errorf_givesUp now _ fun _ _ same => given same ▸ .inl (any_before_eq_true beyond)
    rw [if_neg beyond]
    by_cases late : ctx.deadline.any (· < now + backoffDelay backoff err) = true
    · rw [if_pos late]
      obtain ⟨deadline, has, before⟩ := any_before_eq_true late
      obtain ⟨done, closed, least⟩ := done_le_deadline has
      exact errorf_givesUp now _ fun _ _ same => given same ▸ .inr (.inl ⟨done, closed, least.trans before.le⟩)
    rw [if_neg late]
    have first := select_ready now (backoffDelay backoff err) ctx.done stop round.prefer
    have least := woken_le now (backoffDelay backoff err) ctx.done stop
    cases taken : select now (backoffDelay backoff err) ctx.done stop round.prefer with
    | done =>
      rw [taken] at first
      obtain ⟨done, closed, same⟩ := Option.map_eq_some_iff.mp first
      exact errorf_givesUp _ _ fun _ _ other => given other ▸ .inr (.inl ⟨done, closed, by omega⟩)
    | stopCh =>
      rw [taken] at first
      obtain ⟨time, called, same⟩ := Option.map_eq_some_iff.mp first
      refine ⟨by simp, ?_, fun _ _ other => given other ▸ .inr (.inr ⟨time, called, by omega⟩)⟩
      intro result _ _
      refine .inr ⟨time, called, ?_⟩
      rw [← same]
      exact le_max_right now time
    | timer =>
      rw [taken] at first
      simp only
      rw [← Option.some.inj first]
      have nonneg := backoffDelay_nonneg backoff err
      refine ⟨?_, ?_, by omega, any_before_eq_false beyond, any_before_eq_false late⟩
      · rwa [← isPermanent_iff]
      · intro delay throttled
        have least := throttled_le_backoffDelay backoff throttled
        omega

theorem StillToSend.cons {req data : D} {errs : List (Err D)}
    (still : StillToSend (onError req err) errs data) : StillToSend req (err :: errs) data := by
  rcases still with ⟨before, later, after, split, named, latest⟩ | ⟨same, unnamed⟩
  · exact .inl ⟨err :: before, later, after, congrArg (err :: ·) split, named, latest⟩
  · cases found : err.as Label.data? with
    | some named =>
      refine .inl ⟨[], err, errs, rfl, ?_, unnamed⟩
      rw [same, onError, found]
      exact (names_iff err named).mp found
    | none =>
      refine .inr ⟨?_, ?_⟩
      · rw [same, onError, found]
        rfl
      · intro other member data
        rcases mem_cons.mp member with rfl | inside
        · rw [← names_iff, found]
          simp
        · exact unnamed other inside data

/-- What the environment decided, an attempt shows. -/
def Round.Made (round : Round D) (attempt : Attempt D) : Prop :=
  attempt.outcome = round.outcome ∧ attempt.finish = attempt.start + round.took

structure LoopSound (ctx : Context) (stop maxElapsedTime : Option Int) (rounds : List (Round D)) (now : Int) (req : D)
    (run : SendRun D) : Prop where
  began : ∀ first ∈ run.attempts.head?, first.start = now
  made : Forall₂ Round.Made (rounds.take run.attempts.length) run.attempts
  waiting : run.returned = none → run.attempts.length = rounds.length
  final : run.returned ≠ none → ∃ round ∈ (rounds.take run.attempts.length).getLast?,
    ∃ last ∈ run.attempts.getLast?, Final ctx stop maxElapsedTime round last
  retried : run.attempts.IsChain fun last next =>
    ∃ err, last.outcome = some err ∧ Retries ctx maxElapsedTime last.finish err next.start
  requests : ∀ before next after, run.attempts = before ++ next :: after →
    StillToSend req (before.filterMap (·.outcome)) next.request
  succeeded : (∃ time, run.returned = some ⟨time, none⟩) ↔ ∃ last ∈ run.attempts.getLast?, last.outcome = none
  stopped : ∀ time result, run.returned = some ⟨time, some result⟩ → .shutdown ∈ result.labels →
    (∃ attempt ∈ run.attempts, ∃ err, attempt.outcome = some err ∧ .shutdown ∈ err.labels) ∨
      ∃ called, stop = some called ∧ called ≤ time

theorem loopSound_single {now : Int} {req : D} {round : Round D} {rounds : List (Round D)} {attempt : Attempt D}
    {returned : Returned D} (start : attempt.start = now) (request : attempt.request = req) (made : round.Made attempt)
    (final : Final ctx stop maxElapsedTime round attempt)
    (succeeded : returned.err = none ↔ attempt.outcome = none)
    (stopped : ∀ result, returned.err = some result → .shutdown ∈ result.labels →
      (∃ err, attempt.outcome = some err ∧ .shutdown ∈ err.labels) ∨
        ∃ called, stop = some called ∧ called ≤ returned.time) :
    LoopSound ctx stop maxElapsedTime (round :: rounds) now req ⟨[attempt], some returned⟩ := by
  refine ⟨?_, .cons made .nil, by simp, fun _ => ⟨round, rfl, attempt, rfl, final⟩, isChain_singleton _, ?_, ?_, ?_⟩
  · rintro first ⟨⟩
    exact start
  · intro before next after split
    rcases cons_eq_append_iff.mp split with ⟨rfl, rest⟩ | ⟨_, _, rest⟩
    · cases rest
      exact .inr ⟨request, by simp⟩
    · simp at rest
  · obtain ⟨time, err⟩ := returned
    simpa using succeeded
  · rintro time result ⟨⟩ member
    rcases stopped result rfl member with ⟨err, failed, inside⟩ | called
    · exact .inl ⟨attempt, mem_singleton_self attempt, err, failed, inside⟩
    · exact .inr called

theorem LoopSound.cons {now : Int} {round : Round D} {rounds : List (Round D)} (attempt : Attempt D) {run : SendRun D}
    {next : Int} (failed : attempt.outcome = some err) (start : attempt.start = now) (made : round.Made attempt)
    (retries : Retries ctx maxElapsedTime attempt.finish err next)
    (rest : LoopSound ctx stop maxElapsedTime rounds next (onError attempt.request err) run) :
    LoopSound ctx stop maxElapsedTime (round :: rounds) now attempt.request
      { run with attempts := attempt :: run.attempts } := by
  refine ⟨?_, .cons made rest.made, ?_, ?_, ?_, ?_, ?_, ?_⟩
  · rintro first ⟨⟩
    exact start
  · intro none
    exact congrArg (· + 1) (rest.waiting none)
  · intro some
    obtain ⟨other, last_round, last, last_attempt, final⟩ := rest.final some
    refine ⟨other, ?_, last, ?_, final⟩
    · rw [length_cons, take_succ_cons, Option.mem_def, getLast?_cons, Option.mem_def.mp last_round]
      rfl
    · rw [Option.mem_def, getLast?_cons, Option.mem_def.mp last_attempt]
      rfl
  · refine isChain_cons.mpr ⟨?_, rest.retried⟩
    intro second member
    exact ⟨err, failed, rest.began second member ▸ retries⟩
  · intro before other after split
    rcases cons_eq_append_iff.mp split with ⟨rfl, same⟩ | ⟨before, rfl, same⟩
    · cases same
      exact .inr ⟨rfl, by simp⟩
    · rw [filterMap_cons_some failed]
      exact (rest.requests before other after same).cons
  · rw [rest.succeeded, getLast?_cons]
    cases run.attempts.getLast? with
    | none => simp [failed]
    | some last => simp
  · intro time result returned member
    rcases rest.stopped time result returned member with ⟨other, inside, found⟩ | called
    · exact .inl ⟨other, mem_cons_of_mem attempt inside, found⟩
    · exact .inr called

theorem sendLoop_sound (rounds : List (Round D)) (now : Int) (req : D) :
    LoopSound ctx stop maxElapsedTime rounds now req (sendLoop ctx stop maxElapsedTime rounds now req) := by
  induction rounds generalizing now req with
  | nil => constructor <;> simp [sendLoop]
  | cons round rounds ih =>
    unfold sendLoop
    cases outcome : round.outcome with
    | none => exact loopSound_single rfl rfl ⟨outcome.symm, rfl⟩ (by simp [Final]) (by simp) (by simp)
    | some err =>
      have spec := afterFailure_spec ctx stop maxElapsedTime round (now + round.took) err
      cases after : afterFailure ctx stop maxElapsedTime round (now + round.took) err with
      | error returned =>
        simp only [after] at spec ⊢
        refine loopSound_single rfl rfl ⟨outcome.symm, rfl⟩ ?_ ?_ ?_
        · intro other backoff same
          cases same
          exact spec.reason backoff
        · simp [spec.failed]
        · intro result same member
          rcases spec.stopped result same member with inside | called
          · exact .inl ⟨err, rfl, inside⟩
          · exact .inr called
      | ok next =>
        simp only [after] at spec ⊢
        exact LoopSound.cons ⟨now, _, req, _⟩ rfl rfl ⟨outcome.symm, rfl⟩ spec (ih next _)

end proofs

/-- Half of the logs are refused with a delay of 5, and then taken. -/
def throttledRounds : List (Round (List Nat)) :=
  [⟨1, some (.wrap (.logs [2]) (.leaf (.throttle 5))), some 2, .timer⟩, ⟨1, none, none, .timer⟩]

end CollectorFormal.Exporter
