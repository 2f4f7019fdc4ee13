import Mathlib.Data.Multiset.AddSub
import Mathlib.Logic.Relation
import Mathlib.Tactic.Common
import CollectorFormal.Queue.CondTokens

/-! The condition variable of the queues and the goroutines around it.

A goroutine in Wait has given up the lock and selects between its context and the channel of capacity one. Code that
runs under the lock is one step of `Critical`, up to Signal or Broadcast; from there it keeps the lock until all its
sends went through. -/

namespace CollectorFormal.Queue

open List Bool
open Lib

/-- How a section that holds the lock wakes the goroutines in Wait. -/
inductive Wake where
  | signals (count : Nat)
  | broadcast
  deriving DecidableEq

/-- The code run under the lock, by goroutines called with `ρ` and left with `τ`; `attempt` answers `none` when it
goes into Wait. -/
structure Critical (σ ρ τ : Type) where
  attempt : ρ → σ → σ → Option τ → Prop
  /-- What is returned when the context ends in Wait. -/
  abandoned : ρ → τ
  /-- Steps of a goroutine that has left the lock for good. -/
  resolve : σ → τ → σ → τ → Prop
  critical : σ → σ → Wake → Prop

inductive Goroutine (ρ τ : Type) where
  | calling (request : ρ)
  /-- In the select of Wait. -/
  | selecting (request : ρ)
  /-- Took the branch of its context and waits for the lock. -/
  | cancelled (request : ρ)
  /-- Received from the channel and waits for the lock. -/
  | woken (request : ρ)
  | left (request : ρ) (result : τ)
  deriving DecidableEq

/-- The goroutine that has the lock and is still inside Signal, Broadcast or Wait. -/
inductive Holder where
  | free
  /-- With this many calls of Signal to come. -/
  | signalling (count : Nat)
  /-- Inside Signal, at the send. -/
  | sending (count : Nat)
  | broadcasting
  /-- Inside Wait, at the receive of a cancelled goroutine. -/
  | receiving
  deriving DecidableEq

structure Monitor (σ ρ τ : Type) where
  shared : σ
  waiting : Nat := 0
  /-- The channel holds a value. -/
  ch : Bool := false
  holder : Holder := .free
  goroutines : List (Goroutine ρ τ)

variable {σ ρ τ : Type}

def Wake.holder : Wake → Holder
  | .signals count => .signalling count
  | .broadcast => .broadcasting

namespace Goroutine

def isSelecting : Goroutine ρ τ → Bool
  | .selecting _ => true
  | _ => false

def isCancelled : Goroutine ρ τ → Bool
  | .cancelled _ => true
  | _ => false

/-- Ready to run the code under the lock from its start or after Wait. -/
inductive Entering : Goroutine ρ τ → ρ → Prop where
  | calling (request : ρ) : Entering (.calling request) request
  | woken (request : ρ) : Entering (.woken request) request

end Goroutine

inductive Label where
  | attempt
  | receive
  | cancel
  | giveUp
  | drain
  | resolve
  | enter (wake : Wake)
  | signal
  | send
  | broadcastSend
  | unlock
  deriving DecidableEq

inductive MonitorStep (code : Critical σ ρ τ) : Label → Monitor σ ρ τ → Monitor σ ρ τ → Prop where
  | wait (state : Monitor σ ρ τ) (front back : List (Goroutine ρ τ)) (entering : Goroutine ρ τ)
      (request : ρ) (shared : σ) (free : state.holder = .free)
      (here : state.goroutines = front ++ entering :: back) (enters : entering.Entering request)
      (attempted : code.attempt request state.shared shared none) :
      MonitorStep code .attempt state { state with
        shared := shared
        waiting := state.waiting + 1
        goroutines := front ++ .selecting request :: back }
  | leave (state : Monitor σ ρ τ) (front back : List (Goroutine ρ τ)) (entering : Goroutine ρ τ)
      (request : ρ) (result : τ) (shared : σ) (free : state.holder = .free)
      (here : state.goroutines = front ++ entering :: back) (enters : entering.Entering request)
      (attempted : code.attempt request state.shared shared (some result)) :
      MonitorStep code .attempt state { state with
        shared := shared
        goroutines := front ++ .left request result :: back }
  | receive (state : Monitor σ ρ τ) (front back : List (Goroutine ρ τ)) (request : ρ)
      (here : state.goroutines = front ++ .selecting request :: back) (full : state.ch = true) :
      MonitorStep code .receive state { state with
        ch := false
        goroutines := front ++ .woken request :: back }
  | cancel (state : Monitor σ ρ τ) (front back : List (Goroutine ρ τ)) (request : ρ)
      (here : state.goroutines = front ++ .selecting request :: back) :
      MonitorStep code .cancel state { state with
        goroutines := front ++ .cancelled request :: back }
  | giveUp (state : Monitor σ ρ τ) (front back : List (Goroutine ρ τ)) (request : ρ)
      (free : state.holder = .free) (here : state.goroutines = front ++ .cancelled request :: back)
      (counted : state.waiting ≠ 0) :
      MonitorStep code .giveUp state { state with
        waiting := state.waiting - 1
        goroutines := front ++ .left request (code.abandoned request) :: back }
  | giveUpSignalled (state : Monitor σ ρ τ) (front back : List (Goroutine ρ τ)) (request : ρ)
      (free : state.holder = .free) (here : state.goroutines = front ++ .cancelled request :: back)
      (none : state.waiting = 0) :
      MonitorStep code .giveUp state { state with
        holder := .receiving
        goroutines := front ++ .left request (code.abandoned request) :: back }
  | drain (state : Monitor σ ρ τ) (inside : state.holder = .receiving) (full : state.ch = true) :
      MonitorStep code .drain state { state with ch := false, holder := .free }
  | resolve (state : Monitor σ ρ τ) (front back : List (Goroutine ρ τ)) (request : ρ)
      (before after : τ) (shared : σ) (here : state.goroutines = front ++ .left request before :: back)
      (resolved : code.resolve state.shared before shared after) :
      MonitorStep code .resolve state { state with
        shared := shared
        goroutines := front ++ .left request after :: back }
  | enter (state : Monitor σ ρ τ) (shared : σ) (wake : Wake) (free : state.holder = .free)
      (entered : code.critical state.shared shared wake) :
      MonitorStep code (.enter wake) state { state with shared := shared, holder := wake.holder }
  | signalNone (state : Monitor σ ρ τ) (count : Nat) (inside : state.holder = .signalling (count + 1))
      (none : state.waiting = 0) :
      MonitorStep code .signal state { state with holder := .signalling count }
  | signal (state : Monitor σ ρ τ) (count : Nat) (inside : state.holder = .signalling (count + 1))
      (counted : state.waiting ≠ 0) :
      MonitorStep code .signal state { state with
        waiting := state.waiting - 1
        holder := .sending count }
  | send (state : Monitor σ ρ τ) (count : Nat) (inside : state.holder = .sending count) (empty : state.ch = false) :
      MonitorStep code .send state { state with ch := true, holder := .signalling count }
  | broadcastSend (state : Monitor σ ρ τ) (inside : state.holder = .broadcasting)
      (counted : state.waiting ≠ 0) (empty : state.ch = false) :
      MonitorStep code .broadcastSend state { state with ch := true, waiting := state.waiting - 1 }
  | broadcastEnd (state : Monitor σ ρ τ) (inside : state.holder = .broadcasting) (none : state.waiting = 0) :
      MonitorStep code .unlock state { state with holder := .free }
  | unlock (state : Monitor σ ρ τ) (inside : state.holder = .signalling 0) :
      MonitorStep code .unlock state { state with holder := .free }

/-- Goroutines about to call, on a condition variable nobody has used. -/
def Monitor.start (shared : σ) (requests : List ρ) : Monitor σ ρ τ :=
  { shared := shared, goroutines := requests.map .calling }

namespace Monitor

def selecting (state : Monitor σ ρ τ) : Nat := state.goroutines.countP (·.isSelecting)

def cancelled (state : Monitor σ ρ τ) : Nat := state.goroutines.countP (·.isCancelled)

def Sends (state : Monitor σ ρ τ) : Prop :=
  (∃ count, state.holder = .sending count) ∨ (state.holder = .broadcasting ∧ state.waiting ≠ 0)

end Monitor

def Holder.sends : Holder → Bool
  | .sending _ | .broadcasting => true
  | _ => false

theorem not_sends {state : Monitor σ ρ τ} {holder : Holder} (inside : state.holder = holder)
    (quiet : holder.sends = false) : ¬ state.Sends := by
  subst inside
  rintro (⟨count, sending⟩ | ⟨broadcasting, -⟩)
  · rw [sending] at quiet
    cases quiet
  · rw [broadcasting] at quiet
    cases quiet

/-- Where the goroutine stands, statement by statement. -/
def Goroutine.position : Goroutine ρ τ → Cond.Position
  | .calling _ | .left _ _ => .outside
  | .selecting _ => .selecting
  | .cancelled _ => .cancelled
  | .woken _ => .received

def Holder.position : Holder → Cond.Position
  | .free => .outside
  | .signalling _ => .holding
  | .sending _ => .signalSend
  | .broadcasting => .broadcast
  | .receiving => .draining

/-- Every goroutine in Wait is counted, or a value was sent or is being sent for it. A cancelled one only receives
when nobody is counted. -/
structure Balanced (state : Monitor σ ρ τ) : Prop where
  balance : state.selecting + state.cancelled + state.holder.position.inWait =
    state.waiting + state.ch.toNat + state.holder.position.sending
  drained : state.holder = .receiving → state.waiting = 0

namespace Monitor

def positions (state : Monitor σ ρ τ) : List Cond.Position :=
  state.holder.position :: state.goroutines.map (·.position)

/-- Reached when the goroutines run statement by statement; whoever has the lock is one more of them. -/
def Interleaved (count : Nat) (state : Monitor σ ρ τ) : Prop :=
  ∃ vars positions, Interleaves Cond.Move (Cond.start count) ⟨vars, positions⟩ ∧ positions.Perm state.positions ∧
    vars.waiting = state.waiting ∧ vars.ch = state.ch

end Monitor

section step
variable {code : Critical σ ρ τ} {label : Label} {state next : Monitor σ ρ τ} {front back : List (Goroutine ρ τ)}
  {old : Goroutine ρ τ} {holder : Holder} {count : Nat} {positions : List Cond.Position}

theorem positions_placed (here : state.goroutines = front ++ old :: back) :
    state.positions.Perm (old.position :: state.holder.position :: (front ++ back).map (·.position)) := by
  rw [Monitor.positions, here, map_append, map_cons, map_append]
  exact (perm_middle.cons _).trans (.swap _ _ _)

theorem positions_held (inside : state.holder = holder) :
    state.positions.Perm (holder.position :: state.goroutines.map (·.position)) := by
  rw [Monitor.positions, inside]

theorem total_positions (weight : Cond.Position → Nat) (shown : positions.Perm state.positions) :
    total weight positions = weight state.holder.position + total weight (state.goroutines.map (·.position)) := by
  rw [← total_cons]
  exact (shown.map weight).sum_eq

theorem total_holder (weight : Cond.Position → Nat) (shown : positions.Perm state.positions)
    (none : ∀ goroutine : Goroutine ρ τ, weight goroutine.position = 0) :
    total weight positions = weight state.holder.position := by
  rw [total_positions weight shown, total_eq_zero, Nat.add_zero]
  intro here member
  obtain ⟨goroutine, -, rfl⟩ := mem_map.mp member
  exact none goroutine

theorem Goroutine.Entering.move {request : ρ} {vars : Cond.Vars} (enters : old.Entering request)
    (free : vars.locked = false) : Cond.Move vars old.position { vars with locked := true } .holding := by
  cases enters with
  | calling => exact .lock free
  | woken => exact .received free

theorem Monitor.Interleaved.moves {here there : Cond.Position} {others : List Cond.Position}
    (interleaved : state.Interleaved count) (before : state.positions.Perm (here :: others))
    (now : next.positions.Perm (there :: others))
    (moves : ∀ vars : Cond.Vars, (state.holder = .free → vars.locked = false) → vars.waiting = state.waiting →
      vars.ch = state.ch →
      ∃ after, Solo Cond.Move vars here after there ∧ after.waiting = next.waiting ∧ after.ch = next.ch) :
    next.Interleaved count := by
  obtain ⟨vars, positions, reached, shown, waiting, ch⟩ := interleaved
  have unlocked (free : state.holder = .free) : vars.locked = false := by
    have lock := (Cond.reached_conserved reached).lock
    rw [total_holder _ shown (by rintro (_ | _) <;> rfl), free] at lock
    exact Bool.toNat_eq_zero.mp lock.symm
  obtain ⟨after, moved, shows⟩ := moves vars unlocked waiting ch
  obtain ⟨last, reachedNext, shownNext⟩ := reached.moves moved (shown.trans before)
  exact ⟨after, last, reachedNext, shownNext.trans now.symm, shows⟩

theorem step_interleaved (interleaved : state.Interleaved count) (step : MonitorStep code label state next) :
    next.Interleaved count := by
  cases step with
  | wait _ _ _ _ _ _ free here enters =>
    refine interleaved.moves (positions_placed here) (positions_placed rfl) fun vars unlocked waiting ch => ?_
    refine ⟨_, .next (.next (.next .start (enters.move (unlocked free))) .wait) .waitUnlock, ?_, ch⟩
    exact congrArg (· + 1) waiting
  | leave _ _ _ _ _ _ _ free here enters =>
    refine interleaved.moves (positions_placed here) (positions_placed rfl) fun vars unlocked waiting ch => ?_
    exact ⟨_, .next (.next .start (enters.move (unlocked free))) .unlock, waiting, ch⟩
  | receive _ _ _ _ here full =>
    refine interleaved.moves (positions_placed here) (positions_placed rfl) fun vars _ waiting ch => ?_
    exact ⟨_, .next .start (.receive (ch.trans full)), waiting, rfl⟩
  | cancel _ _ _ _ here =>
    refine interleaved.moves (positions_placed here) (positions_placed rfl) fun vars _ waiting ch => ?_
    exact ⟨_, .next .start .cancel, waiting, ch⟩
  | giveUp _ _ _ _ free here counted =>
    refine interleaved.moves (positions_placed here) (positions_placed rfl) fun vars unlocked waiting ch => ?_
    refine ⟨_, .next (.next (.next .start (.cancelled (unlocked free))) (.withdraw ?_)) .unlock, ?_, ch⟩ <;>
    · simp only
      omega
  | giveUpSignalled _ front back request free here none =>
    have placed := positions_placed here
    rw [free] at placed
    have left := (@perm_middle _ (Goroutine.left request (code.abandoned request)) front back).map (·.position)
    refine interleaved.moves placed (left.cons Cond.Position.draining) fun vars unlocked waiting ch => ?_
    exact ⟨_, .next (.next .start (.cancelled (unlocked free))) (.signalled (by simp only; omega)), waiting, ch⟩
  | drain _ inside full =>
    refine interleaved.moves (positions_held inside) (positions_held rfl) fun vars _ waiting ch => ?_
    exact ⟨_, .next (.next .start (.drain (ch.trans full))) .unlock, waiting, rfl⟩
  | resolve _ _ _ _ _ _ _ here =>
    refine interleaved.moves (positions_placed here) (positions_placed rfl) fun vars _ waiting ch => ?_
    exact ⟨_, .start, waiting, ch⟩
  | enter _ _ wake free =>
    refine interleaved.moves (positions_held free) (positions_held rfl) fun vars unlocked waiting ch => ?_
    cases wake with
    | signals => exact ⟨_, .next .start (.lock (unlocked free)), waiting, ch⟩
    | broadcast => exact ⟨_, .next (.next .start (.lock (unlocked free))) .broadcast, waiting, ch⟩
  | signalNone _ _ inside none =>
    refine interleaved.moves (positions_held inside) (positions_held rfl) fun vars _ waiting ch => ?_
    exact ⟨_, .next .start (.signalNone (by omega)), waiting, ch⟩
  | signal _ _ inside counted =>
    refine interleaved.moves (positions_held inside) (positions_held rfl) fun vars _ waiting ch => ?_
    exact ⟨_, .next .start (.signal (by omega)), by simp only; omega, ch⟩
  | send _ _ inside empty =>
    refine interleaved.moves (positions_held inside) (positions_held rfl) fun vars _ waiting ch => ?_
    exact ⟨_, .next .start (.signalSend (ch.trans empty)), waiting, rfl⟩
  | broadcastSend _ inside counted empty =>
    refine interleaved.moves (positions_held inside) (positions_held inside) fun vars _ waiting ch => ?_
    refine ⟨_, .next (.next (.next .start (.broadcastNext ?_)) (.broadcastSend (ch.trans empty))) .broadcastStep, ?_, rfl⟩
    · omega
    · simp only
      omega
  | broadcastEnd _ inside none =>
    refine interleaved.moves (positions_held inside) (positions_held rfl) fun vars _ waiting ch => ?_
    exact ⟨_, .next (.next .start (.broadcastEnd (by omega))) .unlock, waiting, ch⟩
  | unlock _ inside =>
    refine interleaved.moves (positions_held inside) (positions_held rfl) fun vars _ waiting ch => ?_
    exact ⟨_, .next .start .unlock, waiting, ch⟩

theorem total_inWait (goroutines : List (Goroutine ρ τ)) :
    total Cond.Position.inWait (goroutines.map (·.position)) =
      goroutines.countP (·.isSelecting) + goroutines.countP (·.isCancelled) := by
  induction goroutines with
  | nil => rfl
  | cons goroutine rest ih =>
    rw [map_cons, total_cons, ih, countP_cons, countP_cons]
    cases goroutine <;> simp [Goroutine.position, Cond.Position.inWait, Goroutine.isSelecting, Goroutine.isCancelled] <;>
      omega

theorem Monitor.Interleaved.balanced (interleaved : state.Interleaved count) : Balanced state := by
  obtain ⟨vars, positions, reached, shown, waiting, ch⟩ := interleaved
  have conserved := Cond.reached_conserved reached
  constructor
  · have balance := conserved.balance
    simp only at balance
    rw [total_holder Cond.Position.owing shown (by rintro (_ | _) <;> rfl),
      total_holder Cond.Position.sending shown (by rintro (_ | _) <;> rfl),
      total_positions Cond.Position.inWait shown, total_inWait, waiting, ch] at balance
    have owing : state.holder.position.owing = 0 := by cases state.holder <;> rfl
    rw [Monitor.selecting, Monitor.cancelled]
    omega
  · intro inside
    have none := conserved.knows .draining (shown.mem_iff.mpr (by rw [Monitor.positions, inside]; exact mem_cons_self))
    exact Int.ofNat.inj (waiting.symm.trans none)

end step

section reached
variable {code : Critical σ ρ τ} {allowed : Label → Monitor σ ρ τ → Prop} {shared : σ} {requests : List ρ}
  {state : Monitor σ ρ τ} (reached : Reached (MonitorStep code) allowed (.start shared requests) state)
include reached

/-- Every run here is one of the goroutines statement by statement. -/
theorem reached_interleaved : state.Interleaved (requests.length + 1) := by
  induction reached with
  | start =>
    refine ⟨_, _, .start, ?_, rfl, rfl⟩
    rw [Monitor.positions, Monitor.start, map_map, replicate_succ]
    exact .of_eq (congrArg _ map_const'.symm)
  | step _ _ moved interleaved => exact step_interleaved interleaved moved

theorem reached_balanced : Balanced state :=
  (reached_interleaved reached).balanced

end reached

namespace Monitor

/-- Whoever is inside Signal, Broadcast or the receive of Wait is not stuck: some goroutine can take a step. -/
def Progress (code : Critical σ ρ τ) (state : Monitor σ ρ τ) : Prop :=
  state.holder ≠ .free → ∃ label next, label ≠ .resolve ∧ MonitorStep code label state next

def Blocked (state : Monitor σ ρ τ) : Prop :=
  state.Sends ∧ state.ch = true ∧ state.selecting = 0

end Monitor

/-- A send on the full channel begins only while some goroutine is in the select, and the last one there stays while a
sender is blocked. -/
def SendsToSelecting (label : Label) (state : Monitor σ ρ τ) : Prop :=
  match label with
  | .signal | .enter .broadcast => state.waiting = 0 ∨ state.ch = false ∨ 0 < state.selecting
  | .broadcastSend => state.waiting ≤ 1 ∨ 0 < state.selecting
  | .cancel => 1 < state.selecting ∨ state.ch = false ∨ ¬ state.Sends
  | _ => True

section progress
variable {code : Critical σ ρ τ} {label : Label} {state next : Monitor σ ρ τ}

theorem exists_selecting (some : 0 < state.selecting) :
    ∃ front request back, state.goroutines = front ++ .selecting request :: back := by
  obtain ⟨goroutine, member, selects⟩ := countP_pos_iff.mp some
  obtain ⟨front, back, here⟩ := append_of_mem member
  cases goroutine with
  | selecting request => exact ⟨front, request, back, here⟩
  | _ => cases selects

theorem selecting_pos {front back : List (Goroutine ρ τ)} {request : ρ}
    (here : state.goroutines = front ++ .selecting request :: back) : 0 < state.selecting := by
  refine countP_pos_iff.mpr ⟨.selecting request, ?_, rfl⟩
  rw [here]
  exact mem_append_right _ mem_cons_self

theorem not_progress_of_blocked (blocked : state.Blocked) : ¬ state.Progress code := by
  obtain ⟨sends, full, nobody⟩ := blocked
  intro progress
  obtain ⟨label, next, cond, step⟩ := progress fun free => not_sends free rfl sends
  have empty (inside : state.ch = false) : False := by
    rw [full] at inside
    cases inside
  cases step with
  | wait _ _ _ _ _ _ free | leave _ _ _ _ _ _ _ free | giveUp _ _ _ _ free | giveUpSignalled _ _ _ _ free
  | enter _ _ _ free => exact not_sends free rfl sends
  | receive _ _ _ _ here | cancel _ _ _ _ here => exact absurd nobody (Nat.ne_of_gt (selecting_pos here))
  | drain _ inside | signalNone _ _ inside | signal _ _ inside | unlock _ inside => exact not_sends inside rfl sends
  | resolve => exact cond rfl
  | send _ _ _ vacant | broadcastSend _ _ _ vacant => exact empty vacant
  | broadcastEnd _ inside none =>
    rcases sends with ⟨count, sending⟩ | ⟨-, counted⟩
    · rw [inside] at sending
      cases sending
    · exact counted none

theorem progress_of_not_blocked (balanced : Balanced state) (able : ¬ state.Blocked) :
    state.Progress code := by
  intro busy
  have receive (sends : state.Sends) (full : state.ch = true) :
      ∃ label next, label ≠ .resolve ∧ MonitorStep code label state next := by
    have some : 0 < state.selecting := Nat.pos_of_ne_zero fun nobody => able ⟨sends, full, nobody⟩
    obtain ⟨front, request, back, here⟩ := exists_selecting some
    exact ⟨_, _, Label.noConfusion, .receive state front back request here full⟩
  cases inside : state.holder with
  | free => exact absurd inside busy
  | signalling count =>
    cases count with
    | zero => exact ⟨_, _, Label.noConfusion, .unlock state inside⟩
    | succ count =>
      by_cases none : state.waiting = 0
      · exact ⟨_, _, Label.noConfusion, .signalNone state count inside none⟩
      · exact ⟨_, _, Label.noConfusion, .signal state count inside none⟩
  | sending count =>
    cases channel : state.ch with
    | false => exact ⟨_, _, Label.noConfusion, .send state count inside channel⟩
    | true => exact receive (.inl ⟨count, inside⟩) channel
  | broadcasting =>
    by_cases none : state.waiting = 0
    · exact ⟨_, _, Label.noConfusion, .broadcastEnd state inside none⟩
    · cases channel : state.ch with
      | false => exact ⟨_, _, Label.noConfusion, .broadcastSend state inside none channel⟩
      | true => exact receive (.inr ⟨inside, none⟩) channel
  | receiving =>
    -- nobody is counted, so the value was sent for the goroutine that receives
    have full : state.ch = true := by
      have balance := balanced.balance
      rw [inside, balanced.drained inside] at balance
      simp only [Holder.position, Cond.Position.inWait, Cond.Position.sending] at balance
      cases channel : state.ch with
      | false =>
        rw [channel, toNat_false] at balance
        omega
      | true => rfl
    exact ⟨_, _, Label.noConfusion, .drain state inside full⟩

/-- A step leads into a blocked state exactly when it does not meet the condition. -/
theorem step_not_blocked (able : ¬ state.Blocked) (step : MonitorStep code label state next) :
    SendsToSelecting label state ↔ ¬ next.Blocked := by
  have idle {other : Monitor σ ρ τ} (sends : ¬ other.Sends) : True ↔ ¬ other.Blocked :=
    ⟨fun _ blocked => sends blocked.1, fun _ => trivial⟩
  cases step with
  | wait _ _ _ _ _ _ free | leave _ _ _ _ _ _ _ free | giveUp _ _ _ _ free => exact idle (not_sends free rfl)
  | receive => exact ⟨fun _ blocked => absurd blocked.2.1 Bool.noConfusion, fun _ => trivial⟩
  | cancel _ front back request here =>
    have fewer : state.selecting = Monitor.selecting
        { state with goroutines := front ++ .cancelled request :: back } + 1 := by
      simp only [Monitor.selecting, here, countP_append, countP_cons,
        Goroutine.isSelecting, false_eq_true, if_true, if_false]
      omega
    constructor
    · rintro (more | vacant | others) ⟨sends, full, nobody⟩
      · omega
      · exact absurd (vacant.symm.trans full) Bool.noConfusion
      · exact others sends
    · intro notBlocked
      by_cases last : state.selecting = 1
      · by_cases full : state.ch = true
        · exact .inr (.inr fun sends => notBlocked ⟨sends, full, by omega⟩)
        · exact .inr (.inl (eq_false_iff.mpr full))
      · exact .inl (by omega)
  | giveUpSignalled | drain | send | broadcastEnd | unlock => exact idle (not_sends rfl rfl)
  | resolve _ front back request before after shared here =>
    refine ⟨fun _ blocked => able ⟨blocked.1, blocked.2.1, ?_⟩, fun _ => trivial⟩
    rw [← blocked.2.2, Monitor.selecting, Monitor.selecting, here, countP_append, countP_append]
    rfl
  | enter _ shared wake free =>
    cases wake with
    | signals count => exact idle (not_sends rfl rfl)
    | broadcast =>
      constructor
      · rintro (none | vacant | some) ⟨sends, full, nobody⟩
        · rcases sends with ⟨count, sending⟩ | ⟨-, counted⟩
          · cases sending
          · exact counted none
        · exact absurd (vacant.symm.trans full) Bool.noConfusion
        · exact absurd nobody (Nat.ne_of_gt some)
      · intro notBlocked
        by_cases none : state.waiting = 0
        · exact .inl none
        · by_cases full : state.ch = true
          · exact .inr (.inr (Nat.pos_of_ne_zero fun nobody =>
              notBlocked ⟨.inr ⟨rfl, none⟩, full, nobody⟩))
          · exact .inr (.inl (eq_false_iff.mpr full))
  | signalNone _ _ _ none =>
    exact ⟨fun _ blocked => not_sends rfl rfl blocked.1, fun _ => .inl none⟩
  | signal _ count _ counted =>
    constructor
    · rintro (none | vacant | some) ⟨-, full, nobody⟩
      · exact counted none
      · exact absurd (vacant.symm.trans full) Bool.noConfusion
      · exact absurd nobody (Nat.ne_of_gt some)
    · intro notBlocked
      by_cases full : state.ch = true
      · exact .inr (.inr (Nat.pos_of_ne_zero fun nobody =>
          notBlocked ⟨.inl ⟨count, rfl⟩, full, nobody⟩))
      · exact .inr (.inl (eq_false_iff.mpr full))
  | broadcastSend _ inside counted =>
    constructor
    · rintro (few | some) ⟨sends, -, nobody⟩
      · rcases sends with ⟨count, sending⟩ | ⟨-, more⟩
        · exact absurd (inside.symm.trans sending) Holder.noConfusion
        · simp only at more
          omega
      · exact absurd nobody (Nat.ne_of_gt some)
    · intro notBlocked
      by_cases few : state.waiting ≤ 1
      · exact .inl few
      · exact .inr (Nat.pos_of_ne_zero fun nobody =>
          notBlocked ⟨.inr ⟨inside, by simp only; omega⟩, rfl, nobody⟩)

/-- Runs that meet the condition never get stuck, and a step that does not leads into a state in which nobody can
move. -/
theorem cond_progress_exact (code : Critical σ ρ τ) (shared : σ) (requests : List ρ) :
    (∀ state, Reached (MonitorStep code) SendsToSelecting (.start shared requests) state → state.Progress code) ∧
    ∀ label state next, Reached (MonitorStep code) Always (.start shared requests) state →
      MonitorStep code label state next → ¬ SendsToSelecting label state → ¬ next.Progress code := by
  constructor
  · intro state reached
    apply progress_of_not_blocked (reached_balanced reached)
    induction reached with
    | start =>
      rintro ⟨⟨count, inside⟩ | ⟨inside, -⟩, -⟩ <;> cases inside
    | step _ meets moved able => exact (step_not_blocked able moved).mp meets
  · intro label state next reached step fails
    apply not_progress_of_blocked
    by_contra able
    have free : ¬ state.Blocked := by
      intro blocked
      by_cases outside : label = .resolve
      · subst outside
        exact fails trivial
      · have stuck := @not_progress_of_blocked _ _ _ code _ blocked
        exact stuck fun _ => ⟨label, next, outside, step⟩
    exact fails ((step_not_blocked free step).mpr able)

end progress

namespace Goroutine

def request : Goroutine ρ τ → ρ
  | .calling request | .selecting request | .cancelled request | .woken request => request
  | .left request _ => request

end Goroutine

/-- Somebody will run after the last change: a value is sent or about to be, or a
goroutine that received one waits for the lock. -/
def Monitor.WakePending (state : Monitor σ ρ τ) : Prop :=
  state.ch = true ∨ (∃ count, state.holder = .sending count) ∨
    (∃ count, state.holder = .signalling (count + 1)) ∨ state.holder = .broadcasting ∨
    ∃ request, .woken request ∈ state.goroutines

/-- Code that never goes idle without waking somebody: a goroutine that goes into Wait, or is done, leaves the state
busy. -/
structure NeverIdle (code : Critical σ ρ τ) (kept : σ → Prop) (fits : ρ → Prop) (idle : σ → Prop) :
    Prop where
  attempt : ∀ request before after result, kept before → fits request →
    code.attempt request before after result → kept after ∧ ¬ idle after
  resolve : ∀ before result after last, kept before → code.resolve before result after last →
    kept after ∧ (idle after → idle before)
  critical : ∀ before after wake, kept before → code.critical before after wake →
    kept after ∧ (idle after → idle before ∨ wake ≠ .signals 0)

/-- Whoever is in Wait on an idle state is about to be woken. -/
structure Alive (kept : σ → Prop) (fits : ρ → Prop) (idle : σ → Prop) (state : Monitor σ ρ τ) : Prop where
  shared : kept state.shared
  requests : ∀ goroutine ∈ state.goroutines, fits goroutine.request
  pending : 0 < state.selecting → idle state.shared → state.WakePending

section alive
variable {code : Critical σ ρ τ} {kept : σ → Prop} {fits : ρ → Prop} {idle : σ → Prop} {label : Label}
  {state next : Monitor σ ρ τ} {front back : List (Goroutine ρ τ)} {old new : Goroutine ρ τ}

theorem fits_replace (here : state.goroutines = front ++ old :: back) (same : new.request = old.request)
    (requests : ∀ goroutine ∈ state.goroutines, fits goroutine.request) :
    ∀ goroutine ∈ front ++ new :: back, fits goroutine.request := by
  rw [here] at requests
  apply forall_placed requests
  rw [same]
  exact requests old (mem_append_right _ mem_cons_self)

theorem selecting_replace (fewer : new.isSelecting = true → old.isSelecting = true)
    (some : 0 < (front ++ new :: back).countP (·.isSelecting)) : 0 < (front ++ old :: back).countP (·.isSelecting) :=
  countP_pos_iff.mpr (exists_placed (countP_pos_iff.mp some) fewer)

theorem pending_replace {old new : Goroutine ρ τ}
    (other : ∀ request, old ≠ .woken request) (here : state.goroutines = front ++ old :: back)
    (pending : state.WakePending) :
    Monitor.WakePending { state with goroutines := front ++ new :: back } := by
  rcases pending with full | sending | signalling | broadcasting | ⟨request, member⟩
  · exact .inl full
  · exact .inr (.inl sending)
  · exact .inr (.inr (.inl signalling))
  · exact .inr (.inr (.inr (.inl broadcasting)))
  · rw [here] at member
    exact .inr (.inr (.inr (.inr ⟨request, (mem_placed new member).resolve_left fun same => other request same.symm⟩)))

theorem Monitor.WakePending.outside {shared : σ} {holder : Holder} (pending : state.WakePending)
    (quiet : state.holder = .free ∨ state.holder = .signalling 0) :
    Monitor.WakePending { state with shared := shared, holder := holder } := by
  rcases pending with full | ⟨_, inside⟩ | ⟨_, inside⟩ | inside | member
  · exact .inl full
  · simp [inside] at quiet
  · simp [inside] at quiet
  · simp [inside] at quiet
  · exact .inr (.inr (.inr (.inr member)))

theorem full_of_uncounted (balanced : Balanced state) (none : state.waiting = 0)
    (quiet : state.holder.position.sending = 0) (some : 0 < state.selecting) : state.ch = true := by
  have balance := balanced.balance
  cases channel : state.ch with
  | true => rfl
  | false =>
    rw [channel, toNat_false] at balance
    omega

theorem nobody_while_receiving (balanced : Balanced state) (inside : state.holder = .receiving) :
    state.selecting = 0 := by
  have balance := balanced.balance
  have bound := toNat_le state.ch
  rw [inside, balanced.drained inside] at balance
  simp only [Holder.position, Cond.Position.inWait, Cond.Position.sending] at balance
  omega

section
variable (rules : NeverIdle code kept fits idle)
include rules

theorem Alive.attempt (alive : Alive kept fits idle state)
    {front back : List (Goroutine ρ τ)} {entering placed : Goroutine ρ τ} {result : Option τ}
    (here : state.goroutines = front ++ entering :: back) (same : placed.request = entering.request)
    (attempted : code.attempt placed.request state.shared next.shared result)
    (now : next.goroutines = front ++ placed :: back) : Alive kept fits idle next := by
  have fit : fits placed.request := by
    rw [same]
    exact alive.requests entering (by rw [here]; exact mem_append_right _ mem_cons_self)
  obtain ⟨keptAfter, busy⟩ := rules.attempt _ _ _ _ alive.shared fit attempted
  refine ⟨keptAfter, ?_, fun _ idle => absurd idle busy⟩
  rw [now]
  exact fits_replace here same alive.requests

theorem step_alive (balanced : Balanced state) (balancedNext : Balanced next)
    (alive : Alive kept fits idle state) (step : MonitorStep code label state next) :
    Alive kept fits idle next := by
  have ⟨shared, requests, pending⟩ := alive
  cases step with
  | wait _ front back entering request after free here enters attempted =>
    have same : (Goroutine.selecting request : Goroutine ρ τ).request = entering.request := by
      cases enters <;> rfl
    exact alive.attempt rules here same attempted rfl
  | leave _ front back entering request result after free here enters attempted =>
    have same : (Goroutine.left request result : Goroutine ρ τ).request = entering.request := by
      cases enters <;> rfl
    exact alive.attempt rules here same attempted rfl
  | receive _ front back request here full =>
    exact ⟨shared, fits_replace here rfl requests, fun _ _ =>
      .inr (.inr (.inr (.inr ⟨request, mem_append_right _ mem_cons_self⟩)))⟩
  | cancel _ front back request here =>
    refine ⟨shared, fits_replace here rfl requests, fun some idle => ?_⟩
    have before : 0 < state.selecting := selecting_pos here
    exact pending_replace (fun _ same => by cases same) here (pending before idle)
  | giveUp _ front back request free here counted =>
    refine ⟨shared, fits_replace here rfl requests, fun some idle => ?_⟩
    have before : 0 < state.selecting := by
      rw [Monitor.selecting, here]
      exact selecting_replace (fun absent => by cases absent) some
    exact pending_replace (fun _ same => by cases same) here (pending before idle)
  | giveUpSignalled _ front back request free here none =>
    refine ⟨shared, fits_replace here rfl requests, fun some _ => ?_⟩
    exact absurd (nobody_while_receiving balancedNext rfl) (Nat.ne_of_gt some)
  | drain _ inside full =>
    exact ⟨shared, requests, fun some _ =>
      absurd (nobody_while_receiving balanced inside) (Nat.ne_of_gt some)⟩
  | resolve _ front back request before after last here resolved =>
    obtain ⟨keptAfter, idleBefore⟩ := rules.resolve _ _ _ _ shared resolved
    refine ⟨keptAfter, fits_replace here rfl requests, fun some idle => ?_⟩
    have earlier : 0 < state.selecting := by
      rw [Monitor.selecting, here]
      exact selecting_replace (fun absent => by cases absent) some
    exact pending_replace (fun _ same => by cases same) here (pending earlier (idleBefore idle))
  | enter _ after wake free entered =>
    obtain ⟨keptAfter, wakes⟩ := rules.critical _ _ _ shared entered
    refine ⟨keptAfter, requests, fun some idleAfter => ?_⟩
    have waked (loud : wake ≠ .signals 0) :
        Monitor.WakePending { state with shared := after, holder := wake.holder } := by
      cases wake with
      | broadcast => exact .inr (.inr (.inr (.inl rfl)))
      | signals count =>
        cases count with
        | zero => exact absurd rfl loud
        | succ count => exact .inr (.inr (.inl ⟨count, rfl⟩))
    rcases wakes idleAfter with idleBefore | loud
    · exact (pending some idleBefore).outside (.inl free)
    · exact waked loud
  | signalNone _ _ _ none | broadcastEnd _ _ none =>
    refine ⟨shared, requests, fun some _ => .inl ?_⟩
    exact full_of_uncounted balancedNext none rfl some
  | signal _ count inside counted => exact ⟨shared, requests, fun _ _ => .inr (.inl ⟨count, rfl⟩)⟩
  | send | broadcastSend => exact ⟨shared, requests, fun _ _ => .inl rfl⟩
  | unlock _ inside =>
    exact ⟨shared, requests, fun some idle => (pending some idle).outside (.inr inside)⟩

theorem reached_alive {allowed : Label → Monitor σ ρ τ → Prop} {first : σ} {requests : List ρ}
    (start : kept first) (fit : ∀ request ∈ requests, fits request)
    (reached : Reached (MonitorStep code) allowed (.start first requests) state) :
    Alive kept fits idle state := by
  induction reached with
  | start =>
    refine ⟨start, ?_, ?_⟩
    · intro goroutine member
      obtain ⟨request, listed, rfl⟩ := mem_map.mp member
      exact fit request listed
    · intro some
      obtain ⟨goroutine, member, selects⟩ := countP_pos_iff.mp some
      obtain ⟨request, -, rfl⟩ := mem_map.mp member
      cases selects
  | step earlier meets moved alive =>
    exact step_alive rules (reached_balanced earlier) (reached_balanced (earlier.step meets moved)) alive moved

end

end alive

namespace Goroutine

def result : Goroutine ρ τ → Option τ
  | .left _ result => some result
  | _ => none

end Goroutine

def Monitor.results (state : Monitor σ ρ τ) : Multiset τ := state.goroutines.filterMap (·.result)

inductive Changes (code : Critical σ ρ τ) (shared : σ) (results : Multiset τ) : σ → Multiset τ → Prop where
  | quiet : Changes code shared results shared results
  | wait {request : ρ} {after : σ} (attempted : code.attempt request shared after none) :
      Changes code shared results after results
  | leave {request : ρ} {after : σ} {result : τ} (attempted : code.attempt request shared after (some result)) :
      Changes code shared results after (result ::ₘ results)
  | abandon (request : ρ) : Changes code shared results shared (code.abandoned request ::ₘ results)
  | resolve {result last : τ} {after : σ} {others : Multiset τ} (here : results = result ::ₘ others)
      (resolved : code.resolve shared result after last) : Changes code shared results after (last ::ₘ others)
  | critical {after : σ} {wake : Wake} (entered : code.critical shared after wake) :
      Changes code shared results after results

def Keeps (code : Critical σ ρ τ) (kept : σ → Multiset τ → Prop) : Prop :=
  ∀ before after results last, kept before results → Changes code before results after last → kept after last

section keeps
variable {code : Critical σ ρ τ} {kept : σ → Multiset τ → Prop} {label : Label} {state next : Monitor σ ρ τ}

theorem results_split (front back : List (Goroutine ρ τ)) (goroutine : Goroutine ρ τ) :
    (((front ++ goroutine :: back).filterMap (·.result) : List τ) : Multiset τ) =
      goroutine.result.toList + ((front ++ back).filterMap (·.result) : List τ) := by
  rw [Multiset.coe_add, Multiset.coe_eq_coe]
  calc
    List.Perm _ ((goroutine :: (front ++ back)).filterMap (·.result)) := perm_middle.filterMap _
    List.Perm _ _ := by cases goroutine <;> exact List.Perm.refl _

theorem step_changes (step : MonitorStep code label state next) :
    Changes code state.shared state.results next.shared next.results := by
  unfold Monitor.results
  cases step with
  | wait _ front back entering request shared free here enters attempted =>
    rw [here, results_split, results_split]
    cases enters <;> exact .wait attempted
  | leave _ front back entering request result shared free here enters attempted =>
    rw [here, results_split, results_split]
    cases enters <;> exact .leave attempted
  | receive _ _ _ _ here | cancel _ _ _ _ here =>
    rw [here, results_split, results_split]
    exact .quiet
  | giveUp _ _ _ request _ here | giveUpSignalled _ _ _ request _ here =>
    rw [here, results_split, results_split]
    exact .abandon request
  | resolve _ front back request result last shared here resolved =>
    rw [here, results_split, results_split]
    exact @Changes.resolve _ _ _ code _ _ result last shared
      ((front ++ back).filterMap (·.result) : List τ) rfl resolved
  | enter _ shared wake free entered => exact .critical entered
  | drain | signalNone | signal | send | broadcastSend | broadcastEnd | unlock => exact .quiet

theorem reached_keeps {allowed : Label → Monitor σ ρ τ → Prop} {first : σ} {requests : List ρ}
    (rules : Keeps code kept) (start : kept first 0)
    (reached : Reached (MonitorStep code) allowed (.start first requests) state) :
    kept state.shared state.results := by
  induction reached with
  | start =>
    have none : (Monitor.start first requests : Monitor σ ρ τ).results = 0 := by
      rw [Monitor.results, Monitor.start, filterMap_map]
      exact congrArg _ (filterMap_eq_nil_iff.mpr fun _ _ => rfl)
    rw [none]
    exact start
  | step _ _ moved before => exact rules _ _ _ _ before (step_changes moved)

end keeps

/-- Goroutines that lock and wait, and others that lock, signal and unlock. -/
def waitAndSignal : Critical Unit Unit Unit where
  attempt _ _ _ result := result = none
  abandoned _ := ()
  resolve _ _ _ _ := False
  critical _ _ wake := wake = .signals 1

/-- Two goroutines wait, one value is sent, both contexts end, and the next Signal
blocks on the full channel with the lock held. -/
theorem cond_deadlock :
    ∃ state, Reached (MonitorStep waitAndSignal) Always (.start () [(), ()]) state ∧
      ¬ state.Progress waitAndSignal := by
  have initial : Reached (MonitorStep waitAndSignal) Always (.start () [(), ()]) (.start () [(), ()]) := .start
  have first := initial.step trivial (.wait _ [] [.calling ()] _ () () rfl rfl (.calling ()) rfl)
  have second := first.step trivial (.wait _ [.selecting ()] [] _ () () rfl rfl (.calling ()) rfl)
  have signalled := (second.step trivial (.enter _ () (.signals 1) rfl rfl)).step trivial
    (.signal _ 0 rfl Nat.noConfusion)
  have sent := (signalled.step trivial (.send _ 0 rfl rfl)).step trivial (.unlock _ rfl)
  have oneLeft := sent.step trivial (.cancel _ [] [.selecting ()] () rfl)
  have noneLeft := oneLeft.step trivial (.cancel _ [.cancelled ()] [] () rfl)
  have again := (noneLeft.step trivial (.enter _ () (.signals 1) rfl rfl)).step trivial
    (.signal _ 0 rfl Nat.noConfusion)
  exact ⟨_, again, not_progress_of_blocked ⟨.inl ⟨0, rfl⟩, rfl, rfl⟩⟩

end CollectorFormal.Queue
