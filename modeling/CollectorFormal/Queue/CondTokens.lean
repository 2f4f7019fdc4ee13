import CollectorFormal.Lib.Runs

/-! The condition variable of the queues, statement by statement.

Any number of goroutines lock, call Signal, Broadcast and Wait, and unlock. Every Signal with somebody counted, and
every iteration of Broadcast, issues one token, which travels through the channel of capacity one. -/

namespace CollectorFormal.Queue.Cond

open Lib List

inductive Position where
  | outside
  | holding
  | signalSend
  | broadcast
  | broadcastSend
  /-- Has sent; the loop is about to decrease the count. -/
  | broadcastSent
  | waitUnlock
  | selecting
  | cancelled
  | cancelledHolding
  | draining
  | received
deriving DecidableEq

structure Vars where
  locked : Bool := false
  waiting : Int := 0
  ch : Bool := false
  entered : Nat := 0
  /-- Tokens that Signal or Broadcast set out to send. -/
  issued : Nat := 0
  delivered : Nat := 0
  /-- Goroutines whose context ended and that took themselves out of the count. -/
  withdrawn : Nat := 0

inductive Move : Vars → Position → Vars → Position → Prop where
  | lock {v : Vars} (free : v.locked = false) : Move v .outside { v with locked := true } .holding
  | unlock {v : Vars} : Move v .holding { v with locked := false } .outside
  | signalNone {v : Vars} (none : v.waiting = 0) : Move v .holding v .holding
  | signal {v : Vars} (counted : v.waiting ≠ 0) :
      Move v .holding { v with waiting := v.waiting - 1, issued := v.issued + 1 } .signalSend
  | signalSend {v : Vars} (empty : v.ch = false) : Move v .signalSend { v with ch := true } .holding
  | broadcast {v : Vars} : Move v .holding v .broadcast
  | broadcastEnd {v : Vars} (none : ¬ 0 < v.waiting) : Move v .broadcast v .holding
  | broadcastNext {v : Vars} (counted : 0 < v.waiting) :
      Move v .broadcast { v with issued := v.issued + 1 } .broadcastSend
  | broadcastSend {v : Vars} (empty : v.ch = false) : Move v .broadcastSend { v with ch := true } .broadcastSent
  | broadcastStep {v : Vars} : Move v .broadcastSent { v with waiting := v.waiting - 1 } .broadcast
  | wait {v : Vars} :
      Move v .holding { v with waiting := v.waiting + 1, entered := v.entered + 1 } .waitUnlock
  | waitUnlock {v : Vars} : Move v .waitUnlock { v with locked := false } .selecting
  | receive {v : Vars} (full : v.ch = true) :
      Move v .selecting { v with ch := false, delivered := v.delivered + 1 } .received
  | received {v : Vars} (free : v.locked = false) : Move v .received { v with locked := true } .holding
  | cancel {v : Vars} : Move v .selecting v .cancelled
  | cancelled {v : Vars} (free : v.locked = false) : Move v .cancelled { v with locked := true } .cancelledHolding
  | withdraw {v : Vars} (counted : v.waiting ≠ 0) :
      Move v .cancelledHolding { v with waiting := v.waiting - 1, withdrawn := v.withdrawn + 1 } .holding
  | signalled {v : Vars} (none : v.waiting = 0) : Move v .cancelledHolding v .draining
  | drain {v : Vars} (full : v.ch = true) :
      Move v .draining { v with ch := false, delivered := v.delivered + 1 } .holding

namespace Position

def holds : Position → Nat
  | .outside | .selecting | .cancelled | .received => 0
  | _ => 1

/-- Has entered Wait and not passed the bookkeeping of its branch. -/
def inWait : Position → Nat
  | .waitUnlock | .selecting | .cancelled | .cancelledHolding | .draining => 1
  | _ => 0

def sending : Position → Nat
  | .signalSend | .broadcastSend => 1
  | _ => 0

/-- Broadcast has issued a token whose goroutine is still counted. -/
def owing : Position → Nat
  | .broadcastSend | .broadcastSent => 1
  | _ => 0

def Knows (waiting : Int) : Position → Prop
  | .broadcastSend | .broadcastSent => 0 < waiting
  | .draining => waiting = 0
  | _ => True

end Position

abbrev State := Threads Vars Position

def start (goroutines : Nat) : State := ⟨{}, List.replicate goroutines .outside⟩

/-- Every goroutine in Wait is counted or has a token on its way. -/
structure Conserved (state : State) : Prop where
  lock : total Position.holds state.positions = state.shared.locked.toNat
  balance : (total Position.inWait state.positions : Int) + total Position.owing state.positions =
    state.shared.waiting + state.shared.ch.toNat + total Position.sending state.positions
  nonneg : 0 ≤ state.shared.waiting
  knows : ∀ here ∈ state.positions, here.Knows state.shared.waiting
  tokens : state.shared.issued = state.shared.delivered + state.shared.ch.toNat + total Position.sending state.positions
  departures : state.shared.entered =
    total Position.inWait state.positions + state.shared.delivered + state.shared.withdrawn

section move
variable {before after : Vars} {here there : Position}

section
variable (moved : Move before here after there)
include moved

theorem Move.counts :
    (there.inWait : Int) + there.owing + before.waiting + before.ch.toNat + here.sending =
      here.inWait + here.owing + after.waiting + after.ch.toNat + there.sending ∧
    after.issued + before.delivered + before.ch.toNat + here.sending =
      before.issued + after.delivered + after.ch.toNat + there.sending ∧
    after.entered + here.inWait + before.delivered + before.withdrawn =
      before.entered + there.inWait + after.delivered + after.withdrawn := by
  cases moved <;> simp_all [Position.inWait, Position.owing, Position.sending] <;> omega

theorem Move.holds_counts (locked : here.holds = 1 → before.locked = true) :
    there.holds + before.locked.toNat = here.holds + after.locked.toNat := by
  cases moved <;> simp_all [Position.holds]

theorem Move.waiting_eq (without : here.holds = 0) : after.waiting = before.waiting := by
  cases moved <;> simp_all [Position.holds]

theorem Move.knows (nonneg : 0 ≤ before.waiting)
    (known : here.Knows before.waiting) : 0 ≤ after.waiting ∧ there.Knows after.waiting := by
  cases moved <;> simp_all [Position.Knows] <;> omega

end

end move

theorem owing_le_holds (here : Position) : here.owing ≤ here.holds := by
  cases here <;> decide

theorem knows_without {here : Position} {waiting : Int} (without : here.holds = 0) : here.Knows waiting := by
  cases here <;> trivial

theorem conserved_start (goroutines : Nat) : Conserved (start goroutines) := by
  have nobody : ∀ weight : Position → Nat, weight .outside = 0 → total weight (start goroutines).positions = 0 := by
    intro weight none
    apply total_eq_zero
    intro here member
    rw [eq_of_mem_replicate member, none]
  constructor
  · exact nobody _ rfl
  · rw [nobody _ rfl, nobody _ rfl, nobody _ rfl]
    rfl
  · exact Int.le_refl _
  · intro here member
    rw [eq_of_mem_replicate member]
    trivial
  · rw [nobody _ rfl]
    rfl
  · rw [nobody _ rfl]
    rfl

theorem turn_conserved (state next : State) (turn : Turn Move state next) (kept : Conserved state) :
    Conserved next := by
  obtain ⟨lock, balance, nonneg, knows, tokens, departures⟩ := kept
  cases turn with
  | @mk before after here there front back moved =>
    have holds := total_placed Position.holds front back here there
    have inWait := total_placed Position.inWait front back here there
    have owing := total_placed Position.owing front back here there
    have sending := total_placed Position.sending front back here there
    have known := knows here (mem_append_right _ mem_cons_self)
    have single : here.holds ≤ before.locked.toNat := by
      rw [← lock]
      exact le_total (mem_append_right _ mem_cons_self)
    have locked : here.holds = 1 → before.locked = true := by
      intro has
      rw [has] at single
      exact Bool.toNat_eq_one.mp (Nat.le_antisymm (Bool.toNat_le _) single)
    obtain ⟨balanced, issued, entered⟩ := moved.counts
    have holder := moved.holds_counts locked
    obtain ⟨nonneg', known'⟩ := moved.knows nonneg known
    simp only at lock balance tokens departures
    constructor
    · simp only
      omega
    · simp only
      omega
    · exact nonneg'
    · intro other member
      rcases mem_others member with rfl | elsewhere
      · exact known'
      · by_cases without : here.holds = 0
        · rw [moved.waiting_eq without]
          exact knows other (mem_of_others elsewhere)
        · -- nobody else has the lock
          apply knows_without
          have others := total_middle Position.holds front back here
          have one := Bool.toNat_le before.locked
          have part : other.holds ≤ total Position.holds (front ++ back) := le_total elsewhere
          omega
    · simp only
      omega
    · simp only
      omega

theorem reached_conserved {goroutines : Nat} {state : State} (reached : Interleaves Move (start goroutines) state) :
    Conserved state :=
  Interleaves.invariant (conserved_start goroutines) turn_conserved reached

/-- In every state reached: those in Wait are the counted ones and the tokens on their way, one less while Broadcast
has not yet decreased the count for the token it sends. Every token is received once, and by it one goroutine leaves
Wait. The branch of the context receives a token only if everybody in Wait has one. -/
theorem cond_conserves {goroutines : Nat} {state : State} (reached : Interleaves Move (start goroutines) state) :
    (total Position.inWait state.positions : Int) + total Position.owing state.positions =
      state.shared.waiting + state.shared.ch.toNat + total Position.sending state.positions ∧
    0 ≤ state.shared.waiting ∧
    state.shared.issued = state.shared.delivered + state.shared.ch.toNat + total Position.sending state.positions ∧
    state.shared.entered = total Position.inWait state.positions + state.shared.delivered + state.shared.withdrawn ∧
    (.draining ∈ state.positions → state.shared.waiting = 0 ∧
      total Position.inWait state.positions = state.shared.ch.toNat + total Position.sending state.positions) := by
  have conserved := reached_conserved reached
  refine ⟨conserved.balance, conserved.nonneg, conserved.tokens, conserved.departures, ?_⟩
  intro inside
  have none : state.shared.waiting = 0 := conserved.knows _ inside
  refine ⟨none, ?_⟩
  -- whoever drains has the lock, so nobody is inside Broadcast
  obtain ⟨front, back, split⟩ := append_of_mem inside
  have owed : total Position.owing state.positions = 0 := by
    have single := conserved.lock
    have one := Bool.toNat_le state.shared.locked
    have others := total_mono owing_le_holds (front ++ back)
    rw [split, total_middle] at single
    rw [split, total_middle]
    simp only [Position.holds, Position.owing] at single ⊢
    omega
  have balance := conserved.balance
  omega

theorem two_waiting :
    Interleaves Move (start 3) ⟨{ locked := true, waiting := 2, entered := 2 }, [.selecting, .selecting, .holding]⟩ := by
  have first := (@Interleaves.start _ _ Move (start 3)).turn [] [_, _] (.lock rfl)
    |>.turn [] [_, _] .wait
    |>.turn [] [_, _] .waitUnlock
  have second := first.turn [_] [_] (.lock rfl)
    |>.turn [_] [_] .wait
    |>.turn [_] [_] .waitUnlock
  exact second.turn [_, _] [] (.lock rfl)

/-- Broadcast is at its second send while the first token is in the channel. -/
def halfBroadcast : State :=
  ⟨{ locked := true, waiting := 1, ch := true, entered := 2, issued := 2 }, [.selecting, .selecting, .broadcastSend]⟩

/-- Both contexts have ended before the first token was received, and a second Signal is at its
send. -/
def stuckSignal : State :=
  ⟨{ locked := true, waiting := 0, ch := true, entered := 2, issued := 2 }, [.cancelled, .cancelled, .signalSend]⟩

theorem halfBroadcast_reached : Interleaves Move (start 3) halfBroadcast := by
  have issued := two_waiting.turn [_, _] [] .broadcast
    |>.turn [_, _] [] (.broadcastNext (by decide))
  have sent := issued.turn [_, _] [] (.broadcastSend rfl)
    |>.turn [_, _] [] .broadcastStep
  exact sent.turn [_, _] [] (.broadcastNext (by decide))

theorem stuckSignal_reached : Interleaves Move (start 3) stuckSignal := by
  have sent := two_waiting.turn [_, _] [] (.signal (by decide))
    |>.turn [_, _] [] (.signalSend rfl)
  have ended := sent.turn [] [_, _] .cancel
    |>.turn [_] [_] .cancel
  exact ended.turn [_, _] [] (.signal (by decide))

theorem stuckSignal_stays (next : State) : ¬ Turn Move stuckSignal next := by
  intro turn
  obtain ⟨here, member, after, there, moved⟩ := turn.mover
  simp only [stuckSignal, mem_cons, not_mem_nil, or_false] at member
  rcases member with rfl | rfl | rfl
  · cases moved with
    | cancelled free => cases free
  · cases moved with
    | cancelled free => cases free
  · cases moved with
    | signalSend empty => cases empty

/-- While Broadcast sends, two goroutines are in Wait with one counted, one token in the channel and one being sent. A
Signal that found somebody counted may be stuck for ever. -/
theorem tokens_miscounted :
    (Interleaves Move (start 3) halfBroadcast ∧
      (total Position.inWait halfBroadcast.positions : Int) ≠ halfBroadcast.shared.waiting +
        halfBroadcast.shared.ch.toNat + total Position.sending halfBroadcast.positions) ∧
    Interleaves Move (start 3) stuckSignal ∧ stuckSignal.shared.delivered = 0 ∧ stuckSignal.shared.issued = 2 ∧
      ¬ ∃ next, Turn Move stuckSignal next := by
  refine ⟨⟨halfBroadcast_reached, by decide⟩, stuckSignal_reached, rfl, rfl, ?_⟩
  rintro ⟨next, turn⟩
  exact stuckSignal_stays next turn

theorem cond_conserves_broadcast :
    (total Position.inWait halfBroadcast.positions : Int) + total Position.owing halfBroadcast.positions =
      halfBroadcast.shared.waiting + halfBroadcast.shared.ch.toNat + total Position.sending halfBroadcast.positions :=
  (cond_conserves halfBroadcast_reached).1

end CollectorFormal.Queue.Cond
