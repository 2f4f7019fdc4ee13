import CollectorFormal.Lib.Runs

/-! Watching the configuration: the collector's control loop and the callbacks of what was retrieved.

Every retrieved value has a goroutine that may call onChange once, which sends on a channel of capacity one. The
Close of a value returns only while its callback is not in progress, and after it there is none. -/

namespace CollectorFormal.Confmap.Watch

open Lib List

inductive Phase where
  | watching
  /-- In onChange, at the send; whether the event has an error. -/
  | sending (failed : Bool)
  | notified
deriving DecidableEq

inductive Purpose where
  | resolve
  | shutdown
deriving DecidableEq

/-- Where the goroutine of Run is. -/
inductive Control where
  | selecting
  | closing (purpose : Purpose)
  /-- In Resolve, with so many values left to retrieve. -/
  | retrieving (left : Nat)
  | stopping
  | stopped
  /-- Run has returned because a reload failed. -/
  | exited
deriving DecidableEq

structure State where
  /-- What was retrieved and not closed, in the order of the closers. -/
  sources : List Phase := []
  slot : Option Bool := none
  closed : Bool := false
  control : Control
  panicked : Bool := false
  /-- How many calls of Resolve and Shutdown have returned. -/
  returned : Nat := 0
deriving DecidableEq

inductive Label where
  | callback
  | send
  | receive
  | reload
  | shutdown
  | close
  | cleared
  | retrieve
  | resolved
  | again
  | failed
  | stop
deriving DecidableEq

inductive Step : Label → State → State → Prop where
  | callback {s : State} (front back : List Phase) (failed : Bool) (here : s.sources = front ++ .watching :: back) :
      Step .callback s { s with sources := front ++ .sending failed :: back }
  | send {s : State} (front back : List Phase) {failed : Bool} (here : s.sources = front ++ .sending failed :: back)
      (isOpen : s.closed = false) (empty : s.slot = none) :
      Step .send s { s with sources := front ++ .notified :: back, slot := some failed }
  | sendClosed {s : State} (front back : List Phase) {failed : Bool}
      (here : s.sources = front ++ .sending failed :: back) (isClosed : s.closed = true) :
      Step .send s { s with panicked := true }
  /-- A change is followed by a reload, an error by a shutdown. -/
  | receive {s : State} {failed : Bool} (selects : s.control = .selecting) (full : s.slot = some failed) :
      Step .receive s { s with slot := none, control := .closing (if failed then .shutdown else .resolve) }
  | reload {s : State} (selects : s.control = .selecting) : Step .reload s { s with control := .closing .resolve }
  /-- By a signal, an asynchronous error, a request or the end of the context. -/
  | shutdown {s : State} (selects : s.control = .selecting) :
      Step .shutdown s { s with control := .closing .shutdown }
  | close {s : State} {purpose : Purpose} {first : Phase} {rest : List Phase}
      (closes : s.control = .closing purpose) (here : s.sources = first :: rest)
      (idle : ∀ failed, first ≠ .sending failed) : Step .close s { s with sources := rest }
  | clearedResolve {s : State} (closes : s.control = .closing .resolve) (none : s.sources = []) (left : Nat) :
      Step .cleared s { s with control := .retrieving left }
  | clearedShutdown {s : State} (closes : s.control = .closing .shutdown) (none : s.sources = []) :
      Step .cleared s { s with control := .stopping }
  | retrieve {s : State} {left : Nat} (retrieves : s.control = .retrieving (left + 1)) :
      Step .retrieve s { s with sources := s.sources ++ [.watching], control := .retrieving left }
  | resolved {s : State} (retrieves : s.control = .retrieving 0) :
      Step .resolved s { s with control := .selecting, returned := s.returned + 1 }
  /-- Resolve returns, and a partial reload that does not apply or fails goes on to a full one. -/
  | again {s : State} {left : Nat} (retrieves : s.control = .retrieving left) :
      Step .again s { s with control := .closing .resolve, returned := s.returned + 1 }
  | failed {s : State} {left : Nat} (retrieves : s.control = .retrieving left) :
      Step .failed s { s with control := .exited, returned := s.returned + 1 }
  | stop {s : State} (stops : s.control = .stopping) :
      Step .stop s { s with control := .stopped, closed := true, returned := s.returned + 1 }

/-- Run begins with a Resolve, or with Shutdown if that was requested before. -/
def start (purpose : Purpose) : State := { control := .closing purpose }

def Control.InCall : Control → Prop
  | .closing _ | .retrieving _ | .stopping => True
  | _ => False

def Control.isClosing : Control → Bool
  | .closing _ => true
  | _ => false

def Phase.sends : Phase → Nat
  | .sending _ => 1
  | _ => 0

def State.pending (s : State) : Nat := s.slot.toList.length + total Phase.sends s.sources

/-- Values are closed while at most one event is pending, and meanwhile a callback is called
only if none is. -/
def Timely : Label → State → Prop
  | .callback, s => s.control.isClosing = true → s.pending = 0
  | .receive, s => s.pending ≤ 2
  | .reload, s => s.pending ≤ 1
  | .shutdown, s => s.pending ≤ 1
  | .again, s => s.pending ≤ 1
  | _, _ => True

section steps
variable {label : Label} {s t : State}

theorem isClosing_iff {control : Control} : control.isClosing = true ↔ ∃ purpose, control = .closing purpose := by
  cases control <;> simp [Control.isClosing]

theorem pending_eq (s : State) (front back : List Phase) {here : Phase} (placed : s.sources = front ++ here :: back) :
    s.pending = s.slot.toList.length + (here.sends + total Phase.sends (front ++ back)) := by
  rw [State.pending, placed, total_middle]

theorem Step.pending (step : Step label s t) :
    t.pending + (if label = .receive then 1 else 0) = s.pending + (if label = .callback then 1 else 0) := by
  cases step with
  | callback front back failed here =>
    rw [pending_eq s front back here, pending_eq _ front back rfl]
    simp only [Phase.sends, reduceCtorEq, if_false, if_true]
    omega
  | send front back here isOpen empty =>
    rw [pending_eq s front back here, pending_eq _ front back rfl, empty]
    simp only [Phase.sends, reduceCtorEq, if_false, Option.toList, length_cons, length_nil]
    omega
  | receive selects full =>
    simp only [State.pending, full, reduceCtorEq, if_false, if_true, Option.toList, length_cons, length_nil]
    omega
  | @close _ _ first rest _ here idle =>
    have silent : first.sends = 0 := by
      cases first with
      | sending failed => exact absurd rfl (idle failed)
      | _ => rfl
    rw [pending_eq s [] rest here, silent, Nat.zero_add]
    rfl
  | retrieve retrieves =>
    rw [pending_eq _ s.sources [] rfl, append_nil]
    simp [State.pending, Phase.sends]
  | _ => rfl

structure Hung (s : State) : Prop where
  closes : s.control.isClosing = true
  crowded : 2 ≤ s.pending

theorem Hung.sources_ne (hung : Hung s) : s.sources ≠ [] := by
  intro none
  have crowded := hung.crowded
  rw [State.pending, none] at crowded
  cases slot : s.slot <;> simp [slot, total] at crowded

theorem Hung.step (hung : Hung s) (step : Step label s t) : Hung t ∧ t.returned = s.returned := by
  obtain ⟨purpose, closes⟩ := isClosing_iff.mp hung.closes
  have count := step.pending
  have crowded := hung.crowded
  have full := hung.sources_ne
  cases step with
  | receive selects | reload selects | shutdown selects => simp [selects] at closes
  | clearedResolve _ none | clearedShutdown _ none => exact absurd none full
  | retrieve retrieves | resolved retrieves | again retrieves | failed retrieves => simp [retrieves] at closes
  | stop stops => simp [stops] at closes
  | _ => exact ⟨⟨hung.closes, by simp at count; omega⟩, rfl⟩

theorem Hung.forever {allowed : Label → State → Prop} (hung : Hung s) (reached : Reached Step allowed s t) :
    t.control.InCall ∧ t.returned = s.returned := by
  have kept : Hung t ∧ t.returned = s.returned := by
    induction reached with
    | start => exact ⟨hung, rfl⟩
    | step _ _ moved ih =>
      obtain ⟨still, returned⟩ := ih.1.step moved
      exact ⟨still, returned.trans ih.2⟩
  obtain ⟨purpose, closes⟩ := isClosing_iff.mp kept.1.closes
  refine ⟨?_, kept.2⟩
  rw [closes]
  trivial

theorem Step.hangs (step : Step label s t) (early : ¬ Timely label s) : Hung t := by
  have count := step.pending
  cases step with
  | callback front back failed here =>
    rw [Timely, Classical.not_imp] at early
    refine ⟨early.1, ?_⟩
    simp at count
    omega
  | receive | reload | shutdown | again =>
    rw [Timely] at early
    refine ⟨rfl, ?_⟩
    simp at count
    omega
  | _ => exact absurd trivial early

theorem Step.quiet (step : Step label s t) (timely : Timely label s)
    (quiet : s.control.isClosing = true → s.pending ≤ 1) (closes : t.control.isClosing = true) : t.pending ≤ 1 := by
  have count := step.pending
  cases step with
  | callback front back failed here =>
    have := timely closes
    simp at count
    omega
  | receive | reload | shutdown | again =>
    rw [Timely] at timely
    simp at count
    omega
  | send | sendClosed | close =>
    have := quiet closes
    simp at count
    omega
  | _ => simp [Control.isClosing] at closes

structure Sound (s : State) : Prop where
  stopping : s.control = .stopping → s.sources = []
  closed : s.closed = true → s.sources = [] ∧ s.control = .stopped
  calm : s.panicked = false

theorem Step.sound (step : Step label s t) (sound : Sound s) : Sound t := by
  obtain ⟨stopping, closed, calm⟩ := sound
  cases step with
  | callback _ _ _ here =>
    refine ⟨fun stops => ?_, fun isClosed => ?_, calm⟩
    · simp [stopping stops] at here
    · simp [(closed isClosed).1] at here
  | send _ _ here isOpen _ =>
    refine ⟨fun stops => ?_, fun isClosed => ?_, calm⟩
    · simp [stopping stops] at here
    · simp [(closed isClosed).1] at here
  | sendClosed _ _ here isClosed => simp [(closed isClosed).1] at here
  | close closes _ _ =>
    refine ⟨fun stops => ?_, fun isClosed => ?_, calm⟩
    · simp [closes] at stops
    · simp [closes] at closed
      simp [closed] at isClosed
  | clearedShutdown closes none =>
    refine ⟨fun _ => none, fun isClosed => ?_, calm⟩
    have := (closed isClosed).2
    simp [closes] at this
  | stop stops => exact ⟨by simp, fun _ => ⟨stopping stops, rfl⟩, calm⟩
  | receive moves _ | reload moves | shutdown moves | clearedResolve moves _ _ | retrieve moves | resolved moves
  | again moves | failed moves =>
    refine ⟨by simp, fun isClosed => ?_, calm⟩
    have := (closed isClosed).2
    simp [moves] at this

end steps

def Phase.work : Phase → Nat
  | .watching => 2
  | .sending _ => 1
  | .notified => 0

def Control.left : Control → Nat
  | .retrieving left => left
  | _ => 0

/-- How many values a Resolve will retrieve is known only when it has closed the previous ones. -/
def rank (s : State) : Nat × Nat :=
  (s.control.isClosing.toNat, total Phase.work s.sources + s.sources.length + 4 * s.control.left)

structure Ongoing (returned : Nat) (s : State) : Prop where
  inCall : s.control.InCall
  sound : Sound s
  quiet : s.control.isClosing = true → s.pending ≤ 1
  since : s.returned = returned

section calls
variable {label : Label} {s t : State} {returned : Nat}

theorem Ongoing.isOpen (ongoing : Ongoing returned s) : s.closed = false := by
  rw [Bool.eq_false_iff]
  intro isClosed
  have inCall := ongoing.inCall
  rw [(ongoing.sound.closed isClosed).2] at inCall
  exact inCall

/-- If the callback of the value to close is in progress, its send goes through. -/
theorem Ongoing.moves (ongoing : Ongoing returned s) : ∃ label next, Timely label s ∧ Step label s next := by
  have inCall := ongoing.inCall
  cases control : s.control with
  | closing purpose =>
    cases sources : s.sources with
    | nil =>
      cases purpose with
      | resolve => exact ⟨.cleared, _, trivial, .clearedResolve control sources 0⟩
      | shutdown => exact ⟨.cleared, _, trivial, .clearedShutdown control sources⟩
    | cons first rest =>
      cases first with
      | sending failed =>
        have room := ongoing.quiet (by rw [control]; rfl)
        rw [pending_eq s [] rest sources, Phase.sends] at room
        have empty : s.slot = none := by
          cases slot : s.slot with
          | none => rfl
          | some _ =>
            rw [slot, Option.toList, length_singleton] at room
            omega
        exact ⟨.send, _, trivial, .send [] rest sources ongoing.isOpen empty⟩
      | watching | notified => exact ⟨.close, _, trivial, .close control sources (by simp)⟩
  | retrieving left =>
    cases left with
    | zero => exact ⟨.resolved, _, trivial, .resolved control⟩
    | succ left => exact ⟨.retrieve, _, trivial, .retrieve control⟩
  | stopping => exact ⟨.stop, _, trivial, .stop control⟩
  | selecting | stopped | exited =>
    rw [control] at inCall
    exact inCall.elim

theorem Ongoing.sinks (ongoing : Ongoing returned s) (timely : Timely label s) (step : Step label s t) :
    returned < t.returned ∨ Ongoing returned t ∧ Prod.Lex (· < ·) (· < ·) (rank t) (rank s) := by
  have inCall := ongoing.inCall
  have since := ongoing.since
  have sound := step.sound ongoing.sound
  have quiet := step.quiet timely ongoing.quiet
  cases step with
  | callback _ _ _ here | send _ _ here =>
    refine .inr ⟨⟨inCall, sound, quiet, since⟩, .right _ ?_⟩
    simp only [here, total_middle, Phase.work, length_append, length_cons]
    omega
  | sendClosed _ _ here isClosed =>
    rw [ongoing.isOpen] at isClosed
    cases isClosed
  | close closes here _ =>
    refine .inr ⟨⟨inCall, sound, quiet, since⟩, .right _ ?_⟩
    simp only [here, total_cons, length_cons]
    omega
  | clearedResolve closes | clearedShutdown closes =>
    refine .inr ⟨⟨trivial, sound, quiet, since⟩, ?_⟩
    rw [rank, rank, closes]
    exact .left _ _ Nat.zero_lt_one
  | retrieve retrieves =>
    refine .inr ⟨⟨trivial, sound, quiet, since⟩, ?_⟩
    rw [rank, rank, retrieves]
    refine .right _ ?_
    rw [total_middle, append_nil]
    simp only [Phase.work, Control.left, length_append, length_cons, length_nil]
    omega
  | resolved | again | failed | stop =>
    left
    change _ < _ + 1
    omega
  | receive selects _ | reload selects | shutdown selects =>
    rw [selects] at inCall
    exact inCall.elim

theorem sound_start (purpose : Purpose) : Sound (start purpose) :=
  ⟨by simp [start], by simp [start], rfl⟩

theorem sound_reached {purpose : Purpose} {allowed : Label → State → Prop}
    (reached : Reached Step allowed (start purpose) s) : Sound s :=
  reached.invariant (sound_start purpose) fun _ _ _ _ moved => moved.sound

theorem quiet_reached {purpose : Purpose} (reached : Reached Step Timely (start purpose) s) :
    s.control.isClosing = true → s.pending ≤ 1 :=
  reached.invariant (fun _ => Nat.zero_le 1) fun _ _ _ timely moved quiet => moved.quiet timely quiet

end calls

/-- No callback sends on the closed channel. While every step is timely, every call of Resolve and Shutdown returns;
once one is not, the call that it starts or meets never returns. -/
theorem watching_hangs_unless_timely (purpose : Purpose) :
    (∀ s, Reached Step Always (start purpose) s → s.panicked = false) ∧
      (∀ s, Reached Step Timely (start purpose) s → s.control.InCall →
        Inevitable Step Timely (fun t => s.returned < t.returned) s) ∧
      ∀ s label t, Reached Step Always (start purpose) s → Step label s t → ¬ Timely label s →
        ∀ u, Reached Step Always t u → u.control.InCall ∧ u.returned = t.returned := by
  refine ⟨fun s reached => (sound_reached reached).calm, ?_, ?_⟩
  · intro s reached inCall
    have founded : WellFounded (Prod.Lex (· < ·) (· < ·) : Nat × Nat → Nat × Nat → Prop) :=
      (Prod.lex inferInstance inferInstance).wf
    have ongoing : Ongoing s.returned s := ⟨inCall, sound_reached reached, quiet_reached reached, rfl⟩
    refine inevitable_of_rank founded rank ?_ ?_ ongoing
    · exact fun state ongoing => .inr ongoing.moves
    · exact fun label state next ongoing timely moved => ongoing.sinks timely moved
  · intro s label t _ moved early u later
    exact (moved.hangs early).forever later

def watchingTwo : State := { sources := [.watching, .watching], control := .selecting, returned := 1 }

theorem watchingTwo_reached : Reached Step Timely (start .resolve) watchingTwo :=
  Reached.start
    |>.next (Step.clearedResolve rfl rfl 2) trivial
    |>.next (Step.retrieve rfl) trivial
    |>.next (Step.retrieve rfl) trivial
    |>.next (Step.resolved rfl) trivial

/-- Both values change; Shutdown is called before the first event is received. -/
def bothChanged : State :=
  { sources := [.notified, .sending false], slot := some false, control := .closing .shutdown, returned := 1 }

theorem bothChanged_reached : Reached Step Always watchingTwo bothChanged :=
  Reached.start
    |>.next (Step.callback [] [Phase.watching] false rfl) trivial
    |>.next (Step.callback [Phase.sending false] [] false rfl) trivial
    |>.next (Step.send [] [Phase.sending false] rfl rfl rfl) trivial
    |>.next (Step.shutdown rfl) trivial

/-- The second callback waits for a receive and Shutdown for the second callback. -/
theorem shutdown_never_returns :
    Reached Step Always (start .resolve) bothChanged ∧
      ∀ t, Reached Step Always bothChanged t → t.control.InCall ∧ t.returned = bothChanged.returned := by
  refine ⟨watchingTwo_reached.always.trans bothChanged_reached, ?_⟩
  intro t later
  exact Hung.forever ⟨rfl, by decide⟩ later

/-- One of two values changes, the event is received, and the values are being closed. -/
def oneChanged : State := { sources := [.notified, .watching], control := .closing .resolve, returned := 1 }

theorem oneChanged_reached : Reached Step Timely (start .resolve) oneChanged :=
  watchingTwo_reached
    |>.next (Step.callback [] [Phase.watching] false rfl) (fun closes => by cases closes)
    |>.next (Step.send [] [Phase.watching] rfl rfl rfl) trivial
    |>.next (@Step.receive _ false rfl rfl) (Nat.le_of_ble_eq_true rfl)

theorem watching_hangs_unless_timely_one :
    Reached Step Timely (start .resolve) oneChanged ∧ oneChanged.control.InCall ∧
      Inevitable Step Timely (fun t => 1 < t.returned) oneChanged :=
  ⟨oneChanged_reached, trivial, (watching_hangs_unless_timely .resolve).2.1 oneChanged oneChanged_reached trivial⟩

end CollectorFormal.Confmap.Watch
