import CollectorFormal.Queue.Cond
import CollectorFormal.Queue.MemoryQueue

/-! Producers, consumers and completions around a memory queue.

A consumer that is not parked in hasMoreElements and has not exited is between two calls of Read; what it has read
stays outstanding until its OnDone, which may come at any later time. -/

namespace CollectorFormal.Queue

open List
open Lib (Reached Always)

variable {Ctx T : Type}

inductive Consumer where
  | running
  | parked
  | exited
  deriving DecidableEq

/-- The queue with its consumers, and the history of what was added and read. -/
structure AsyncQueue (Ctx T : Type) where
  queue : MemoryQueue Ctx T := {}
  consumers : List Consumer
  outstanding : List (Item Ctx T Nat) := []
  accepted : List (Item Ctx T Nat) := []
  reads : List (Item Ctx T Nat) := []
  /-- Elements added when every consumer had exited. -/
  lateAdds : Nat := 0

/-- hasMoreElements.Signal wakes one of the parked consumers, if there is any. -/
inductive Signalled : List Consumer → List Consumer → Prop where
  | nobody (consumers : List Consumer) (absent : .parked ∉ consumers) : Signalled consumers consumers
  | woken (front back : List Consumer) : Signalled (front ++ .parked :: back) (front ++ .running :: back)

def Consumer.wake : Consumer → Consumer
  | .parked => .running
  | consumer => consumer

def AsyncQueue.AllExited (state : AsyncQueue Ctx T) : Prop :=
  ∀ consumer ∈ state.consumers, consumer = .exited

instance (state : AsyncQueue Ctx T) : Decidable state.AllExited :=
  inferInstanceAs (Decidable (∀ consumer ∈ state.consumers, consumer = .exited))

def AsyncQueue.accept (item : Item Ctx T Nat) (queue : MemoryQueue Ctx T) (consumers : List Consumer)
    (state : AsyncQueue Ctx T) : AsyncQueue Ctx T :=
  { state with
    queue := queue
    consumers := consumers
    accepted := state.accepted ++ [item]
    lateAdds := if state.AllExited then state.lateAdds + 1 else state.lateAdds }

def Offered.address : Offered → Option Nat
  | .returned _ => none
  | .awaiting address _ => some address
  | .added address _ => some address

section code
variable (set : MemorySettings Ctx T)

/-- Offer with the lock held; an element that was added signals a consumer. -/
inductive Offers (request : Ctx × T) (state : AsyncQueue Ctx T) :
    AsyncQueue Ctx T → Option Offered → Prop where
  | kept (choice : Nat) {queue : MemoryQueue Ctx T} {result : Option Offered}
      (ran : state.queue.offer set choice request.1 request.2 = (queue, result))
      (nothing : result.bind (·.address) = none) :
      Offers request state { state with queue := queue } result
  | added (choice address : Nat) {queue : MemoryQueue Ctx T} {result : Option Offered}
      {item : Item Ctx T Nat} {consumers : List Consumer}
      (ran : state.queue.offer set choice request.1 request.2 = (queue, result))
      (here : result.bind (·.address) = some address) (pushed : queue.items.item address = some item)
      (signalled : Signalled state.consumers consumers) :
      Offers request state (state.accept item queue consumers) result

/-- The select of an Offer that waits for its result. -/
inductive Resolves (state : AsyncQueue Ctx T) : Offered → AsyncQueue Ctx T → Offered → Prop where
  | received (address done : Nat) {queue : MemoryQueue Ctx T} {err : Option MemoryError}
      (ran : state.queue.receiveResult done = some (queue, err)) :
      Resolves state (.awaiting address done) { state with queue := queue } (.added address err)
  | contextDone (address done : Nat) :
      Resolves state (.awaiting address done) state (.added address (some .contextDone))

/-- Read, OnDone and Shutdown with the lock held. The source fills the channel after the signal; only its receiver
could tell. -/
inductive Consumes (state : AsyncQueue Ctx T) : AsyncQueue Ctx T → Wake → Prop where
  | read (front back : List Consumer) {queue : MemoryQueue Ctx T} {item : Item Ctx T Nat}
      (here : state.consumers = front ++ .running :: back)
      (ran : state.queue.read = some (queue, .item item)) :
      Consumes state { state with
        queue := queue
        outstanding := state.outstanding ++ [item]
        reads := state.reads ++ [item] } (.signals 0)
  | exit (front back : List Consumer) {queue : MemoryQueue Ctx T} (here : state.consumers = front ++ .running :: back)
      (ran : state.queue.read = some (queue, .stopped)) :
      Consumes state { state with
        queue := queue
        consumers := front ++ .exited :: back } (.signals 0)
  | park (front back : List Consumer) {queue : MemoryQueue Ctx T} (here : state.consumers = front ++ .running :: back)
      (ran : state.queue.read = some (queue, .wait)) :
      Consumes state { state with
        queue := queue
        consumers := front ++ .parked :: back } (.signals 0)
  | onDone (front back : List (Item Ctx T Nat)) (item : Item Ctx T Nat) (err : Option MemoryError)
      (held : state.outstanding = front ++ item :: back) :
      Consumes state { state with
        queue := state.queue.onDone set item.done err
        outstanding := front ++ back } (.signals 1)
  | shutdown :
      Consumes state { state with
        queue := state.queue.shutdown
        consumers := state.consumers.map (·.wake) } (.signals 0)

def asyncCode : Critical (AsyncQueue Ctx T) (Ctx × T) Offered where
  attempt request before after result := Offers set request before after result
  abandoned _ := .returned (some .contextDone)
  resolve before result after last := Resolves before result after last
  critical before after wake := Consumes set before after wake

end code

section accounting
variable (set : MemorySettings Ctx T)

def totalSize (items : List (Item Ctx T Nat)) : Int := (items.map fun item => set.sizer item.data).sum

/-- The blockingDone of an element and the size it was reset to. -/
def useOf (item : Item Ctx T Nat) : Nat × Int := (item.done, set.sizer item.data)

/-- The queue's own books: what it holds, in which order, and how large it is. -/
structure Accounted (state : AsyncQueue Ctx T) : Prop where
  represents : state.queue.items.Represents state.queue.items.addresses
  order : state.accepted = state.reads ++ state.queue.items.contents
  size : state.queue.size = totalSize set state.queue.items.contents + totalSize set state.outstanding
  bounded : 0 ≤ set.capacity → state.queue.size ≤ set.capacity
  positive : ∀ item ∈ state.queue.items.contents ++ state.outstanding, 0 < set.sizer item.data
  unshared : Unshared state.queue.dones state.queue.pool
    ((state.queue.items.contents ++ state.outstanding).map (useOf set))

end accounting

variable {set : MemorySettings Ctx T} {state after : AsyncQueue Ctx T}

theorem totalSize_append (first second : List (Item Ctx T Nat)) :
    totalSize set (first ++ second) = totalSize set first + totalSize set second := by
  simp [totalSize]

theorem totalSize_singleton (item : Item Ctx T Nat) : totalSize set [item] = set.sizer item.data := by
  simp [totalSize]

theorem totalSize_nonneg {items : List (Item Ctx T Nat)}
    (positive : ∀ item ∈ items, 0 < set.sizer item.data) : 0 ≤ totalSize set items := by
  apply sum_nonneg
  intro size member
  obtain ⟨item, listed, rfl⟩ := mem_map.mp member
  exact le_of_lt (positive item listed)

theorem accounted_start (consumers : List Consumer) :
    Accounted set ({ consumers := consumers } : AsyncQueue Ctx T) where
  represents := LinkedQueue.represents_empty
  order := rfl
  size := rfl
  bounded capacity := capacity
  positive _ member := absurd member not_mem_nil
  unshared := ⟨fun _ member => absurd member not_mem_nil, fun _ member => absurd member not_mem_nil, nodup_nil⟩

theorem Offered.address_added (waits : Prop) [Decidable waits] (address done : Nat) :
    (if waits then Offered.awaiting address done else .added address none).address = some address := by
  split <;> rfl

section
variable (accounted : Accounted set state)
include accounted

theorem offers_cases {request : Ctx × T} {result : Option Offered} (offers : Offers set request state after result) :
    (after = state ∧ (result = none ∨ ∃ err, result = some (.returned err))) ∨
    ∃ held done dones pool consumers, 0 < set.sizer request.2 ∧ state.queue.size + set.sizer request.2 ≤ set.capacity ∧
      Unshared dones pool ((done, set.sizer request.2) ::
        (state.queue.items.contents ++ state.outstanding).map (useOf set)) ∧
      Signalled state.consumers consumers ∧
      after = state.accept ⟨held, request.2, done⟩ { state.queue with
        size := state.queue.size + set.sizer request.2
        dones := dones
        pool := pool
        items := state.queue.items.push held request.2 done } consumers ∧
      result = some (if set.waitForResult then .awaiting state.queue.items.nodes.length done
        else .added state.queue.items.nodes.length none) := by
  cases offers with
  | kept choice ran nothing =>
    rcases MemoryQueue.offer_cases accounted.unshared ran with
      ⟨rfl, outcome⟩ | ⟨-, -, _, done, _, _, -, -, rfl⟩
    · exact .inl ⟨rfl, outcome⟩
    · rw [Option.bind_some, Offered.address_added] at nothing
      cases nothing
  | @added choice address queue result item consumers ran here pushed signalled =>
    rcases MemoryQueue.offer_cases accounted.unshared ran with
      ⟨-, rfl | ⟨err, rfl⟩⟩ | ⟨positive, room, held, done, dones, pool, unshared, rfl, rfl⟩
    · cases here
    · cases here
    · rw [Option.bind_some, Offered.address_added] at here
      obtain rfl := Option.some.inj here
      rw [LinkedQueue.push_item, if_pos rfl] at pushed
      obtain rfl := Option.some.inj pushed
      exact .inr ⟨held, done, dones, pool, consumers, positive, room, unshared, signalled, rfl, rfl⟩

theorem accounted_offers {request : Ctx × T} {result : Option Offered}
    (offers : Offers set request state after result) : Accounted set after := by
  rcases offers_cases accounted offers with
    ⟨rfl, -⟩ | ⟨held, done, dones, pool, consumers, positive, room, unshared, -, rfl, -⟩
  · exact accounted
  · have pushed := LinkedQueue.push_represents held request.2 done accounted.represents
    have contents := LinkedQueue.push_contents held request.2 done accounted.represents
    refine ⟨pushed.addresses_eq ▸ pushed, ?_, ?_, fun _ => room, ?_, ?_⟩
    · simp only [AsyncQueue.accept, contents, accounted.order, append_assoc]
    · simp only [AsyncQueue.accept, contents, accounted.size, totalSize_append, totalSize_singleton]
      omega
    · simp only [AsyncQueue.accept, contents]
      intro item member
      rw [append_assoc, mem_append, mem_append, mem_singleton] at member
      rcases member with queued | rfl | outstanding
      · exact accounted.positive item (mem_append_left _ queued)
      · exact positive
      · exact accounted.positive item (mem_append_right _ outstanding)
    · simp only [AsyncQueue.accept, contents]
      apply unshared.perm
      rw [append_assoc, map_append, map_append, map_append, map_singleton]
      exact perm_middle.symm

theorem accounted_resolves {result last : Offered}
    (resolves : Resolves state result after last) : Accounted set after := by
  cases resolves with
  | received address done ran =>
    obtain ⟨dones, pool, rfl, unshared, -⟩ :=
      MemoryQueue.receiveResult_unshared accounted.unshared ran
    exact { accounted with unshared }
  | contextDone address done => exact accounted

variable {queue : MemoryQueue Ctx T}

theorem read_accounted {item : Item Ctx T Nat} (ran : state.queue.read = some (queue, .item item)) :
    ∃ items first, state.queue.items.addresses = first :: items.addresses ∧
      items.nodes.length = state.queue.items.nodes.length ∧
      (∀ address, items.item address = state.queue.items.item address) ∧
      queue = { state.queue with items := items } ∧
      state.queue.items.contents = item :: items.contents ∧ items.Represents items.addresses := by
  rcases MemoryQueue.read_cases accounted.represents ran with
    ⟨items, held, popped, rfl, same, some⟩ | ⟨-, -, same⟩
  · obtain rfl := MemoryRead.item.inj same
    obtain ⟨first, rest, listed⟩ := exists_cons_of_ne_nil some
    have represents := accounted.represents
    rw [listed] at represents
    have contents := LinkedQueue.pop_contents represents popped
    obtain ⟨items', held', popped', -, after, length, kept⟩ := LinkedQueue.pop_represents represents
    obtain ⟨rfl, rfl⟩ := Prod.mk.inj (Option.some.inj (popped'.symm.trans popped))
    exact ⟨_, first, by rw [listed, after.addresses_eq], length, kept, rfl, contents, after.addresses_eq ▸ after⟩
  · split at same <;> cases same

theorem read_nothing {outcome : MemoryRead Ctx T} (ran : state.queue.read = some (queue, outcome))
    (nothing : ∀ item, outcome ≠ .item item) : queue = state.queue ∧ state.queue.items.addresses = [] := by
  rcases MemoryQueue.read_cases accounted.represents ran with
    ⟨items, held, popped, rfl, rfl, some⟩ | ⟨empty, rfl, -⟩
  · exact absurd rfl (nothing held)
  · exact ⟨rfl, empty⟩

theorem accounted_consumes {wake : Wake} (consumes : Consumes set state after wake) : Accounted set after := by
  cases consumes with
  | @read front back queue item here ran =>
    obtain ⟨items, first, -, -, -, rfl, contents, represents⟩ := read_accounted accounted ran
    have moved : ((item :: items.contents) ++ state.outstanding).Perm
        (items.contents ++ (state.outstanding ++ [item])) := by
      rw [← append_assoc]
      exact (perm_append_singleton item _).symm
    obtain ⟨-, order, size, bounded, positive, unshared⟩ := accounted
    rw [contents] at order size positive unshared
    refine ⟨represents, ?_, ?_, bounded, ?_, unshared.perm (moved.map _)⟩
    · simp only [order, append_assoc, singleton_append]
    · simp only [size, totalSize_append, totalSize_singleton]
      rw [← singleton_append, totalSize_append, totalSize_singleton]
      omega
    · exact fun other member => positive other (moved.mem_iff.mpr member)
  | exit _ _ _ ran | park _ _ _ ran =>
    obtain ⟨rfl, -⟩ := read_nothing accounted ran fun _ same => by cases same
    exact { accounted with }
  | onDone front back item err held =>
    have moved : (state.queue.items.contents ++ state.outstanding).Perm
        (item :: (state.queue.items.contents ++ (front ++ back))) := by
      rw [held, ← append_assoc, ← append_assoc]
      exact perm_middle
    have unshared := accounted.unshared.perm (moved.map (useOf set))
    obtain ⟨dones, pool, done, rest⟩ := MemoryQueue.onDone_unshared set err unshared
    have size := accounted.size
    have least := accounted.positive item (moved.mem_iff.mpr mem_cons_self)
    have bounded := accounted.bounded
    rw [held, totalSize_append, ← singleton_append, totalSize_append, totalSize_singleton] at size
    refine ⟨?_, ?_, ?_, ?_, ?_, ?_⟩
    all_goals simp only [done]
    · exact accounted.represents
    · exact accounted.order
    · rw [size, totalSize_append]
      omega
    · intro capacity
      omega
    · exact fun other member =>
        accounted.positive other (moved.mem_iff.mpr (mem_cons_of_mem _ member))
    · exact rest
  | shutdown =>
    exact { accounted with }

end

theorem accounted_keeps (set : MemorySettings Ctx T) : Keeps (asyncCode set) fun state _ => Accounted set state := by
  intro before after results last accounted changes
  cases changes with
  | quiet | abandon => exact accounted
  | wait offers | leave offers => exact accounted_offers accounted offers
  | resolve here resolves => exact accounted_resolves accounted resolves
  | critical consumes => exact accounted_consumes accounted consumes

theorem returned_unchanged {label : Label} {err : Option MemoryError}
    {monitor next : Monitor (AsyncQueue Ctx T) (Ctx × T) Offered} (accounted : Accounted set monitor.shared)
    (step : MonitorStep (asyncCode set) label monitor next)
    (returned : next.results = .returned err ::ₘ monitor.results) : next.shared = monitor.shared := by
  have more : next.results.card = monitor.results.card + 1 := by
    rw [returned, Multiset.card_cons]
  have changes := step_changes step
  generalize next.shared = after at changes ⊢
  generalize next.results = last at changes returned more
  cases changes with
  | quiet | wait | critical => omega
  | @leave request after result offers =>
    obtain rfl := (Multiset.cons_inj_left _).mp returned
    rcases offers_cases accounted offers with ⟨rfl, -⟩ | ⟨_, _, _, _, _, -, -, -, -, -, same⟩
    · rfl
    · have address := congrArg Offered.address (Option.some.inj same)
      rw [Offered.address_added] at address
      cases address
  | abandon request => rfl
  | resolve here resolves =>
    rw [here, Multiset.card_cons, Multiset.card_cons] at more
    omega

/-- In every state reached, the size is that of the elements queued and outstanding and within the capacity, the
linked list is well formed, elements were read in the order they were added and at most once, and a rejected or empty
Offer changes nothing. -/
theorem memory_queue_fifo {consumers : List Consumer} {requests : List (Ctx × T)}
    {allowed : Label → Monitor (AsyncQueue Ctx T) (Ctx × T) Offered → Prop}
    {state : Monitor (AsyncQueue Ctx T) (Ctx × T) Offered} (capacity : 0 ≤ set.capacity)
    (reached : Reached (MonitorStep (asyncCode set)) allowed (.start { consumers := consumers } requests) state) :
    state.shared.queue.size = totalSize set state.shared.queue.items.contents + totalSize set state.shared.outstanding ∧
    0 ≤ state.shared.queue.size ∧ state.shared.queue.size ≤ set.capacity ∧
    (state.shared.queue.items.tail = none ↔ state.shared.queue.items.head = none) ∧
    (∀ head, state.shared.queue.items.head = some head →
      ∃ tail, state.shared.queue.items.tail = some tail ∧
        Relation.ReflTransGen (fun here there => state.shared.queue.items.next here = some there) head tail ∧
        state.shared.queue.items.next tail = none) ∧
    state.shared.accepted = state.shared.reads ++ state.shared.queue.items.contents ∧
    (∀ label next err, MonitorStep (asyncCode set) label state next →
      next.results = .returned err ::ₘ state.results → next.shared = state.shared) ∧
    ∀ request after result, (asyncCode set).attempt request state.shared after result →
      set.sizer request.2 = 0 → result = some (.returned none) := by
  have accounted := reached_keeps (accounted_keeps set) (accounted_start consumers) reached
  obtain ⟨nilTail, lastTail⟩ := accounted.represents.shape
  have queued := totalSize_nonneg fun item member => accounted.positive item (mem_append_left _ member)
  have outstanding :=
    totalSize_nonneg fun item member => accounted.positive item (mem_append_right _ member)
  refine ⟨accounted.size, ?_, accounted.bounded capacity, nilTail, lastTail, accounted.order, ?_, ?_⟩
  · rw [accounted.size]
    omega
  · exact fun label next err step returned => returned_unchanged accounted step returned
  · intro request after result offers empty
    cases offers with
    | kept choice ran _ =>
      rw [MemoryQueue.offer_empty _ _ empty] at ran
      exact (Prod.mk.inj ran).2.symm
    | added choice address ran _ _ _ =>
      rw [MemoryQueue.offer_empty _ _ empty] at ran
      exact (Prod.mk.inj ran).2.symm

section drain

/-- What the producers were left with, against what is still in the list. -/
structure Served (set : MemorySettings Ctx T) (state : AsyncQueue Ctx T) (results : Multiset Offered) :
    Prop where
  awaited : ∀ address done, .awaiting address done ∈ results →
    ∃ item, state.queue.items.item address = some item ∧ item.done = done
  completed : set.waitForResult = true → ∀ address, .added address none ∈ results →
    address < state.queue.items.nodes.length ∧ address ∉ state.queue.items.addresses
  recorded : set.waitForResult = false → ∀ address ∈ state.queue.items.addresses, .added address none ∈ results
  drained : state.AllExited → state.lateAdds = 0 → state.queue.items.addresses = []
  late : state.lateAdds ≠ 0 → state.AllExited ∧ state.queue.items.addresses ≠ []

variable {results : Multiset Offered}

theorem served_start (consumers : List Consumer) :
    Served set ({ consumers := consumers } : AsyncQueue Ctx T) 0 where
  awaited _ _ member := absurd member (Multiset.notMem_zero _)
  completed _ _ member := absurd member (Multiset.notMem_zero _)
  recorded _ _ member := absurd member not_mem_nil
  drained _ _ := rfl
  late none := absurd rfl none

variable {before consumers : List Consumer}

theorem signalled_exited (signalled : Signalled before consumers)
    (exited : ∀ consumer ∈ before, consumer = .exited) : consumers = before := by
  cases signalled with
  | nobody => rfl
  | woken front back =>
    have parked := exited .parked (mem_append_right _ mem_cons_self)
    cases parked

theorem exited_of_signalled (signalled : Signalled before consumers)
    (exited : ∀ consumer ∈ consumers, consumer = .exited) : ∀ consumer ∈ before, consumer = .exited := by
  cases signalled with
  | nobody => exact exited
  | woken front back =>
    have running := exited .running (mem_append_right _ mem_cons_self)
    cases running

theorem running_not_exited {front back : List Consumer}
    (here : state.consumers = front ++ .running :: back) : ¬ state.AllExited := by
  intro exited
  have running := exited .running (by rw [here]; exact mem_append_right _ mem_cons_self)
  cases running

theorem Served.not_late (served : Served set state results) (active : ¬ state.AllExited) : state.lateAdds = 0 := by
  by_contra late
  exact active (served.late late).1

theorem item_allocated {items : LinkedQueue Ctx T Nat} {address : Nat} {item : Item Ctx T Nat}
    (here : items.item address = some item) : address < items.nodes.length := by
  obtain ⟨node, found, -⟩ := Option.map_eq_some_iff.mp here
  exact (List.getElem?_eq_some_iff.mp found).1

theorem served_wait {request : Ctx × T} (accounted : Accounted set state)
    (served : Served set state results) (offers : Offers set request state after none) :
    Served set after results := by
  rcases offers_cases accounted offers with ⟨rfl, -⟩ | ⟨_, _, _, _, _, -, -, -, -, -, same⟩
  · exact served
  · cases same

theorem Served.returned {err : Option MemoryError} (served : Served set state results) :
    Served set state (.returned err ::ₘ results) where
  awaited address done member := served.awaited address done
    ((Multiset.mem_cons.mp member).resolve_left fun same => by cases same)
  completed waits address member := served.completed waits address
    ((Multiset.mem_cons.mp member).resolve_left fun same => by cases same)
  recorded waits address member := Multiset.mem_cons_of_mem (served.recorded waits address member)
  drained := served.drained
  late := served.late

theorem served_leave {request : Ctx × T} {result : Offered} (accounted : Accounted set state)
    (served : Served set state results) (offers : Offers set request state after (some result)) :
    Served set after (result ::ₘ results) := by
  rcases offers_cases accounted offers with
    ⟨rfl, same | ⟨err, same⟩⟩ | ⟨held, done, dones, pool, consumers, -, -, -, signalled, rfl, same⟩
  · cases same
  · obtain rfl := Option.some.inj same
    exact served.returned
  · obtain rfl := Option.some.inj same
    have addresses := (LinkedQueue.push_represents held request.2 done accounted.represents).addresses_eq
    have fresh (address : Nat) (old : address < state.queue.items.nodes.length) :
        (state.queue.items.push held request.2 done).item address = state.queue.items.item address := by
      rw [LinkedQueue.push_item, if_neg (Nat.ne_of_lt old)]
    refine ⟨?_, ?_, ?_, ?_, ?_⟩
    all_goals simp only [AsyncQueue.accept, addresses]
    · intro address handle member
      rcases Multiset.mem_cons.mp member with new | old
      · split at new
        · obtain ⟨rfl, rfl⟩ := Offered.awaiting.inj new
          exact ⟨_, by rw [LinkedQueue.push_item, if_pos rfl], rfl⟩
        · cases new
      · obtain ⟨item, here, same⟩ := served.awaited address handle old
        exact ⟨item, by rw [fresh address (item_allocated here), here], same⟩
    · intro waits address member
      rw [if_pos waits] at member
      rcases Multiset.mem_cons.mp member with new | old
      · cases new
      · obtain ⟨inside, absent⟩ := served.completed waits address old
        rw [LinkedQueue.push_length]
        refine ⟨Nat.lt_succ_of_lt inside, fun listed => ?_⟩
        rcases mem_append.mp listed with unread | last
        · exact absent unread
        · exact absurd (mem_singleton.mp last) (Nat.ne_of_lt inside)
    · intro waits address member
      rw [if_neg (by rw [waits]; decide)]
      rcases mem_append.mp member with unread | last
      · exact Multiset.mem_cons_of_mem (served.recorded waits address unread)
      · rw [mem_singleton.mp last]
        exact Multiset.mem_cons_self _ _
    · intro exited none
      have before : state.AllExited := exited_of_signalled signalled exited
      rw [if_pos before] at none
      cases none
    · intro some
      by_cases exited : state.AllExited
      · refine ⟨?_, by simp⟩
        rw [AsyncQueue.AllExited, signalled_exited signalled exited]
        exact exited
      · rw [if_neg exited] at some
        exact absurd (served.not_late exited) some

theorem mem_other {result last other : Offered} (member : other ∈ last ::ₘ results) (differs : other ≠ last) :
    other ∈ result ::ₘ results :=
  Multiset.mem_cons_of_mem ((Multiset.mem_cons.mp member).resolve_left differs)

theorem served_resolve {result last : Offered} (accounted : Accounted set state)
    (served : Served set state (result ::ₘ results)) (resolves : Resolves state result after last) :
    Served set after (last ::ₘ results) := by
  cases resolves with
  | received address done ran =>
    obtain ⟨dones, pool, rfl, -, unused⟩ :=
      MemoryQueue.receiveResult_unshared accounted.unshared ran
    obtain ⟨item, here, rfl⟩ := served.awaited address done (Multiset.mem_cons_self _ _)
    refine ⟨fun other handle member => ?_, fun waits other member => ?_, fun waits other member => ?_,
      served.drained, served.late⟩
    · exact served.awaited other handle (mem_other member nofun)
    · rcases Multiset.mem_cons.mp member with same | old
      · obtain ⟨rfl, -⟩ := Offered.added.inj same
        -- the result came through the channel of an element that is no longer queued
        refine ⟨item_allocated here, fun unread => unused ?_⟩
        have queued : item ∈ state.queue.items.contents := mem_filterMap.mpr ⟨_, unread, here⟩
        exact mem_map_of_mem (mem_map_of_mem (mem_append_left _ queued))
      · exact served.completed waits other (Multiset.mem_cons_of_mem old)
    · exact mem_other (served.recorded waits other member) nofun
  | contextDone address done =>
    refine ⟨fun other handle member => ?_, fun waits other member => ?_, fun waits other member => ?_,
      served.drained, served.late⟩
    · exact served.awaited other handle (mem_other member nofun)
    · exact served.completed waits other (mem_other member nofun)
    · exact mem_other (served.recorded waits other member) nofun

theorem wake_exited (consumers : List Consumer) :
    (∀ consumer ∈ consumers.map (·.wake), consumer = .exited) ↔ ∀ consumer ∈ consumers, consumer = .exited := by
  rw [forall_mem_map]
  apply forall₂_congr
  intro consumer _
  cases consumer <;> simp [Consumer.wake]

theorem served_consumes {wake : Wake} (accounted : Accounted set state)
    (served : Served set state results) (consumes : Consumes set state after wake) :
    Served set after results := by
  cases consumes with
  | @read front back queue item here ran =>
    obtain ⟨items, first, listed, length, kept, rfl, -, -⟩ := read_accounted accounted ran
    have active := running_not_exited here
    refine ⟨?_, ?_, ?_, fun exited => absurd exited active, fun late => absurd (served.not_late active) late⟩
    · intro address done member
      simp only [kept]
      exact served.awaited address done member
    · intro waits address member
      obtain ⟨inside, absent⟩ := served.completed waits address member
      rw [listed] at absent
      exact ⟨length ▸ inside, fun unread => absent (mem_cons_of_mem _ unread)⟩
    · intro waits address member
      apply served.recorded waits address
      rw [listed]
      exact mem_cons_of_mem _ member
  | exit front back here ran | park front back here ran =>
    obtain ⟨rfl, empty⟩ := read_nothing accounted ran fun _ same => by cases same
    have none := served.not_late (running_not_exited here)
    exact { served with drained := fun _ _ => empty, late := fun late => absurd none late }
  | onDone front back item err held =>
    have items : (state.queue.onDone set item.done err).items = state.queue.items := by
      unfold MemoryQueue.onDone
      split <;> rfl
    refine ⟨?_, ?_, ?_, ?_, ?_⟩
    all_goals simp only [items]
    · exact served.awaited
    · exact served.completed
    · exact served.recorded
    · exact served.drained
    · exact served.late
  | shutdown =>
    refine { served with drained := fun exited => ?_, late := fun late => ?_ }
    · exact served.drained ((wake_exited _).mp exited)
    · obtain ⟨exited, more⟩ := served.late late
      exact ⟨(wake_exited _).mpr exited, more⟩

theorem served_keeps (set : MemorySettings Ctx T) :
    Keeps (asyncCode set) fun state results => Accounted set state ∧ Served set state results := by
  rintro before after results last ⟨accounted, served⟩ changes
  refine ⟨accounted_keeps set before after results last accounted changes, ?_⟩
  cases changes with
  | quiet => exact served
  | wait offers => exact served_wait accounted served offers
  | leave offers => exact served_leave accounted served offers
  | abandon request => exact served.returned
  | resolve here resolves => exact served_resolve accounted (here ▸ served) resolves
  | critical consumes => exact served_consumes accounted served consumes

theorem mem_results {monitor : Monitor (AsyncQueue Ctx T) (Ctx × T) Offered} {result : Offered} :
    result ∈ monitor.results ↔ ∃ request, .left request result ∈ monitor.goroutines := by
  rw [Monitor.results, Multiset.mem_coe, mem_filterMap]
  constructor
  · rintro ⟨goroutine, member, same⟩
    cases goroutine with
    | left request result =>
      obtain rfl := Option.some.inj same
      exact ⟨request, member⟩
    | _ => cases same
  · rintro ⟨request, member⟩
    exact ⟨_, member, rfl⟩

/-- Once every consumer has exited, no element whose Offer returned nil is left in the list iff Offer waits for the
result or nothing was added after the last consumer exited. -/
theorem shutdown_drains_iff {consumers : List Consumer} {requests : List (Ctx × T)}
    {allowed : Label → Monitor (AsyncQueue Ctx T) (Ctx × T) Offered → Prop}
    {state : Monitor (AsyncQueue Ctx T) (Ctx × T) Offered}
    (reached : Reached (MonitorStep (asyncCode set)) allowed (.start { consumers := consumers } requests) state)
    (exited : state.shared.AllExited) :
    (∀ request address, .left request (.added address none) ∈ state.goroutines →
      address ∉ state.shared.queue.items.addresses) ↔
    set.waitForResult = true ∨ state.shared.lateAdds = 0 := by
  obtain ⟨-, served⟩ :=
    reached_keeps (served_keeps set) ⟨accounted_start consumers, served_start consumers⟩ reached
  constructor
  · intro taken
    cases waits : set.waitForResult with
    | true => exact .inl rfl
    | false =>
      right
      by_contra late
      obtain ⟨address, unread⟩ := exists_mem_of_ne_nil _ (served.late late).2
      obtain ⟨request, left⟩ := mem_results.mp (served.recorded waits address unread)
      exact taken request address left unread
  · rintro (waits | none) request address left
    · exact (served.completed waits address (mem_results.mpr ⟨request, left⟩)).2
    · rw [served.drained exited none]
      exact not_mem_nil

end drain

section blocked

/-- A blocking queue of capacity 10 whose elements are their own sizes. -/
def sizedSettings : MemorySettings Unit Int where
  sizer := id
  capacity := 10
  waitForResult := false
  blockOnOverflow := true
  withoutCancel := id

def fullQueue : MemoryQueue Unit Int := (({} : MemoryQueue Unit Int).offer sizedSettings 0 () 10).1

def consuming : AsyncQueue Unit Int :=
  let item : Item Unit Int Nat := ⟨(), 10, 0⟩
  { queue := { fullQueue with items := { nodes := [⟨item, none⟩] } }
    consumers := [.running]
    outstanding := [item]
    accepted := [item]
    reads := [item] }

def producerBlocked : Monitor (AsyncQueue Unit Int) (Unit × Int) Offered :=
  { shared := consuming
    waiting := 1
    goroutines := [.left ((), 10) (.added 0 none), .selecting ((), 10)] }

theorem producerBlocked_reached :
    Reached (MonitorStep (asyncCode sizedSettings)) Always
      (.start { consumers := [.running] } [((), 10), ((), 10)]) producerBlocked := by
  have initial : Reached (MonitorStep (asyncCode sizedSettings)) Always
      (.start { consumers := [.running] } [((), 10), ((), 10)])
      (.start { consumers := [.running] } [((), 10), ((), 10)]) := .start
  have offered := initial.step trivial (.leave _ [] _ _ ((), 10) (.added 0 none) _ rfl rfl (.calling _)
    (.added 0 0 rfl rfl rfl (.nobody _ (by decide))))
  have read := (offered.step trivial (.enter _ _ _ rfl (.read [] [] rfl rfl))).step trivial (.unlock _ rfl)
  exact read.step trivial (.wait _ [_] [] _ ((), 10) _ rfl rfl (.calling _) (.kept 0 rfl rfl))

theorem memory_queue_fifo_blocked :
    consuming.queue.size = 10 ∧
    consuming.queue.size = totalSize sizedSettings consuming.queue.items.contents +
      totalSize sizedSettings consuming.outstanding ∧
    consuming.accepted = consuming.reads ++ consuming.queue.items.contents := by
  obtain ⟨size, -, -, -, -, order, -⟩ := memory_queue_fifo (by decide) producerBlocked_reached
  exact ⟨rfl, size, order⟩

theorem shutdown_drains_blocked :
    ∃ state, Reached (MonitorStep (asyncCode sizedSettings)) Always
        (.start { consumers := [.running] } [((), 10), ((), 10)]) state ∧
      state.shared.AllExited ∧ .left ((), 10) (.added 0 none) ∈ state.goroutines ∧
      ∀ request address, .left request (.added address none) ∈ state.goroutines →
        address ∉ state.shared.queue.items.addresses := by
  have cancelled := (producerBlocked_reached.step trivial (.cancel _ [_] [] ((), 10) rfl)).step trivial
    (.giveUp _ [_] [] ((), 10) rfl rfl Nat.noConfusion)
  have stopped := (cancelled.step trivial (.enter _ _ _ rfl .shutdown)).step trivial (.unlock _ rfl)
  have exited := stopped.step trivial (.enter _ _ _ rfl (.exit [] [] rfl rfl))
  have all : ∀ consumer ∈ [Consumer.exited], consumer = .exited := by decide
  exact ⟨_, exited, all, mem_cons_self, (shutdown_drains_iff exited all).mpr (.inr rfl)⟩

/-- After Shutdown the last completion makes room for a blocked producer, but the
consumer takes the lock first, finds the list empty and exits. -/
theorem late_producer_stranded :
    ∃ state, Reached (MonitorStep (asyncCode sizedSettings)) Always
        (.start { consumers := [.running] } [((), 10), ((), 10)]) state ∧
      state.shared.queue.stopped = true ∧ state.shared.AllExited ∧
      state.goroutines = [.left ((), 10) (.added 0 none), .left ((), 10) (.added 1 none)] ∧
      1 ∈ state.shared.queue.items.addresses := by
  have stopped := (producerBlocked_reached.step trivial (.enter _ _ _ rfl .shutdown)).step trivial (.unlock _ rfl)
  have done := stopped.step trivial (.enter _ _ _ rfl (.onDone [] [] ⟨(), 10, 0⟩ none rfl))
  have signalled := ((done.step trivial (.signal _ 0 rfl Nat.noConfusion)).step trivial
    (.send _ 0 rfl rfl)).step trivial (.unlock _ rfl)
  have exited := (signalled.step trivial (.enter _ _ _ rfl (.exit [] [] rfl rfl))).step trivial (.unlock _ rfl)
  have woken := exited.step trivial (.receive _ [_] [] ((), 10) rfl rfl)
  have added := woken.step trivial (.leave _ [_] [] _ ((), 10) (.added 1 none) _ rfl rfl (.woken _)
    (.added 0 1 rfl rfl rfl (.nobody _ (by decide))))
  have all : ∀ consumer ∈ [Consumer.exited], consumer = .exited := by decide
  exact ⟨_, added, rfl, all, rfl, by decide⟩

end blocked

end CollectorFormal.Queue
