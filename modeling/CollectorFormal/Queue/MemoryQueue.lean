import CollectorFormal.Queue.LinkedQueue
import Mathlib.Algebra.BigOperators.Group.List.Basic
import Mathlib.Algebra.Order.BigOperators.Group.List
import Mathlib.Algebra.Order.Ring.Int
import Mathlib.Data.List.Nodup
import Mathlib.Tactic.Common

/-! The in-memory queue. Its sizes are the source's int64 sizes, which elements kept in memory never exhaust. The
values of the pool of blockingDone live on after they are put back, so they have addresses. -/

namespace CollectorFormal.Queue

open List Option

variable {Ctx T : Type}

inductive MemoryError where
  | invalidSize
  | sizeTooLarge
  | queueIsFull
  | contextDone
  /-- Whatever the consumer passed to OnDone. -/
  | consumer (text : String)
  deriving DecidableEq

structure MemorySettings (Ctx T : Type) where
  sizer : T → Int
  capacity : Int
  waitForResult : Bool
  blockOnOverflow : Bool
  withoutCancel : Ctx → Ctx

structure BlockingDone where
  elSize : Int := 0
  /-- The value in the channel of capacity one. -/
  ch : Option (Option MemoryError) := none
  deriving DecidableEq

structure MemoryQueue (Ctx T : Type) where
  items : LinkedQueue Ctx T Nat := {}
  size : Int := 0
  stopped : Bool := false
  dones : List BlockingDone := []
  /-- blockingDonePool -/
  pool : List Nat := []

inductive AddResult where
  | wait
  | failed (err : MemoryError)
  | added (address done : Nat)

/-- A producer has returned without having added anything, or added a node and waits for its result, or has returned
that. -/
inductive Offered where
  | returned (err : Option MemoryError)
  | awaiting (address done : Nat)
  | added (address : Nat) (err : Option MemoryError)
  deriving DecidableEq

inductive MemoryRead (Ctx T : Type) where
  | item (item : Item Ctx T Nat)
  | stopped
  | wait

namespace MemoryQueue

/-- The pool may hand out any value it holds, or make a new one. -/
def poolGet (choice : Nat) (mq : MemoryQueue Ctx T) : MemoryQueue Ctx T × Nat :=
  match mq.pool[choice]? with
  | some done => ({ mq with pool := mq.pool.eraseIdx choice }, done)
  | none => ({ mq with dones := mq.dones ++ [{}] }, mq.dones.length)

def reset (done : Nat) (elSize : Int) (mq : MemoryQueue Ctx T) : MemoryQueue Ctx T :=
  { mq with dones := mq.dones.modify done fun bd => { bd with elSize := elSize } }

section settings
variable (set : MemorySettings Ctx T)

def add (choice : Nat) (ctx : Ctx) (el : T) (elSize : Int) (mq : MemoryQueue Ctx T) : MemoryQueue Ctx T × AddResult :=
  if mq.size + elSize > set.capacity then
    if !set.blockOnOverflow then (mq, .failed .queueIsFull) else (mq, .wait)
  else
    let r := { mq with size := mq.size + elSize }.poolGet choice
    let mq := r.1.reset r.2 elSize
    let ctx := if !set.waitForResult then set.withoutCancel ctx else ctx
    ({ mq with items := mq.items.push ctx el r.2 }, .added mq.items.nodes.length r.2)

/-- Offer up to the wait for the result; `none` when it goes into Wait. -/
def offer (choice : Nat) (ctx : Ctx) (el : T) (mq : MemoryQueue Ctx T) : MemoryQueue Ctx T × Option Offered :=
  let elSize := set.sizer el
  if elSize = 0 then (mq, some (.returned none))
  else if elSize ≤ 0 then (mq, some (.returned (some .invalidSize)))
  else if elSize > set.capacity then (mq, some (.returned (some .sizeTooLarge)))
  else
    match mq.add set choice ctx el elSize with
    | (mq, .wait) => (mq, none)
    | (mq, .failed err) => (mq, some (.returned (some err)))
    | (mq, .added address done) =>
      (mq, some (if set.waitForResult then .awaiting address done else .added address none))

/-- The end of Offer when the result arrives. -/
def receiveResult (done : Nat) (mq : MemoryQueue Ctx T) :
    Option (MemoryQueue Ctx T × Option MemoryError) := do
  let bd ← mq.dones[done]?
  let doneErr ← bd.ch
  return ({ mq with
    dones := mq.dones.modify done fun bd => { bd with ch := none }
    pool := mq.pool ++ [done] }, doneErr)

/-- One turn of the loop of Read; no answer stands for a panic of pop. -/
def read (mq : MemoryQueue Ctx T) : Option (MemoryQueue Ctx T × MemoryRead Ctx T) :=
  if mq.items.hasElements then
    mq.items.pop.map fun r => ({ mq with items := r.1 }, .item r.2)
  else if mq.stopped then some (mq, .stopped)
  else some (mq, .wait)

def onDone (done : Nat) (err : Option MemoryError) (mq : MemoryQueue Ctx T) : MemoryQueue Ctx T :=
  let mq := { mq with size := mq.size - (mq.dones.getD done {}).elSize }
  if set.waitForResult then
    { mq with dones := mq.dones.modify done fun bd => { bd with ch := some err } }
  else { mq with pool := mq.pool ++ [done] }

def shutdown (mq : MemoryQueue Ctx T) : MemoryQueue Ctx T := { mq with stopped := true }

end settings

end MemoryQueue

/-- The values in use carry the size they were reset to and an empty channel, and none are shared, also in the pool.
-/
structure Unshared (dones : List BlockingDone) (pool : List Nat) (live : List (Nat × Int)) : Prop where
  used : ∀ use ∈ live, dones[use.1]? = some ⟨use.2, none⟩
  pooled : ∀ done ∈ pool, ∃ elSize, dones[done]? = some ⟨elSize, none⟩
  distinct : (live.map Prod.fst ++ pool).Nodup

section pool
variable {dones : List BlockingDone} {pool : List Nat} {live others : List (Nat × Int)}
variable {done : Nat} {elSize : Int}

theorem Unshared.perm (unshared : Unshared dones pool live) (same : live.Perm others) : Unshared dones pool others :=
  ⟨fun use member => unshared.used use (same.mem_iff.mpr member), unshared.pooled,
    ((same.map Prod.fst).append_right pool).nodup unshared.distinct⟩

theorem Unshared.modify (unshared : Unshared dones pool live) (update : BlockingDone → BlockingDone)
    (free : done ∉ live.map Prod.fst ++ pool) : Unshared (dones.modify done update) pool live := by
  have outside (other : Nat) (member : other ∈ live.map Prod.fst ++ pool) :
      (dones.modify done update)[other]? = dones[other]? := by
    have apart : done ≠ other := by
      rintro rfl
      exact free member
    simp only [getElem?_modify, if_neg apart]
    exact id_map' _
  refine ⟨fun use member => ?_, fun other member => ?_, unshared.distinct⟩
  · rw [outside _ (mem_append_left _ (mem_map_of_mem member))]
    exact unshared.used use member
  · rw [outside _ (mem_append_right _ member)]
    exact unshared.pooled other member

theorem Unshared.take {front back : List Nat} (unshared : Unshared dones (front ++ done :: back) live) :
    Unshared dones (front ++ back) live ∧ done ∉ live.map Prod.fst ++ (front ++ back) := by
  obtain ⟨inUse, pooled, distinct⟩ := unshared
  have split : (done :: (live.map Prod.fst ++ (front ++ back))).Nodup := by
    rw [← append_assoc] at distinct
    rw [← append_assoc]
    exact perm_middle.nodup distinct
  obtain ⟨absent, rest⟩ := nodup_cons.mp split
  refine ⟨⟨inUse, fun other member => pooled other ?_, rest⟩, absent⟩
  rcases mem_append.mp member with before | after
  · exact mem_append_left _ before
  · exact mem_append_right _ (mem_cons_of_mem _ after)

theorem Unshared.cons (unshared : Unshared dones pool live) (fresh : done ∉ live.map Prod.fst ++ pool)
    (here : dones[done]? = some ⟨elSize, none⟩) : Unshared dones pool ((done, elSize) :: live) := by
  refine ⟨fun use member => ?_, unshared.pooled, ?_⟩
  · rcases mem_cons.mp member with rfl | member
    · exact here
    · exact unshared.used use member
  · rw [map_cons, cons_append]
    exact nodup_cons.mpr ⟨fresh, unshared.distinct⟩

theorem Unshared.uncons (unshared : Unshared dones pool ((done, elSize) :: live)) :
    Unshared dones pool live ∧ done ∉ live.map Prod.fst ++ pool := by
  obtain ⟨inUse, pooled, distinct⟩ := unshared
  rw [map_cons, cons_append, nodup_cons] at distinct
  exact ⟨⟨fun use member => inUse use (mem_cons_of_mem _ member), pooled, distinct.2⟩, distinct.1⟩

theorem Unshared.put (unshared : Unshared dones pool live) (free : done ∉ live.map Prod.fst ++ pool)
    (here : dones[done]? = some ⟨elSize, none⟩) : Unshared dones (pool ++ [done]) live := by
  refine ⟨unshared.used, fun other member => ?_, ?_⟩
  · rcases mem_append.mp member with old | new
    · exact unshared.pooled other old
    · rw [mem_singleton.mp new]
      exact ⟨elSize, here⟩
  · rw [← append_assoc]
    exact nodup_append.mpr ⟨unshared.distinct, nodup_singleton _, by
      rintro other member _ single rfl
      exact free (mem_singleton.mp single ▸ member)⟩

theorem Unshared.free_of_full (unshared : Unshared dones pool live) {bd : BlockingDone}
    (here : dones[done]? = some bd) (full : bd.ch ≠ none) : done ∉ live.map Prod.fst ++ pool := by
  intro member
  rcases mem_append.mp member with inUse | pooled
  · obtain ⟨use, listed, rfl⟩ := mem_map.mp inUse
    obtain rfl := Option.some.inj (here.symm.trans (unshared.used use listed))
    exact full rfl
  · obtain ⟨elSize, held⟩ := unshared.pooled done pooled
    obtain rfl := Option.some.inj (here.symm.trans held)
    exact full rfl

end pool

namespace MemoryQueue

variable {mq : MemoryQueue Ctx T} {live : List (Nat × Int)}

theorem poolGet_unshared (choice : Nat) (unshared : Unshared mq.dones mq.pool live) :
    ∃ dones pool, (mq.poolGet choice).1 = { mq with dones := dones, pool := pool } ∧ Unshared dones pool live ∧
      (mq.poolGet choice).2 ∉ live.map Prod.fst ++ pool ∧
      ∃ elSize, dones[(mq.poolGet choice).2]? = some ⟨elSize, none⟩ := by
  unfold poolGet
  split
  · next done here =>
      obtain ⟨inside, found⟩ := List.getElem?_eq_some_iff.mp here
      have split : mq.pool = mq.pool.take choice ++ done :: mq.pool.drop (choice + 1) := by
        rw [← found, List.cons_getElem_drop_succ, List.take_append_drop]
      have held := unshared.pooled done (List.mem_of_getElem? here)
      rw [split] at unshared
      obtain ⟨rest, absent⟩ := unshared.take
      rw [← eraseIdx_eq_take_drop_succ] at rest absent
      exact ⟨mq.dones, _, rfl, rest, absent, held⟩
  · refine ⟨mq.dones ++ [({} : BlockingDone)], mq.pool, rfl, ⟨fun use member => ?_, fun done member => ?_, unshared.distinct⟩,
      fun member => ?_, 0, by simp⟩
    · have held := unshared.used use member
      rwa [List.getElem?_append_left (List.getElem?_eq_some_iff.mp held).1]
    · obtain ⟨elSize, held⟩ := unshared.pooled done member
      refine ⟨elSize, ?_⟩
      rwa [List.getElem?_append_left (List.getElem?_eq_some_iff.mp held).1]
    · have outside : mq.dones[mq.dones.length]? = none := List.getElem?_eq_none (le_refl _)
      rcases List.mem_append.mp member with inUse | pooled
      · obtain ⟨use, member, same⟩ := List.mem_map.mp inUse
        have held := unshared.used use member
        rw [same, outside] at held
        cases held
      · obtain ⟨elSize, held⟩ := unshared.pooled _ pooled
        rw [outside] at held
        cases held

section spec
variable {set : MemorySettings Ctx T} {queue : MemoryQueue Ctx T}

theorem offer_empty (choice : Nat) (ctx : Ctx) {el : T} (empty : set.sizer el = 0) :
    mq.offer set choice ctx el = (mq, some (.returned none)) := by
  rw [offer, if_pos empty]

theorem add_cases {choice : Nat} {ctx : Ctx} {el : T} {elSize : Int} {result : AddResult}
    (unshared : Unshared mq.dones mq.pool live) (ran : mq.add set choice ctx el elSize = (queue, result)) :
    (queue = mq ∧ (result = .wait ∨ ∃ err, result = .failed err)) ∨
    (mq.size + elSize ≤ set.capacity ∧ ∃ held done dones pool, Unshared dones pool ((done, elSize) :: live) ∧
      queue = { mq with
        size := mq.size + elSize
        dones := dones
        pool := pool
        items := mq.items.push held el done } ∧
      result = .added mq.items.nodes.length done) := by
  unfold add at ran
  split at ran
  · split at ran
    · obtain ⟨rfl, rfl⟩ := Prod.mk.inj ran
      exact .inl ⟨rfl, .inr ⟨_, rfl⟩⟩
    · obtain ⟨rfl, rfl⟩ := Prod.mk.inj ran
      exact .inl ⟨rfl, .inl rfl⟩
  · next room =>
      obtain ⟨dones, pool, got, kept, free, old, held⟩ :=
        @poolGet_unshared _ _ { mq with size := mq.size + elSize } live choice unshared
      have fresh := kept.modify (fun bd => { bd with elSize := elSize }) free
      dsimp only at ran
      rw [got] at ran
      obtain ⟨rfl, rfl⟩ := Prod.mk.inj ran
      refine .inr ⟨by omega, _, _, _, _, fresh.cons free ?_, rfl, rfl⟩
      simp [held]

theorem offer_cases {choice : Nat} {ctx : Ctx} {el : T} {result : Option Offered}
    (unshared : Unshared mq.dones mq.pool live) (offered : mq.offer set choice ctx el = (queue, result)) :
    (queue = mq ∧ (result = none ∨ ∃ err, result = some (.returned err))) ∨
    (0 < set.sizer el ∧ mq.size + set.sizer el ≤ set.capacity ∧ ∃ held done dones pool,
      Unshared dones pool ((done, set.sizer el) :: live) ∧
      queue = { mq with
        size := mq.size + set.sizer el
        dones := dones
        pool := pool
        items := mq.items.push held el done } ∧
      result = some (if set.waitForResult then .awaiting mq.items.nodes.length done
        else .added mq.items.nodes.length none)) := by
  have refused {err : Option MemoryError} (same : (mq, some (.returned err)) = (queue, result)) :
      queue = mq ∧ (result = none ∨ ∃ err, result = some (.returned err)) := by
    obtain ⟨rfl, rfl⟩ := Prod.mk.inj same
    exact ⟨rfl, .inr ⟨_, rfl⟩⟩
  unfold offer at offered
  dsimp only at offered
  split at offered
  · exact .inl (refused offered)
  split at offered
  · exact .inl (refused offered)
  next positive =>
    split at offered
    · exact .inl (refused offered)
    split at offered
    · next after ran =>
        rcases add_cases unshared ran with ⟨rfl, -⟩ | ⟨-, _, _, _, _, -, -, other⟩
        · obtain ⟨rfl, rfl⟩ := Prod.mk.inj offered
          exact .inl ⟨rfl, .inl rfl⟩
        · cases other
    · next after err ran =>
        rcases add_cases unshared ran with ⟨rfl, -⟩ | ⟨-, _, _, _, _, -, -, other⟩
        · exact .inl (refused offered)
        · cases other
    · next after address done ran =>
        rcases add_cases unshared ran with ⟨-, other | ⟨_, other⟩⟩ | ⟨room, held, _, dones, pool, kept, rfl, same⟩
        · cases other
        · cases other
        · obtain ⟨rfl, rfl⟩ := AddResult.added.inj same
          obtain ⟨rfl, rfl⟩ := Prod.mk.inj offered
          exact .inr ⟨by omega, room, held, _, dones, pool, kept, rfl, rfl⟩

theorem read_cases {outcome : MemoryRead Ctx T} {list : List Nat} (represents : mq.items.Represents list)
    (ran : mq.read = some (queue, outcome)) :
    (∃ items held, mq.items.pop = some (items, held) ∧ queue = { mq with items := items } ∧
      outcome = .item held ∧ list ≠ []) ∨
    (list = [] ∧ queue = mq ∧ outcome = if mq.stopped then .stopped else .wait) := by
  unfold read at ran
  split at ran
  · next more =>
      obtain ⟨r, popped, same⟩ := map_eq_some_iff.mp ran
      obtain ⟨rfl, rfl⟩ := Prod.mk.inj same
      exact .inl ⟨r.1, r.2, popped, rfl, rfl, (LinkedQueue.hasElements_iff represents).mp more⟩
  · next less =>
      have empty : list = [] := by
        by_contra more
        exact less ((LinkedQueue.hasElements_iff represents).mpr more)
      split at ran
      · next stopped =>
          obtain ⟨rfl, rfl⟩ := Prod.mk.inj (Option.some.inj ran)
          exact .inr ⟨empty, rfl, by rw [if_pos stopped]⟩
      · next active =>
          obtain ⟨rfl, rfl⟩ := Prod.mk.inj (Option.some.inj ran)
          exact .inr ⟨empty, rfl, by rw [if_neg active]⟩

theorem onDone_unshared (set : MemorySettings Ctx T) {done : Nat} {elSize : Int} (err : Option MemoryError)
    (unshared : Unshared mq.dones mq.pool ((done, elSize) :: live)) :
    ∃ dones pool, mq.onDone set done err = { mq with size := mq.size - elSize, dones := dones, pool := pool } ∧
      Unshared dones pool live := by
  have here := unshared.used (done, elSize) mem_cons_self
  obtain ⟨rest, free⟩ := unshared.uncons
  have size : (mq.dones.getD done {}).elSize = elSize := by
    rw [getD_eq_getElem?_getD, here]
    rfl
  unfold onDone
  rw [size]
  split
  · exact ⟨_, _, rfl, rest.modify _ free⟩
  · exact ⟨_, _, rfl, rest.put free here⟩

theorem receiveResult_unshared {done : Nat} {err : Option MemoryError}
    (unshared : Unshared mq.dones mq.pool live) (received : mq.receiveResult done = some (queue, err)) :
    ∃ dones pool, queue = { mq with dones := dones, pool := pool } ∧ Unshared dones pool live ∧
      done ∉ live.map Prod.fst := by
  obtain ⟨bd, here, received⟩ := bind_eq_some_iff.mp received
  obtain ⟨doneErr, full, received⟩ := bind_eq_some_iff.mp received
  obtain ⟨rfl, rfl⟩ := Prod.mk.inj (Option.some.inj received)
  have free := unshared.free_of_full here (by rw [full]; exact some_ne_none _)
  have emptied : (mq.dones.modify done fun bd => { bd with ch := none })[done]? = some ⟨bd.elSize, none⟩ := by
    simp [here]
  exact ⟨_, _, rfl, (unshared.modify _ free).put free emptied, fun inUse =>
    free (mem_append_left _ inUse)⟩

end spec

end MemoryQueue

end CollectorFormal.Queue
