import CollectorFormal.Queue.PersistentStored
import Mathlib.Algebra.Order.BigOperators.Group.Multiset
import Mathlib.Algebra.Order.Group.Int
import Mathlib.Tactic.Linarith

/-! The books kept over the whole life of a storage, and metadata that accounts for them: it tracks the requests
offered and not yet finished, with the sums of their sizes. -/

namespace CollectorFormal.Queue

open Lib List Multiset

variable {Ctx T : Type} [Request T]

/-- What producers and consumers were told, and the capacity in force. -/
structure Books (T : Type) where
  /-- Requests whose batch in Offer was committed. -/
  offered : Multiset T := 0
  /-- Requests whose deleting batch in OnDone was committed. -/
  finished : Multiset T := 0
  capacity : Int
  /-- Some restart lowered the capacity. -/
  lowered : Bool := false

def total (sizerType : SizerType) (reqs : Multiset T) : Int := (reqs.map (sizeof sizerType)).sum

variable (T) in
def NonnegativeSizes : Prop := ∀ req : T, 0 ≤ Request.itemsCount req ∧ 0 ≤ Request.bytesSize req

@[simp] theorem total_zero (sizerType : SizerType) : total sizerType (0 : Multiset T) = 0 := rfl

@[simp] theorem total_cons (sizerType : SizerType) (req : T) (reqs : Multiset T) :
    total sizerType (req ::ₘ reqs) = sizeof sizerType req + total sizerType reqs := by
  simp [total]

theorem total_requests (reqs : Multiset T) : total .requests reqs = reqs.card := by
  induction reqs using Multiset.induction_on with
  | empty => rfl
  | cons req reqs ih =>
    rw [total_cons, ih, Multiset.card_cons, sizeof]
    omega

theorem sizeof_nonneg (nonneg : NonnegativeSizes T) (sizerType : SizerType) (req : T) : 0 ≤ sizeof sizerType req := by
  cases sizerType with
  | requests => exact Int.one_nonneg
  | items => exact (nonneg req).1
  | bytes => exact (nonneg req).2

theorem total_nonneg (nonneg : NonnegativeSizes T) (sizerType : SizerType) (reqs : Multiset T) :
    0 ≤ total sizerType reqs :=
  sum_nonneg fun size member => by
    obtain ⟨req, -, rfl⟩ := mem_map.mp member
    exact sizeof_nonneg nonneg sizerType req

theorem clamp_of_nonneg (size : Int) (nonneg : 0 ≤ size) : Metadata.clamp size = size := by
  rw [Metadata.clamp, if_neg (by omega)]

/-- The metadata tracks the unfinished requests and has their sizes. -/
structure Accounts (set : Settings Ctx T) (store : Store) (books : Books T) (metadata : Metadata) :
    Prop where
  backed : Backed set store metadata
  ledger : live set.encoding store metadata + books.finished = books.offered
  items : NonnegativeSizes T → metadata.itemsSize = total .items (live set.encoding store metadata)
  bytes : NonnegativeSizes T → metadata.bytesSize = total .bytes (live set.encoding store metadata)
  bounded : NonnegativeSizes T → books.lowered = false →
    total set.sizerType (live set.encoding store metadata) ≤ max 0 books.capacity

def Intact (set : Settings Ctx T) (store : Store) (metadata : Metadata) : Prop :=
  ∀ index ∈ metadata.currentlyDispatchedItems, ∃ req, requestAt set.encoding store index = some req

variable {set : Settings Ctx T} {client after : Client} {store : Store} {books : Books T} {metadata : Metadata}

theorem accounts_fresh (set : Settings Ctx T) (capacity : Int) :
    Accounts set (fun _ => none) { capacity := capacity } {} := by
  have nothing : live set.encoding (fun _ => none) {} = 0 := rfl
  refine ⟨backed_fresh set, rfl, fun _ => ?_, fun _ => ?_, fun _ _ => ?_⟩
  · rw [nothing]
    rfl
  · rw [nothing]
    rfl
  · rw [nothing]
    exact le_max_left _ _

omit [Request T] in
theorem card_live (backed : Backed set store metadata) (intact : Intact set store metadata) :
    ((live set.encoding store metadata).card : Int) = metadata.requestSize := by
  have found : ∀ index ∈ metadata.tracked, (requestAt set.encoding store index).isSome := by
    intro index member
    rcases mem_append.mp member with waiting | dispatched
    · obtain ⟨req, present⟩ := backed.waiting index waiting
      rw [present]
      rfl
    · obtain ⟨req, present⟩ := intact index dispatched
      rw [present]
      rfl
  have size : (metadata.tracked.filterMap (requestAt set.encoding store)).length =
      metadata.tracked.length := by
    rw [length_filterMap_eq_countP, countP_eq_length]
    exact found
  have ordered := backed.formed.ordered
  rw [live, contents, coe_card, size, Metadata.tracked, length_append,
    Metadata.waiting, length_range', Metadata.requestSize]
  omega

section
variable (accounts : Accounts set store books metadata)
include accounts

section
variable (intact : Intact set store metadata)
include intact

theorem Accounts.internalSize (nonneg : NonnegativeSizes T) (sizerType : SizerType) :
    metadata.internalSize sizerType = total sizerType (live set.encoding store metadata) := by
  cases sizerType with
  | requests => rw [total_requests, card_live accounts.backed intact, Metadata.internalSize]
  | items => exact accounts.items nonneg
  | bytes => exact accounts.bytes nonneg

theorem Accounts.resetIfDrained_eq (nonneg : NonnegativeSizes T) : metadata.resetIfDrained = metadata := by
  rw [Metadata.resetIfDrained]
  split
  · next drained =>
      have empty : live set.encoding store metadata = 0 := by
        have count := card_live accounts.backed intact
        rw [drained] at count
        exact card_eq_zero.mp (by exact_mod_cast count)
      have items := accounts.items nonneg
      have bytes := accounts.bytes nonneg
      rw [empty, total_zero] at items bytes
      cases metadata
      cases items
      cases bytes
      rfl
  · rfl

theorem Accounts.resetIfDrained : Accounts set store books metadata.resetIfDrained := by
  obtain ⟨read, written, dispatched⟩ := resetIfDrained_indices metadata
  have same := live_congr set.encoding store metadata.resetIfDrained metadata read written dispatched
  refine ⟨accounts.backed.congr read written dispatched, ?_, ?_, ?_, ?_⟩
  · rw [same]
    exact accounts.ledger
  · intro nonneg
    rw [same, accounts.resetIfDrained_eq intact nonneg]
    exact accounts.items nonneg
  · intro nonneg
    rw [same, accounts.resetIfDrained_eq intact nonneg]
    exact accounts.bytes nonneg
  · rw [same]
    exact accounts.bounded

end

theorem Accounts.forgetDispatched
    (missing : ∀ index ∈ metadata.currentlyDispatchedItems, store (getItemKey index) = none) :
    Accounts set store books { metadata with currentlyDispatchedItems := [] } := by
  have same := live_stale set.encoding store metadata missing
  obtain ⟨backed, ledger, items, bytes, bounded⟩ := accounts
  rw [← same] at ledger items bytes bounded
  exact ⟨backed.forgetDispatched, ledger, items, bytes, bounded⟩

theorem Accounts.recovered {recovered : Metadata} (backed : Backed set after.store recovered)
    (same : live set.encoding after.store recovered = live set.encoding store metadata)
    (items : recovered.itemsSize = metadata.itemsSize)
    (bytes : recovered.bytesSize = metadata.bytesSize) (capacity : Int) :
    Accounts set after.store
      { books with
        capacity := capacity
        lowered := books.lowered || decide (capacity < books.capacity) } recovered := by
  refine ⟨backed, ?_, ?_, ?_, ?_⟩
  · rw [same]
    exact accounts.ledger
  · intro nonneg
    rw [same, items]
    exact accounts.items nonneg
  · intro nonneg
    rw [same, bytes]
    exact accounts.bytes nonneg
  · intro nonneg raised
    simp only [Bool.or_eq_false_iff, decide_eq_false_iff_not, not_lt] at raised
    rw [same]
    calc
      _ ≤ max 0 books.capacity := accounts.bounded nonneg raised.1
      _ ≤ max 0 capacity := max_le_max (le_refl 0) raised.2

end

theorem Accounts.append {reqBuf : Bytes} {restored : Ctx} {req : T}
    (accounts : Accounts set client.store books metadata) (intact : Intact set client.store metadata)
    (fits : metadata.internalSize set.sizerType + sizeof set.sizerType req ≤ books.capacity)
    (wrote : Wrote set client after (metadata.addSizes req).advanceWrite metadata.writeIndex (some reqBuf))
    (decoded : set.encoding.unmarshal (some reqBuf) = .ok (restored, req)) :
    Accounts set after.store { books with offered := req ::ₘ books.offered } (metadata.addSizes req).advanceWrite := by
  obtain ⟨stored, added⟩ := wrote.append decoded accounts.backed rfl rfl rfl
  refine ⟨stored.toBacked, ?_, ?_, ?_, ?_⟩
  · rw [added, cons_add, accounts.ledger]
  · intro nonneg
    rw [added, total_cons, ← accounts.items nonneg, add_comm]
    rfl
  · intro nonneg
    rw [added, total_cons, ← accounts.bytes nonneg, add_comm]
    rfl
  · intro nonneg _
    rw [added, total_cons, ← accounts.internalSize intact nonneg, add_comm]
    exact fits.trans (le_max_right _ _)

theorem Accounts.take (accounts : Accounts set client.store books metadata)
    (more : metadata.readIndex < metadata.writeIndex)
    (wrote : Wrote set client after metadata.takeNext metadata.readIndex
      (client.store (getItemKey metadata.readIndex))) :
    Accounts set after.store books metadata.takeNext := by
  obtain ⟨stored, same, -⟩ := wrote.take rfl accounts.backed more
  obtain ⟨-, ledger, items, bytes, bounded⟩ := accounts
  rw [← same] at ledger items bytes bounded
  exact ⟨stored.toBacked, ledger, items, bytes, bounded⟩

/-- What the consumer was given to hand back to OnDone. -/
structure Handle (T : Type) where
  done : IndexDone
  req : T

structure Handle.Valid (set : Settings Ctx T) (store : Store) (metadata : Metadata) (handle : Handle T) : Prop where
  dispatched : handle.done.index ∈ metadata.currentlyDispatchedItems
  present : requestAt set.encoding store handle.done.index = some handle.req
  items : handle.done.itemsSize = sizeof .items handle.req
  bytes : handle.done.bytesSize = sizeof .bytes handle.req

theorem Accounts.covers {handle : Handle T} (accounts : Accounts set store books metadata)
    (valid : handle.Valid set store metadata) (nonneg : NonnegativeSizes T) :
    0 ≤ metadata.itemsSize - handle.done.itemsSize ∧ 0 ≤ metadata.bytesSize - handle.done.bytesSize := by
  have split := live_dropDispatched set.encoding store store metadata handle.done.index handle.req
    accounts.backed.formed valid.dispatched valid.present fun _ _ => rfl
  rw [accounts.items nonneg, accounts.bytes nonneg, valid.items, valid.bytes, ← split, total_cons, total_cons]
  constructor <;> linarith [total_nonneg nonneg .items
      (live set.encoding store (metadata.dropDispatched handle.done.index)),
    total_nonneg nonneg .bytes (live set.encoding store (metadata.dropDispatched handle.done.index))]

def Metadata.finished (id : IndexDone) (metadata : Metadata) : Metadata :=
  ((metadata.subtractSizes id).dropDispatched id.index).resetIfDrained

omit [Request T] in
theorem Intact.drop (intact : Intact set client.store metadata) (unique : metadata.WellFormed)
    {index : Nat} {value : Option Bytes} {written : Metadata}
    (wrote : Wrote set client after written index value) :
    Intact set after.store (metadata.dropDispatched index) := by
  intro other member
  obtain ⟨different, member⟩ := (mem_swapRemove index other _ unique.unique).mp member
  rw [wrote.requestAt_other other different]
  exact intact other member

/-- OnDone before the sizes are brought back in sync. -/
theorem Accounts.drop {handle : Handle T} (accounts : Accounts set client.store books metadata)
    (valid : handle.Valid set client.store metadata) {written : Metadata}
    (wrote : Wrote set client after written handle.done.index none) :
    Accounts set after.store { books with finished := handle.req ::ₘ books.finished }
      ((metadata.subtractSizes handle.done).dropDispatched handle.done.index) := by
  have backed : Backed set client.store (metadata.subtractSizes handle.done) :=
    accounts.backed.congr rfl rfl rfl
  have removed : handle.req ::ₘ live set.encoding after.store
      ((metadata.subtractSizes handle.done).dropDispatched handle.done.index) =
        live set.encoding client.store metadata :=
    live_dropDispatched set.encoding client.store after.store (metadata.subtractSizes handle.done)
      handle.done.index handle.req backed.formed valid.dispatched valid.present
      fun other different => wrote.requestAt_other other different
  refine ⟨backed.drop valid.dispatched wrote, ?_, ?_, ?_, ?_⟩
  · rw [add_cons, ← cons_add, removed, accounts.ledger]
  · intro nonneg
    have items := accounts.items nonneg
    rw [← removed, total_cons] at items
    rw [eq_sub_of_add_eq' items.symm, ← valid.items]
    exact clamp_of_nonneg _ (accounts.covers valid nonneg).1
  · intro nonneg
    have bytes := accounts.bytes nonneg
    rw [← removed, total_cons] at bytes
    rw [eq_sub_of_add_eq' bytes.symm, ← valid.bytes]
    exact clamp_of_nonneg _ (accounts.covers valid nonneg).2
  · intro nonneg raised
    have bounded := accounts.bounded nonneg raised
    rw [← removed, total_cons] at bounded
    linarith [sizeof_nonneg nonneg set.sizerType handle.req]

theorem Accounts.finish {handle : Handle T} (accounts : Accounts set client.store books metadata)
    (intact : Intact set client.store metadata) (valid : handle.Valid set client.store metadata)
    {written : Metadata} (wrote : Wrote set client after written handle.done.index none) :
    Accounts set after.store { books with finished := handle.req ::ₘ books.finished } (metadata.finished handle.done) ∧
    Intact set after.store (metadata.finished handle.done) := by
  have kept : Intact set after.store ((metadata.subtractSizes handle.done).dropDispatched handle.done.index) :=
    intact.drop accounts.backed.formed wrote
  refine ⟨(accounts.drop valid wrote).resetIfDrained kept, ?_⟩
  intro index member
  exact kept index ((resetIfDrained_indices _).2.2 ▸ member)

end CollectorFormal.Queue
