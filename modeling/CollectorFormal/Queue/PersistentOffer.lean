import CollectorFormal.Queue.PersistentBlocking

/-! What an Offer that is turned away leaves behind. -/

namespace CollectorFormal.Queue

open Lib List Program

variable {Ctx T : Type} [Request T]

section offering
variable (set : Settings Ctx T) (request : Ctx × T)

/-- The request fits, so that Offer leaves its loop. -/
def Room (session : Session) : Prop :=
  session.queue.metadata.internalSize set.sizerType + sizeof set.sizerType request.2 ≤ session.queue.capacity

def Others : Session → Session → Prop :=
  Relation.ReflTransGen fun before after => ∃ operator, SessionStep set operator before after

/-- An Offer from its call to its return, with its sections under the lock. A Wait that ends with the context returns
at once. -/
inductive OfferRuns : Session → List (Session × Session) → OfferReturn → Prop where
  | returned {before after : Session} {result : OfferReturn}
      (attempted : (persistentCode set).attempt request before after (some result)) :
      OfferRuns before [(before, after)] result
  | ended {before after : Session} (attempted : (persistentCode set).attempt request before after none) :
      OfferRuns before [(before, after)] ((persistentCode set).abandoned request)
  | waited {before after resumed : Session} {parts : List (Session × Session)} {result : OfferReturn}
      (attempted : (persistentCode set).attempt request before after none) (others : Others set after resumed)
      (rest : OfferRuns resumed parts result) : OfferRuns before ((before, after) :: parts) result

end offering

def OfferReturn.Rejected : OfferReturn → Prop
  | .contextEnded => True
  | .queue (some .queueIsFull) => True
  | .queue (some (.encoding _)) => True
  | _ => False

def Unchanged (part : Session × Session) : Prop :=
  part.2.queue.metadata = part.1.queue.metadata ∧ part.2.client.store = part.1.client.store

variable {set : Settings Ctx T} {request : Ctx × T} {before after : Session} {result : Option OfferReturn}

theorem attempt_without_room (full : ¬ Room set request before)
    (attempted : (persistentCode set).attempt request before after result) : Unchanged (before, after) := by
  obtain ⟨client, queue, answer, ran, rfl, rfl⟩ := attempted
  rw [offer, if_pos (Int.not_le.mp full)] at ran
  split at ran <;>
  · obtain ⟨rfl, same⟩ := runs_ret.mp ran
    cases same
    exact ⟨rfl, rfl⟩

theorem attempt_with_room (room : Room set request before)
    (attempted : (persistentCode set).attempt request before after result) :
    after.queue.metadata.writeIndex = before.queue.metadata.writeIndex + 1 ∧
      ∃ err, result = some (.queue err) ∧
        ((OfferReturn.queue err).Rejected → ∃ text, set.encoding.marshal request.1 request.2 = .error text) := by
  obtain ⟨client, queue, answer, ran, rfl, rfl⟩ := attempted
  rw [offer, if_neg (Int.not_lt.mpr room)] at ran
  obtain ⟨_, between, put, ran⟩ := runs_bind.mp ran
  obtain ⟨rfl, same⟩ := runs_ret.mp ran
  cases same
  refine ⟨by rw [putInternal_runs put]; rfl, _, rfl, ?_⟩
  intro rejected
  rw [putInternal] at put
  split at put
  · obtain ⟨rfl, rfl⟩ := runs_ret.mp put
    exact rejected.elim
  · split at put
    · next text failed => exact ⟨text, failed⟩
    · -- the storage was called, and its errors are its own
      obtain ⟨_, reply, answered, put⟩ := runs_call.mp put
      obtain ⟨rfl, rfl⟩ := runs_ret.mp put
      cases answered <;> exact rejected.elim

theorem no_room_of_wait (attempted : (persistentCode set).attempt request before after none) :
    ¬ Room set request before := by
  intro room
  obtain ⟨_, err, absent, _⟩ := attempt_with_room room attempted
  cases absent

/-- An Offer that is rejected leaves the queue as it is iff the encoding can marshal the request wherever there is
room for it. -/
theorem offer_all_or_nothing_iff {parts : List (Session × Session)} {result : OfferReturn}
    (runs : OfferRuns set request before parts result) (rejected : result.Rejected) :
    (∀ part ∈ parts, Unchanged part) ↔
      ∀ part ∈ parts, Room set request part.1 → ∃ buf, set.encoding.marshal request.1 request.2 = .ok buf := by
  induction runs with
  | ended attempted =>
    have full := no_room_of_wait attempted
    simp only [forall_mem_singleton]
    exact iff_of_true (attempt_without_room full attempted) fun room => absurd room full
  | waited attempted others rest ih =>
    have full := no_room_of_wait attempted
    rw [forall_mem_cons, forall_mem_cons, ← ih rejected]
    exact and_congr_left fun _ => iff_of_true (attempt_without_room full attempted) fun room => absurd room full
  | @returned before after result attempted =>
    simp only [forall_mem_singleton]
    by_cases room : Room set request before
    · obtain ⟨advanced, err, same, marshals⟩ := attempt_with_room room attempted
      cases same
      obtain ⟨text, failed⟩ := marshals rejected
      apply iff_of_false
      · intro unchanged
        have same : after.queue.metadata = before.queue.metadata := unchanged.1
        rw [same] at advanced
        omega
      · intro marshals
        obtain ⟨buf, marshalled⟩ := marshals room
        rw [failed] at marshalled
        cases marshalled
    · exact iff_of_true (attempt_without_room room attempted) fun there => absurd there room

section parcel

/-- An encoding that cannot marshal a parcel of more than five items. -/
def brittleSettings : Settings Unit Parcel :=
  { parcelSettings .items with
    encoding.marshal := fun ctx parcel =>
      if 5 < parcel.items then .error "too many items" else parcelEncoding.marshal ctx parcel }

/-- The rejected parcel takes up capacity and an index without a payload, so that another one
is turned away from an empty queue. -/
theorem rejected_offer_leaks :
    ((offer brittleSettings () ⟨8, 40⟩ (Session.open brittleSettings 10).queue).run serve Client.fresh).2.2 =
      .returned (some (.encoding "too many items")) ∧
    ((Session.open brittleSettings 10).offer brittleSettings () ⟨8, 40⟩).queue.metadata = ⟨8, 40, 0, 1, []⟩ ∧
    ((Session.open brittleSettings 10).offer brittleSettings () ⟨8, 40⟩).client.store (.item 0) = none ∧
    ((offer brittleSettings () ⟨4, 20⟩
      ((Session.open brittleSettings 10).offer brittleSettings () ⟨8, 40⟩).queue).run serve Client.fresh).2.2 =
      .returned (some .queueIsFull) := by
  refine ⟨?_, ?_, ?_, ?_⟩ <;> decide +kernel

def smallQueue : Session := Session.open (parcelSettings .items) 2

theorem offer_all_or_nothing_iff_full :
    Unchanged (smallQueue, smallQueue.offer (parcelSettings .items) () ⟨3, 40⟩) := by
  have runs : OfferRuns (parcelSettings .items) ((), ⟨3, 40⟩) smallQueue
      [(smallQueue, smallQueue.offer (parcelSettings .items) () ⟨3, 40⟩)] (.queue (some .queueIsFull)) :=
    .returned ⟨_, _, .returned (some .queueIsFull),
      runs_of_run (offer (parcelSettings .items) () ⟨3, 40⟩ smallQueue.queue) smallQueue.client Answers.served,
      rfl, rfl⟩
  apply (offer_all_or_nothing_iff runs trivial).mpr _ _ (mem_singleton_self _)
  intro part _ _
  exact ⟨_, rfl⟩

end parcel

end CollectorFormal.Queue
