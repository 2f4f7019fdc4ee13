import CollectorFormal.Batcher.LogsRequest

/-! Requests of logs that MergeSplit fails, with sizes in bytes.

Calls of Consume and ticks of the timer come one after the other, as with a single producer. -/

namespace CollectorFormal.Batcher

open CollectorFormal.Batch List Option

inductive Event (Req : Type) where
  | consume (call : Nat) (req : Req)
  | tick

structure Served (Req E : Type) where
  currentBatch : Option (Batch Req) := none
  exported : List (Batch Req) := []
  /-- The calls whose Done was called by Consume itself. -/
  acks : List (Nat × List E) := []

section serve
variable {Req E : Type} (kind : RequestKind Req E) (cfg : BatchConfig)

def serve (s : Served Req E) : Event Req → Served Req E
  | .consume call req =>
    let r := consumeInternal kind cfg s.currentBatch call req
    { currentBatch := r.currentBatch
      exported := s.exported ++ r.flushes
      acks := s.acks ++ (r.acked.map fun err => (call, err)).toList }
  | .tick => { s with currentBatch := none, exported := s.exported ++ s.currentBatch.toList }

def serveAll (events : List (Event Req)) (s : Served Req E) : Served Req E := events.foldl (serve kind cfg) s

theorem serveAll_append (first second : List (Event Req)) (s : Served Req E) :
    serveAll kind cfg (first ++ second) s = serveAll kind cfg second (serveAll kind cfg first s) :=
  foldl_append

theorem serve_acks (s : Served Req E) (acks : List (Nat × List E)) (event : Event Req) :
    ∃ more, serve kind cfg { s with acks := acks } event =
        { serve kind cfg s event with acks := acks ++ more } ∧
      (serve kind cfg s event).acks = s.acks ++ more := by
  cases event with
  | consume call req => exact ⟨_, rfl, rfl⟩
  | tick => exact ⟨[], by rw [append_nil]; rfl, (append_nil _).symm⟩

theorem serveAll_acks (events : List (Event Req)) (s : Served Req E) (acks : List (Nat × List E)) :
    ∃ more, serveAll kind cfg events { s with acks := acks } =
        { serveAll kind cfg events s with acks := acks ++ more } ∧
      (serveAll kind cfg events s).acks = s.acks ++ more := by
  induction events generalizing s acks with
  | nil => exact ⟨[], by rw [append_nil]; rfl, (append_nil _).symm⟩
  | cons event events ih =>
    obtain ⟨first, same, before⟩ := serve_acks kind cfg s acks event
    obtain ⟨more, later, after⟩ := ih (serve kind cfg s event) (acks ++ first)
    refine ⟨first ++ more, ?_, ?_⟩
    · calc
        serveAll kind cfg (event :: events) { s with acks := acks } =
            serveAll kind cfg events (serve kind cfg { s with acks := acks } event) := rfl
        _ = _ := by rw [same, later, append_assoc]; rfl
    · rw [← append_assoc, ← before, ← after]
      rfl

theorem serve_of_refused (s : Served Req E) (call : Nat) {req : Req}
    (refused : (mergeSplitWith kind cfg s.currentBatch req).reqList = []) :
    serve kind cfg s (.consume call req) =
      { currentBatch := s.currentBatch.map fun current =>
          { current with req := (mergeSplitWith kind cfg s.currentBatch req).receiver }
        exported := s.exported
        acks := s.acks ++ [(call, (mergeSplitWith kind cfg s.currentBatch req).err)] } := by
  have spec := consumeInternal_spec kind cfg s.currentBatch call req
  rw [if_pos refused] at spec
  simp only [serve, spec.current, spec.flushes, spec.acked, map_some, toList_some,
    append_nil]

end serve

section split
variable {C β : Type} {splitter : Splitter C β} {maxSize : Int}

/-- Nothing can be taken out of a request that is too large. -/
def Oversized (splitter : Splitter C β) (maxSize : Int) (req : SignalRequest C) : Prop :=
  (req.sized splitter.size).cachedSize > maxSize ∧
    splitter.count (splitter.extract (req.sized splitter.size).data maxSize).dest = 0

theorem split_ne_nil {res : List (SignalRequest C)} (some : res ≠ []) (req : SignalRequest C) :
    (splitter.split maxSize res req).1 ≠ [] := by
  intro none
  have grown := split_grows splitter maxSize res req
  rw [none, prefix_nil] at grown
  exact some grown

theorem split_eq_nil_iff (req : SignalRequest C) :
    (splitter.split maxSize [] req).1 = [] ↔ Oversized splitter maxSize req := by
  rw [Splitter.split, Splitter.splitting]
  simp only
  constructor
  · intro none
    split at none
    · next exceeds =>
        split at none
        · next nothing => exact ⟨exceeds, nothing⟩
        · exact absurd none (split_ne_nil (by simp) _)
    · simp at none
  · intro oversized
    rw [if_pos oversized.1, if_pos oversized.2]

variable {req : SignalRequest C}

theorem split_oversized (oversized : Oversized splitter maxSize req) :
    (splitter.split maxSize [] req).2 ≠ none := by
  rw [Splitter.split, Splitter.splitting]
  simp only
  rw [if_pos oversized.1, if_pos oversized.2]
  simp

theorem remainder_oversized (oversized : Oversized splitter maxSize req) :
    (remainder splitter maxSize req).data.flatMap splitter.content = req.data.flatMap splitter.content := by
  have cut : (splitter.extract req.data maxSize).dest.flatMap splitter.content ++
      (splitter.extract req.data maxSize).rest.flatMap splitter.content =
        req.data.flatMap splitter.content := splitter.conserves req.data maxSize
  have nothing : (splitter.extract req.data maxSize).dest.flatMap splitter.content = [] := by
    rw [← length_eq_zero_iff, ← splitter.counted]
    exact oversized.2
  rw [nothing, nil_append] at cut
  rw [remainder, Splitter.splitting]
  simp only
  rw [if_pos oversized.1, if_pos oversized.2]
  exact cut

end split

section logs
variable {R S L : Type} [Inhabited R] [Inhabited S] (sizes : WireSizes R S L) (cfg : BatchConfig)

def bytesSplitter : Splitter (ResourceLogs R S L) (R × String × S × String × L) :=
  logsSplitter (logsBytesSizer sizes.wire)

/-- A current batch without records, and a request with a first record that is too large. -/
def Stuck (currentBatch : Option (Batch (LogsRequest R S L))) (req : LogsRequest R S L) : Prop :=
  ∃ batch, currentBatch = some batch ∧ logsRecords batch.req = [] ∧ cfg.maxSize ≠ 0 ∧
    Oversized (bytesSplitter sizes) cfg.maxSize (batch.req.merged (bytesSplitter sizes).size (some req))

variable {sizes cfg}

theorem not_oversized {batch req : LogsRequest R S L} {maxSize : Int} (some : logsRecords batch ≠ [])
    (fits : logsSizeof sizes.wire .bytes batch ≤ maxSize) :
    ¬ Oversized (bytesSplitter sizes) maxSize (batch.merged (bytesSplitter sizes).size (Option.some req)) := by
  rintro ⟨_, nothing⟩
  have taken := extractLogs_fitting batch.data req.data maxSize fits
  rw [(bytesSplitter sizes).counted, length_eq_zero_iff] at nothing
  rw [show (extractLogs (logsBytesSizer sizes.wire) (batch.data ++ req.data) maxSize).dest.flatMap
    flattenResource = [] from nothing, prefix_nil] at taken
  exact some taken

/-- The records in batches, those of the exported ones first. -/
def contained (s : Served (LogsRequest R S L) MergeError) : List (R × String × S × String × L) :=
  (s.exported ++ s.currentBatch.toList).flatMap fun batch => logsRecords batch.req

def Small (sizes : WireSizes R S L) (cfg : BatchConfig)
    (currentBatch : Option (Batch (LogsRequest R S L))) : Prop :=
  ∀ batch, currentBatch = some batch → logsSizeof sizes.wire .bytes batch.req < cfg.minSize

section step
variable {currentBatch : Option (Batch (LogsRequest R S L))} {req : LogsRequest R S L}

theorem answer_bytes (sizes : WireSizes R S L) (currentBatch : Option (Batch (LogsRequest R S L)))
    (req : LogsRequest R S L) (bytes : cfg.sizer = .bytes) :
    mergeSplitWith (logsKind sizes.wire) cfg currentBatch req =
      (let merged := match currentBatch with
        | none => req
        | some batch => batch.req.merged (bytesSplitter sizes).size (some req)
      if cfg.maxSize = 0 then ⟨[merged], [], merged⟩
      else ⟨((bytesSplitter sizes).split cfg.maxSize [] merged).1,
        ((bytesSplitter sizes).split cfg.maxSize [] merged).2.toList,
        remainder (bytesSplitter sizes) cfg.maxSize merged⟩) := by
  cases currentBatch with
  | none =>
    rw [mergeSplitWith, bytes]
    exact logsKind_answer rfl cfg.maxSize req none
  | some batch =>
    rw [mergeSplitWith, bytes]
    exact logsKind_answer rfl cfg.maxSize batch.req (some req)

theorem refused_without_current (bytes : cfg.sizer = .bytes) (valid : cfg.validate = none)
    (small : Small sizes cfg currentBatch) (clear : ¬ Stuck sizes cfg currentBatch req)
    (refused : (mergeSplitWith (logsKind sizes.wire) cfg currentBatch req).reqList = []) :
    currentBatch = none := by
  cases current : currentBatch with
  | none => rfl
  | some batch =>
    exfalso
    rw [answer_bytes _ _ _ bytes, current] at refused
    by_cases unlimited : cfg.maxSize = 0
    · simp [unlimited] at refused
    · simp only [if_neg unlimited] at refused
      have oversized := (split_eq_nil_iff _).mp refused
      by_cases nothing : logsRecords batch.req = []
      · exact clear ⟨batch, current, nothing, unlimited, oversized⟩
      · have less := small batch current
        have limits := validate_sizes valid
        exact not_oversized nothing (by omega) oversized

omit [Inhabited R] [Inhabited S] in
theorem flattenAll_grows {first second : List (LogsRequest R S L)} (grown : first <+: second) :
    flattenAll flattenResource first <+: flattenAll flattenResource second := by
  obtain ⟨more, rfl⟩ := grown
  rw [flattenAll_append]
  exact prefix_append _ _

theorem split_current {batch : LogsRequest R S L} {maxSize : Int}
    (fits : logsSizeof sizes.wire .bytes batch ≤ maxSize)
    (accepted :
      ((bytesSplitter sizes).split maxSize [] (batch.merged (bytesSplitter sizes).size (some req))).1 ≠ []) :
    logsRecords batch <+: flattenAll flattenResource
      ((bytesSplitter sizes).split maxSize [] (batch.merged (bytesSplitter sizes).size (some req))).1 := by
  rw [Splitter.split, Splitter.splitting] at accepted ⊢
  simp only at accepted ⊢
  split at accepted
  · next exceeds =>
      rw [if_pos exceeds]
      split at accepted
      · exact absurd rfl accepted
      · next some =>
          rw [if_neg some]
          have taken := extractLogs_fitting batch.data req.data maxSize fits
          refine List.IsPrefix.trans ?_ (flattenAll_grows (split_grows _ _ _ _))
          rw [nil_append, flattenAll_singleton]
          exact taken
  · next under =>
      rw [if_neg under, nil_append, flattenAll_singleton]
      rw [show (SignalRequest.sized (bytesSplitter sizes).size
        (batch.merged (bytesSplitter sizes).size (some req))).data = batch.data ++ req.data from rfl,
        flatMap_append]
      exact prefix_append _ _

/-- What comes back for a request: the records of the current batch, and then a first part
of its own. -/
theorem accepted_records (bytes : cfg.sizer = .bytes) (valid : cfg.validate = none)
    (small : Small sizes cfg currentBatch)
    (accepted : (mergeSplitWith (logsKind sizes.wire) cfg currentBatch req).reqList ≠ []) :
    ∃ part, part <+: logsRecords req ∧
      flattenAll flattenResource (mergeSplitWith (logsKind sizes.wire) cfg currentBatch req).reqList =
        (currentBatch.toList.flatMap fun batch => logsRecords batch.req) ++ part := by
  have limits := validate_sizes valid
  have within (merged : LogsRequest R S L) (whole : List (R × String × S × String × L))
      (same : logsRecords merged = whole) :
      flattenAll flattenResource ((bytesSplitter sizes).split cfg.maxSize [] merged).1 <+: whole := by
    have accounts := (bytesSplitter sizes).split_accounts cfg.maxSize [] merged
    cases answer : (bytesSplitter sizes).split cfg.maxSize [] merged with
    | mk requests err =>
      rw [answer] at accounts
      rw [← same]
      cases err with
      | none => exact ⟨[], by rw [append_nil]; exact accounts⟩
      | some err =>
        obtain ⟨missing, sum, _⟩ := accounts
        exact ⟨missing, sum⟩
  rw [answer_bytes _ _ _ bytes] at accepted ⊢
  cases currentBatch with
  | none =>
    by_cases unlimited : cfg.maxSize = 0
    · simp only [if_pos unlimited]
      exact ⟨logsRecords req, prefix_rfl, flattenAll_singleton _ _⟩
    · simp only [if_neg unlimited]
      exact ⟨_, within req _ rfl, rfl⟩
  | some batch =>
    have records := merged_records (bytesSplitter sizes).size batch.req (some req)
    rw [toList_some, flatMap_singleton]
    by_cases unlimited : cfg.maxSize = 0
    · simp only [if_pos unlimited]
      refine ⟨logsRecords req, prefix_rfl, ?_⟩
      rw [flattenAll_singleton]
      exact records
    · simp only [if_neg unlimited] at accepted ⊢
      have less := small batch rfl
      obtain ⟨part, same⟩ := split_current (by omega) accepted
      refine ⟨part, ?_, same.symm⟩
      have whole := within _ _ records
      rw [← same] at whole
      exact (prefix_append_right_inj _).mp whole

end step

def Event.records : Event (LogsRequest R S L) → List (R × String × S × String × L)
  | .consume _ req => logsRecords req
  | .tick => []

/-- No call of Consume comes that gets stuck. -/
def Clear (sizes : WireSizes R S L) (cfg : BatchConfig) (events : List (Event (LogsRequest R S L))) : Prop :=
  ∀ before call req after, events = before ++ .consume call req :: after →
    ¬ Stuck sizes cfg (serveAll (logsKind sizes.wire) cfg before {}).currentBatch req

section run
variable {s : Served (LogsRequest R S L) MergeError}

theorem serve_small (bytes : cfg.sizer = .bytes) (valid : cfg.validate = none)
    (small : Small sizes cfg s.currentBatch) (event : Event (LogsRequest R S L))
    (clear : ∀ call req, event = .consume call req → ¬ Stuck sizes cfg s.currentBatch req) :
    Small sizes cfg (serve (logsKind sizes.wire) cfg s event).currentBatch := by
  cases event with
  | tick => rintro batch ⟨⟩
  | consume call req =>
    have spec := consumeInternal_spec (logsKind sizes.wire) cfg s.currentBatch call req
    simp only at spec
    split at spec
    · next refused =>
        have none := refused_without_current bytes valid small (clear call req rfl) refused
        intro batch current
        rw [serve_of_refused _ _ s call refused, none] at current
        cases current
    · intro batch current
      have less := spec.small batch current
      rwa [bytes] at less

theorem Clear.small (bytes : cfg.sizer = .bytes) (valid : cfg.validate = none)
    {events : List (Event (LogsRequest R S L))} (clear : Clear sizes cfg events) :
    Small sizes cfg (serveAll (logsKind sizes.wire) cfg events {}).currentBatch := by
  induction events using List.reverseRecOn with
  | nil => rintro batch ⟨⟩
  | append_singleton before event ih =>
    have earlier : Clear sizes cfg before := by
      rintro front call req after rfl
      exact clear front call req (after ++ [event]) (by simp)
    rw [serveAll_append]
    refine serve_small bytes valid (ih earlier) event ?_
    rintro call req rfl
    exact clear before call req [] rfl

theorem contained_consume (call : Nat) (req : LogsRequest R S L) (cfg : BatchConfig)
    (accepted : (mergeSplitWith (logsKind sizes.wire) cfg s.currentBatch req).reqList ≠ []) :
    contained (serve (logsKind sizes.wire) cfg s (.consume call req)) =
      (s.exported.flatMap fun batch => logsRecords batch.req) ++
        flattenAll flattenResource (mergeSplitWith (logsKind sizes.wire) cfg s.currentBatch req).reqList := by
  have spec := consumeInternal_spec (logsKind sizes.wire) cfg s.currentBatch call req
  rw [if_neg accepted] at spec
  have requests (done : Done) (reqList : List (LogsRequest R S L)) :
      (placed s.currentBatch done reqList).flatMap (fun batch => logsRecords batch.req) =
        flattenAll flattenResource reqList := by
    cases reqList with
    | nil => rfl
    | cons first rest => simp [placed, flattenAll, logsRecords, flatMap_map]
  rw [contained, serve, append_assoc, spec.batches, flatMap_append, requests]

theorem serve_contained (bytes : cfg.sizer = .bytes) (valid : cfg.validate = none)
    (small : Small sizes cfg s.currentBatch) (event : Event (LogsRequest R S L))
    (clear : ∀ call req, event = .consume call req → ¬ Stuck sizes cfg s.currentBatch req) :
    ∃ part, part <+: event.records ∧
      contained (serve (logsKind sizes.wire) cfg s event) = contained s ++ part := by
  cases event with
  | tick => exact ⟨[], prefix_rfl, by simp [contained, serve]⟩
  | consume call req =>
    by_cases refused : (mergeSplitWith (logsKind sizes.wire) cfg s.currentBatch req).reqList = []
    · have none := refused_without_current bytes valid small (clear call req rfl) refused
      refine ⟨[], List.nil_prefix, ?_⟩
      rw [serve_of_refused _ _ s call refused, none, contained, contained, none, append_nil]
      rfl
    · obtain ⟨part, first, same⟩ := accepted_records bytes valid small refused
      refine ⟨part, first, ?_⟩
      rw [contained_consume call req cfg refused, same, contained, flatMap_append, append_assoc]

theorem serve_refused (call : Nat) (bytes : cfg.sizer = .bytes) (valid : cfg.validate = none)
    (small : Small sizes cfg s.currentBatch) {req : LogsRequest R S L}
    (clear : ¬ Stuck sizes cfg s.currentBatch req)
    (refused : (mergeSplitWith (logsKind sizes.wire) cfg s.currentBatch req).reqList = []) :
    serve (logsKind sizes.wire) cfg s (.consume call req) = { s with
      acks := s.acks ++ [(call, (mergeSplitWith (logsKind sizes.wire) cfg s.currentBatch req).err)] } := by
  have none := refused_without_current bytes valid small clear refused
  rw [serve_of_refused _ _ s call refused, none]
  rfl

/-- A request that gets stuck is reported as failed, and the next batch has its records. -/
theorem serve_stuck (bytes : cfg.sizer = .bytes) {req : LogsRequest R S L}
    (stuck : Stuck sizes cfg s.currentBatch req) (call : Nat) :
    (mergeSplitWith (logsKind sizes.wire) cfg s.currentBatch req).reqList = [] ∧
      (mergeSplitWith (logsKind sizes.wire) cfg s.currentBatch req).err ≠ [] ∧
      contained (serveAll (logsKind sizes.wire) cfg [.consume call req, .tick] s) =
        contained s ++ logsRecords req ∧
      (serveAll (logsKind sizes.wire) cfg [.consume call req, .tick] s).currentBatch = none := by
  obtain ⟨batch, current, nothing, limited, oversized⟩ := stuck
  have answer := answer_bytes sizes s.currentBatch req bytes
  simp only [current, if_neg limited] at answer
  have refused : (mergeSplitWith (logsKind sizes.wire) cfg s.currentBatch req).reqList = [] := by
    rw [current, answer]
    exact (split_eq_nil_iff _).mpr oversized
  refine ⟨refused, ?_, ?_, rfl⟩
  · rw [current, answer]
    have failed := split_oversized oversized
    cases err : ((bytesSplitter sizes).split cfg.maxSize []
        (batch.req.merged (bytesSplitter sizes).size (some req))).2 with
    | none => exact absurd err failed
    | some err => simp
  · have kept : logsRecords (remainder (bytesSplitter sizes) cfg.maxSize
        (batch.req.merged (bytesSplitter sizes).size (some req))) = logsRecords req := by
      have same := merged_records (bytesSplitter sizes).size batch.req (some req)
      rw [nothing] at same
      exact (remainder_oversized oversized).trans same
    have tick (t : Served (LogsRequest R S L) MergeError) :
        contained (serve (logsKind sizes.wire) cfg t .tick) = contained t := by
      simp [contained, serve]
    refine (tick _).trans ?_
    rw [serve_of_refused _ _ s call refused]
    simp only [contained, current, answer, map_some, toList_some, flatMap_append,
      flatMap_singleton, nothing, kept, append_nil]

end run

/-- A request that is reported as failed leaves no trace in a run without stuck requests:
whatever comes later goes as if it had never been sent. A request that gets stuck is
exported with the next batch. -/
theorem failed_requests_forgotten (sizes : WireSizes R S L) (cfg : BatchConfig) (bytes : cfg.sizer = .bytes)
    (valid : cfg.validate = none) :
    (∀ events, Clear sizes cfg events →
      (∀ before event after, events = before ++ event :: after →
        ∃ part, part <+: event.records ∧
          contained (serveAll (logsKind sizes.wire) cfg (before ++ [event]) {}) =
            contained (serveAll (logsKind sizes.wire) cfg before {}) ++ part) ∧
      ∀ before call req after, events = before ++ .consume call req :: after →
        let s := serveAll (logsKind sizes.wire) cfg before {}
        let answer := mergeSplitWith (logsKind sizes.wire) cfg s.currentBatch req
        let without := serveAll (logsKind sizes.wire) cfg (before ++ after) {}
        answer.reqList = [] → ∃ acks, without.acks = s.acks ++ acks ∧
          serveAll (logsKind sizes.wire) cfg events {} =
            { without with acks := s.acks ++ (call, answer.err) :: acks }) ∧
    ∀ before call req,
      let s := serveAll (logsKind sizes.wire) cfg before {}
      let answer := mergeSplitWith (logsKind sizes.wire) cfg s.currentBatch req
      Stuck sizes cfg s.currentBatch req → answer.reqList = [] ∧ answer.err ≠ [] ∧
        contained (serveAll (logsKind sizes.wire) cfg [.consume call req, .tick] s) =
          contained s ++ logsRecords req ∧
        (serveAll (logsKind sizes.wire) cfg [.consume call req, .tick] s).currentBatch = none := by
  refine ⟨fun events clear => ⟨?_, ?_⟩, fun before call req stuck => serve_stuck bytes stuck call⟩
  · rintro before event after rfl
    have earlier : Clear sizes cfg before := by
      rintro front call req rest rfl
      exact clear front call req (rest ++ event :: after) (by simp)
    rw [serveAll_append]
    refine serve_contained bytes valid (earlier.small bytes valid) event ?_
    rintro call req rfl
    exact clear before call req after rfl
  · rintro before call req after rfl s answer without refused
    have earlier : Clear sizes cfg before := by
      rintro front other old rest rfl
      exact clear front other old (rest ++ .consume call req :: after) (by simp)
    have forgotten := serve_refused call bytes valid (earlier.small bytes valid)
      (clear before call req after rfl) refused
    obtain ⟨acks, same, alone⟩ :=
      serveAll_acks (logsKind sizes.wire) cfg after s (s.acks ++ [(call, answer.err)])
    refine ⟨acks, ?_, ?_⟩
    · rw [← alone]
      exact congrArg Served.acks (serveAll_append _ _ before after {})
    · calc
        serveAll (logsKind sizes.wire) cfg (before ++ .consume call req :: after) {} =
            serveAll (logsKind sizes.wire) cfg after
              (serve (logsKind sizes.wire) cfg s (.consume call req)) := serveAll_append _ _ _ _ _
        _ = { serveAll (logsKind sizes.wire) cfg after s with
              acks := s.acks ++ [(call, answer.err)] ++ acks } := by
          rw [forgotten]
          exact same
        _ = { without with acks := s.acks ++ (call, answer.err) :: acks } := by
          rw [append_assoc, singleton_append]
          simp only [without, serveAll_append]
          rfl

end logs

section example_run

/-- A request that is too large, between two that are exported. -/
def oneTooLarge : List (Event (LogsRequest Unit Unit Nat)) :=
  [.consume 0 (recordsOf [5]), .consume 1 (recordsOf [100]), .consume 2 (recordsOf [6])]

theorem oneTooLarge_clear : Clear lengths twentyBytes oneTooLarge := by
  intro before call req after same
  have flushed : ∀ count < 3,
      (serveAll (logsKind lengths.wire) twentyBytes (oneTooLarge.take count) {}).currentBatch = none := by
    decide +kernel
  have short : before.length < 3 := by
    have lengths := congrArg List.length same
    rw [length_append, length_cons] at lengths
    simp only [oneTooLarge, length_cons, length_nil] at lengths
    omega
  have none := flushed before.length short
  rw [same, take_left] at none
  rintro ⟨batch, current, _⟩
  rw [none] at current
  cases current

theorem failed_requests_forgotten_between :
    let s := serveAll (logsKind lengths.wire) twentyBytes [.consume 0 (recordsOf [5])] {}
    let without := serveAll (logsKind lengths.wire) twentyBytes
      [.consume 0 (recordsOf [5]), .consume 2 (recordsOf [6])] {}
    without.exported.length = 2 ∧ ∃ err acks, without.acks = s.acks ++ acks ∧
      serveAll (logsKind lengths.wire) twentyBytes oneTooLarge {} =
        { without with acks := s.acks ++ (1, err) :: acks } := by
  have forgotten := ((failed_requests_forgotten lengths twentyBytes rfl (by decide)).1 _ oneTooLarge_clear).2
    [.consume 0 (recordsOf [5])] 1 (recordsOf [100]) [.consume 2 (recordsOf [6])] rfl (by decide +kernel)
  exact ⟨by decide +kernel, _, forgotten⟩

/-- A request without records, one that is too large, one that is not, and the timer. The
last two are reported as failed, and are exported. -/
theorem stuck_request_exported :
    let s := serveAll (logsKind lengths.wire) twentyBytes
      [.consume 0 { data := [] }, .consume 1 (recordsOf [100]), .consume 2 (recordsOf [6]), .tick] {}
    (serveAll (logsKind lengths.wire) twentyBytes [.consume 2 (recordsOf [6])] {}).acks = [] ∧
      s.acks = [(1, [.oversized "log record" 1]), (2, [.oversized "log record" 2])] ∧
      s.exported.map (fun batch => logsRecords batch.req) =
        [[((), "", (), "", 100), ((), "", (), "", 6)]] := by
  decide +kernel

end example_run

end CollectorFormal.Batcher
