import CollectorFormal.Batch.Account
import CollectorFormal.Batch.LogsTraces

/-! Logs and traces split by bytes: every batch stays within the limit, and the size kept
for what remains is its size on the wire. -/

namespace CollectorFormal.Batch

open Envelope

variable {R S L C β : Type}

def SignalRequest.Measured (size : List C → Int) (req : SignalRequest C) : Prop :=
  req.cachedSize = -1 ∨ req.cachedSize = size req.data

theorem SignalRequest.Measured.sized {size : List C → Int} {req : SignalRequest C} (measured : req.Measured size) :
    (req.sized size).cachedSize = size req.data := by
  rcases measured with unknown | exact
  · exact if_pos unknown
  · unfold SignalRequest.sized
    split
    · rfl
    · exact exact

/-- SizeProto is never negative. -/
structure TreeWire.Nonneg (wire : TreeWire R S L) : Prop where
  resource : ∀ resource, 0 ≤ wire.resource resource
  scope : ∀ scope, 0 ≤ wire.scope scope
  record : ∀ record, 0 ≤ wire.record record

section splitter
variable (splitter : Splitter C β) (maxSize : Int)

/-- The requests returned are within the limit, and the cached size stays the size. -/
structure Splitter.WithinLimit (merged : SignalRequest C) (returned : List (SignalRequest C)) : Prop where
  returned : ∀ request ∈ returned, splitter.size request.data ≤ maxSize
  cached : ∀ state next, splitter.Iterates maxSize ⟨[], merged⟩ state →
    splitter.iterate maxSize state = some next → next.req.cachedSize = splitter.size next.req.data

variable {splitter maxSize}

theorem Splitter.iterate_cached (positive : 0 < maxSize) {state next : SplitLoop C}
    (exact : ExactAt splitter.size splitter.extract state.req.data maxSize)
    (measured : state.req.Measured splitter.size) (iterated : splitter.iterate maxSize state = some next) :
    next.req.cachedSize = splitter.size next.req.data := by
  obtain ⟨_, rfl⟩ := splitter.iterate_eq_some positive iterated
  unfold ExactAt at exact
  simp only [measured.sized]
  omega

theorem Splitter.split_within (exact : Exact splitter.size splitter.extract) (positive : 0 < maxSize)
    (fits : ∀ data, splitter.size (splitter.extract data maxSize).dest ≤ maxSize) {merged : SignalRequest C}
    (measured : merged.Measured splitter.size) :
    splitter.WithinLimit maxSize merged (splitter.split maxSize [] merged).1 := by
  have kept : ∀ state, splitter.Iterates maxSize ⟨[], merged⟩ state → state.req.Measured splitter.size := by
    intro state reached
    induction reached with
    | start => exact measured
    | step _ _ iterated before => exact .inr (splitter.iterate_cached positive (exact _ _) before iterated)
  constructor
  · apply (splitter.forall_split (fun data => splitter.size data ≤ maxSize) [] merged).mpr
    refine ⟨by simp, ?_, ?_⟩
    · intro state _ _ _
      exact fits state.req.data
    · intro state reached within
      rw [(kept state reached).sized] at within
      exact within
  · intro state next reached iterated
    exact splitter.iterate_cached positive (exact _ _) (kept state reached) iterated

/-- The cached size is not known yet, or it is at least the size. -/
def SignalRequest.Covered (size : List C → Int) (req : SignalRequest C) : Prop :=
  size req.data ≤ (req.sized size).cachedSize

theorem SignalRequest.Covered.merged {size : List C → Int} (nonneg : ∀ data, 0 ≤ size data)
    (sums : ∀ front back, size (front ++ back) = size front + size back) {req : SignalRequest C}
    {r2 : Option (SignalRequest C)} (covered : ∀ given ∈ req :: r2.toList, given.Covered size) :
    (req.merged size r2).Covered size := by
  have own := covered req List.mem_cons_self
  cases r2 with
  | none => exact own
  | some req2 =>
    have other : req2.Covered size := covered req2 (by simp)
    have first := nonneg req.data
    have second := nonneg req2.data
    unfold SignalRequest.Covered at *
    have known : (req.sized size).cachedSize + (req2.sized size).cachedSize ≠ -1 := by omega
    simp only [SignalRequest.merged, SignalRequest.mergeTo, SignalRequest.sized_known size known, sums]
    omega

theorem Splitter.Iterates.covered {first state : SplitLoop C} (reached : splitter.Iterates maxSize first state)
    (exact : Exact splitter.size splitter.extract) (nonneg : ∀ data, 0 ≤ splitter.size data) (positive : 0 < maxSize)
    (covered : first.req.Covered splitter.size) : state.req.Covered splitter.size := by
  induction reached with
  | start => exact covered
  | @step state _ _ _ _ iterated before =>
    have account := exact state.req.data maxSize
    have left := nonneg (splitter.extract state.req.data maxSize).rest
    rcases splitter.iterate_eq_some positive iterated with ⟨_, rfl⟩
    unfold SignalRequest.Covered at *
    have known : (state.req.sized splitter.size).cachedSize -
        (splitter.extract state.req.data maxSize).removedSize ≠ -1 := by omega
    rw [SignalRequest.sized_known splitter.size known]
    dsimp only
    omega

theorem Splitter.iterate_covered (covers : Covers splitter.size splitter.extract)
    (nonneg : ∀ data, 0 ≤ splitter.size data) (positive : 0 < maxSize) {state next : SplitLoop C}
    (before : state.req.Covered splitter.size ∧ splitter.size state.req.data < 2 ^ 63)
    (iterated : splitter.iterate maxSize state = some next) :
    next.req.Covered splitter.size ∧ splitter.size next.req.data < 2 ^ 63 := by
  obtain ⟨covered, int⟩ := before
  obtain ⟨removed, account⟩ := covers state.req.data maxSize int
  have left := nonneg (splitter.extract state.req.data maxSize).rest
  obtain ⟨_, rfl⟩ := splitter.iterate_eq_some positive iterated
  unfold SignalRequest.Covered at *
  have known : (state.req.sized splitter.size).cachedSize -
      (splitter.extract state.req.data maxSize).removedSize ≠ -1 := by omega
  rw [SignalRequest.sized_known splitter.size known]
  constructor <;> simp only <;> omega

theorem Splitter.split_within_iff (covers : Covers splitter.size splitter.extract)
    (nonneg : ∀ data, 0 ≤ splitter.size data) (positive : 0 < maxSize) {merged : SignalRequest C}
    (covered : merged.Covered splitter.size) (int : splitter.size merged.data < 2 ^ 63) :
    (∀ returned ∈ (splitter.split maxSize [] merged).1, splitter.size returned.data ≤ maxSize) ↔
      ∀ state next, splitter.Iterates maxSize ⟨[], merged⟩ state → splitter.iterate maxSize state = some next →
        splitter.size (splitter.extract state.req.data maxSize).dest ≤ maxSize := by
  have kept : ∀ state, splitter.Iterates maxSize ⟨[], merged⟩ state →
      state.req.Covered splitter.size ∧ splitter.size state.req.data < 2 ^ 63 := by
    intro state reached
    induction reached with
    | start => exact ⟨covered, int⟩
    | step _ _ iterated before => exact splitter.iterate_covered covers nonneg positive before iterated
  rw [splitter.forall_split (fun data => splitter.size data ≤ maxSize) [] merged]
  constructor
  · intro all
    exact all.2.1
  · intro splits
    refine ⟨by simp, splits, ?_⟩
    intro state reached within
    exact le_trans (kept state reached).1 within

end splitter

section tree
variable [Inhabited R] [Inhabited S] {wire : TreeWire R S L}

theorem bytesSizer_extract_exact : Exact (bytesSizer wire).treeSize (extractBytes wire) := by
  have scope : Exact (bytesSizer wire).scopeSize (extractScope (bytesSizer wire)) :=
    extract_exact (takeRecord_balanced wire.record)
  have resource : Exact (bytesSizer wire).resourceSize (extractResourceBytes wire) :=
    extract_exact (takeGroup_balanced rfl scope)
  exact extractAll_exact (takeGroup_balanced rfl resource)

theorem bytesSizer_extract_le (sizes : wire.Nonneg) {maxSize : Int} (positive : 0 < maxSize)
    (int : maxSize < 2 ^ 63) (tree : List (Envelope R (Envelope S L))) :
    (bytesSizer wire).treeSize (extractBytes wire tree maxSize).dest ≤ maxSize := by
  have scopes := sizeProto_nonneg sizes.scope sizes.record
  have resources := sizeProto_nonneg sizes.resource scopes
  have scope : Fits (fun scope => scope.children.length) (bytesSizer wire).scopeSize (extractScope (bytesSizer wire)) :=
    extract_fits sizes.scope sizes.record takeRecord_bounded
  have resource : Fits (fun resource => resource.children.length) (bytesSizer wire).resourceSize
      (extractResourceBytes wire) :=
    extract_fits sizes.resource scopes (takeGroup_bounded rfl scopes scope)
  by_cases none : (extractBytes wire tree maxSize).dest = []
  · rw [none]
    exact positive.le
  · have bounded : Bounded (bytesSizer wire).resourceSize (takeGroup protoDelta (bytesSizer wire).resourceSize
        (extractResourceBytes wire) (·.children.length) .new) :=
      takeGroup_bounded rfl resources resource
    have whole := bounded (maxSize - 0) tree (by omega) none
    exact le_of_le_of_eq whole (Int.sub_zero maxSize)

end tree

theorem SignalRequest.Measured.merged {size : List C → Int}
    (sums : ∀ front back, size (front ++ back) = size front + size back) {req : SignalRequest C}
    {r2 : Option (SignalRequest C)} (measured : ∀ given ∈ req :: r2.toList, given.Measured size) :
    (req.merged size r2).Measured size := by
  have own := measured req List.mem_cons_self
  cases r2 with
  | none => exact own
  | some req2 =>
    have other := measured req2 (by simp)
    right
    simp only [SignalRequest.merged, SignalRequest.mergeTo, own.sized, other.sized, sums]

/-- For both signals, any two requests (the second may be absent) whose cached sizes are
unknown or right, and any limit. -/
theorem logs_traces_within_limit [Inhabited R] [Inhabited S] (wire : TreeWire R S L) (sizes : wire.Nonneg)
    (maxSize : Int) (positive : 0 < maxSize) (int : maxSize < 2 ^ 63) :
    (∀ (req : LogsRequest R S L) (r2 : Option (LogsRequest R S L)),
      (∀ given ∈ req :: r2.toList, given.Measured (logsBytesSizer wire).treeSize) →
      (logsSplitter (logsBytesSizer wire)).WithinLimit maxSize (req.merged (logsBytesSizer wire).treeSize r2)
        (LogsRequest.mergeSplit wire maxSize .bytes (r2.map .same) req).1) ∧
    Exact (logsBytesSizer wire).treeSize (extractLogs (logsBytesSizer wire)) ∧
    (∀ (req : TracesRequest R S L) (r2 : Option (TracesRequest R S L)),
      (∀ given ∈ req :: r2.toList, given.Measured (tracesBytesSizer wire).treeSize) →
      (tracesSplitter (tracesBytesSizer wire)).WithinLimit maxSize (req.merged (tracesBytesSizer wire).treeSize r2)
        (TracesRequest.mergeSplit wire maxSize .bytes (r2.map .same) req).1) ∧
    Exact (tracesBytesSizer wire).treeSize (extractTraces (tracesBytesSizer wire)) := by
  have sums : ∀ front back, (bytesSizer wire).treeSize (front ++ back) =
      (bytesSizer wire).treeSize front + (bytesSizer wire).treeSize back := repeatedSize_append
  refine ⟨?_, bytesSizer_extract_exact, ?_, bytesSizer_extract_exact⟩
  · intro req r2 measured
    have known : logsSplitters wire .bytes = some (logsSplitter (logsBytesSizer wire)) := rfl
    rw [LogsRequest.mergeSplit, mergeSplit_eq_split _ positive.ne' known]
    exact Splitter.split_within bytesSizer_extract_exact positive (bytesSizer_extract_le sizes positive int)
      (SignalRequest.Measured.merged sums measured)
  · intro req r2 measured
    have known : tracesSplitters wire .bytes = some (tracesSplitter (tracesBytesSizer wire)) := rfl
    rw [TracesRequest.mergeSplit, mergeSplit_eq_split _ positive.ne' known]
    exact Splitter.split_within bytesSizer_extract_exact positive (bytesSizer_extract_le sizes positive int)
      (SignalRequest.Measured.merged sums measured)

/-- Records of the given sizes, under empty resources and scopes. -/
def plainWire : TreeWire Unit Unit Nat := ⟨fun _ => 0, fun _ => 0, fun size => size⟩

/-- Two records of 5 and 9 bytes do not fit into 20 together. -/
theorem logs_traces_within_limit_pair :
    (logsSplitter (logsBytesSizer plainWire)).WithinLimit 20 ⟨[⟨(), "", [⟨(), "", [5, 9]⟩]⟩], -1⟩
      (LogsRequest.mergeSplit plainWire 20 .bytes none ⟨[⟨(), "", [⟨(), "", [5, 9]⟩]⟩], -1⟩).1 ∧
    (LogsRequest.mergeSplit plainWire 20 .bytes none ⟨[⟨(), "", [⟨(), "", [5, 9]⟩]⟩], -1⟩).1.length = 2 := by
  refine ⟨?_, by decide +kernel⟩
  have sizes : plainWire.Nonneg :=
    ⟨fun _ => le_refl 0, fun _ => le_refl 0, fun size => Int.natCast_nonneg size⟩
  apply (logs_traces_within_limit plainWire sizes 20 (by decide) (by decide)).1 _ none
  simp [SignalRequest.Measured]

end CollectorFormal.Batch
