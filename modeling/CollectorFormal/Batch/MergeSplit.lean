import CollectorFormal.Batch.Extract
import CollectorFormal.Lib.Runs
import CollectorFormal.Request

/-! Merging and splitting requests, for any signal.

A `Splitter` has the functions in which the signals differ, those that measure, count and extract. -/

namespace CollectorFormal.Batch

open List Option

variable {C β : Type}

/-- A request with its resource messages; a cached size of -1 is not known yet. -/
structure SignalRequest (C : Type) where
  data : List C
  cachedSize : Int := -1
  deriving DecidableEq

/-- The sizer of one MergeSplit with the functions that depend on it. -/
structure Splitter (C β : Type) where
  size : List C → Int
  extract : List C → Int → Extracted (List C)
  count : List C → Nat
  /-- What the error calls a single item. -/
  item : String
  content : C → List β
  counted : ∀ data, count data = (data.flatMap content).length
  conserves : Conserves (fun data : List C => data.flatMap content) extract

inductive MergeError where
  | unknownSizerType
  | invalidInputType
  | oversized (item : String) (dropped : Nat)
  deriving DecidableEq

def MergeError.text : MergeError → String
  | .unknownSizerType => "unknown sizer type"
  | .invalidInputType => "invalid input type"
  | .oversized item dropped =>
    "one " ++ item ++ " size is greater than max size, dropping items: " ++ toString dropped

namespace SignalRequest

def sized (size : List C → Int) (req : SignalRequest C) : SignalRequest C :=
  { req with cachedSize := if req.cachedSize = -1 then size req.data else req.cachedSize }

/-- What mergeTo leaves of the request and of the one it is merged to. -/
def mergeTo (size : List C → Int) (req dst : SignalRequest C) : SignalRequest C × SignalRequest C :=
  ({ data := [], cachedSize := 0 },
   { data := dst.data ++ req.data
     cachedSize := (dst.sized size).cachedSize + (req.sized size).cachedSize })

end SignalRequest

variable (splitter : Splitter C β)

theorem Splitter.count_extract (data : List C) (capacity : Int) :
    splitter.count (splitter.extract data capacity).dest + splitter.count (splitter.extract data capacity).rest =
      splitter.count data := by
  have whole := congrArg List.length (splitter.conserves data capacity)
  rw [length_append, ← splitter.counted, ← splitter.counted, ← splitter.counted] at whole
  exact whole

theorem Splitter.extract_decreases (data : List C) (capacity : Int)
    (some : splitter.count (splitter.extract data capacity).dest ≠ 0) :
    splitter.count (splitter.extract data capacity).rest < splitter.count data := by
  have whole := splitter.count_extract data capacity
  omega

/-- `res` holds the requests split off so far. The request itself is left with what was not taken out. -/
def Splitter.splitting (splitter : Splitter C β) (maxSize : Int) (res : List (SignalRequest C))
    (req : SignalRequest C) : (List (SignalRequest C) × Option MergeError) × SignalRequest C :=
  let req := req.sized splitter.size
  if req.cachedSize > maxSize then
    let ext := splitter.extract req.data maxSize
    let left := { req with data := ext.rest }
    if splitter.count ext.dest = 0 then ((res, some (.oversized splitter.item (splitter.count left.data))), left)
    else
      let left := left.sized splitter.size
      splitter.splitting maxSize (res ++ [{ data := ext.dest }])
        { left with cachedSize := left.cachedSize - ext.removedSize }
  else ((res ++ [req], none), req)
termination_by splitter.count req.data
decreasing_by next some => exact splitter.extract_decreases req.data maxSize some

def Splitter.split (splitter : Splitter C β) (maxSize : Int) (res : List (SignalRequest C)) (req : SignalRequest C) :
    List (SignalRequest C) × Option MergeError := (splitter.splitting maxSize res req).1

inductive Incoming (C : Type) where
  | same (req : SignalRequest C)
  | other

variable (splitters : SizerType → Option (Splitter C β))

def mergeSplit (maxSize : Int) (szt : SizerType)
    (r2 : Option (Incoming C)) (req : SignalRequest C) : List (SignalRequest C) × Option MergeError :=
  match splitters szt with
  | none => ([], some .unknownSizerType)
  | some splitter =>
    match r2 with
    | some .other => ([], some .invalidInputType)
    | some (.same req2) =>
      let merged := (req2.mergeTo splitter.size req).2
      if maxSize = 0 then ([merged], none) else splitter.split maxSize [] merged
    | none => if maxSize = 0 then ([req], none) else splitter.split maxSize [] req

variable (content : C → List β)

def flattenAll (requests : List (SignalRequest C)) : List β :=
  requests.flatMap fun req => req.data.flatMap content

/-- The requests hold the whole content, or a first part of it and the error says how
many items are missing. -/
def Splitter.Accounts (whole : List β) :
    List (SignalRequest C) × Option MergeError → Prop
  | (requests, none) => flattenAll splitter.content requests = whole
  | (requests, some err) => ∃ missing, flattenAll splitter.content requests ++ missing = whole ∧
      err = .oversized splitter.item missing.length

theorem flattenAll_append (first second : List (SignalRequest C)) :
    flattenAll content (first ++ second) = flattenAll content first ++ flattenAll content second :=
  flatMap_append

theorem flattenAll_singleton (req : SignalRequest C) : flattenAll content [req] = req.data.flatMap content :=
  flatMap_singleton _ _

theorem Splitter.split_accounts (maxSize : Int) (res : List (SignalRequest C)) (req : SignalRequest C) :
    splitter.Accounts (flattenAll splitter.content res ++ req.data.flatMap splitter.content)
      (splitter.split maxSize res req) := by
  unfold Splitter.split
  fun_induction splitter.splitting maxSize res req with
  | case1 res req sized exceeds ext left none =>
    have cut : ext.dest.flatMap splitter.content ++ ext.rest.flatMap splitter.content =
        req.data.flatMap splitter.content := splitter.conserves req.data maxSize
    have nothing : ext.dest.flatMap splitter.content = [] := by
      rw [← length_eq_zero_iff, ← splitter.counted]
      exact none
    refine ⟨ext.rest.flatMap splitter.content, ?_, ?_⟩
    · calc
        flattenAll splitter.content res ++ ext.rest.flatMap splitter.content =
            flattenAll splitter.content res ++
              (ext.dest.flatMap splitter.content ++ ext.rest.flatMap splitter.content) := by
          rw [nothing, nil_append]
        _ = flattenAll splitter.content res ++ req.data.flatMap splitter.content := by rw [cut]
    · rw [← splitter.counted]
  | case2 res req sized exceeds ext left some resized ih =>
    have cut : ext.dest.flatMap splitter.content ++ ext.rest.flatMap splitter.content =
        req.data.flatMap splitter.content := splitter.conserves req.data maxSize
    rw [flattenAll_append, flattenAll_singleton, append_assoc] at ih
    rw [← cut]
    exact ih
  | case3 res req sized under =>
    show flattenAll splitter.content (res ++ [sized]) = _
    rw [flattenAll_append, flattenAll_singleton]
    rfl

/-- The answer of MergeSplit to requests that hold `whole`. Only a sizer that counts requests is refused. -/
def Conserved (item : String) (szt : SizerType) (whole : List β) :
    List (SignalRequest C) × Option MergeError → Prop
  | (requests, none) => flattenAll content requests = whole
  | (requests, some (.oversized what dropped)) => what = item ∧
      ∃ missing, flattenAll content requests ++ missing = whole ∧ missing.length = dropped
  | (_, some .unknownSizerType) => szt = .requests
  | (_, some .invalidInputType) => False

theorem Splitter.Accounts.conserved {splitter : Splitter C β} {whole : List β} (szt : SizerType)
    {answer : List (SignalRequest C) × Option MergeError} (accounts : splitter.Accounts whole answer) :
    Conserved splitter.content splitter.item szt whole answer := by
  match answer, accounts with
  | (requests, none), all => exact all
  | (requests, some err), ⟨missing, whole, same⟩ =>
    subst same
    exact ⟨rfl, missing, whole, rfl⟩

theorem mergeSplit_accounts (maxSize : Int)
    (szt : SizerType) (r2 : Option (SignalRequest C)) (req : SignalRequest C) (splitter : Splitter C β)
    (known : splitters szt = some splitter) :
    splitter.Accounts (flattenAll splitter.content (req :: r2.toList))
      (mergeSplit splitters maxSize szt (r2.map .same) req) := by
  have whole (merged : SignalRequest C)
      (holds : merged.data.flatMap splitter.content = flattenAll splitter.content (req :: r2.toList)) :
      splitter.Accounts (flattenAll splitter.content (req :: r2.toList))
        (if maxSize = 0 then ([merged], none) else splitter.split maxSize [] merged) := by
    rw [← holds]
    split
    · exact flattenAll_singleton _ _
    · exact splitter.split_accounts maxSize [] merged
  unfold mergeSplit
  rw [known]
  cases r2 with
  | none => exact whole req (by simp [flattenAll])
  | some req2 => exact whole _ (by simp [SignalRequest.mergeTo, flattenAll])

section loop
variable (splitter : Splitter C β) (maxSize : Int)

structure SplitLoop (C : Type) where
  res : List (SignalRequest C)
  req : SignalRequest C

def Splitter.iterate (state : SplitLoop C) : Option (SplitLoop C) :=
  let req := state.req.sized splitter.size
  let ext := splitter.extract req.data maxSize
  if req.cachedSize > maxSize ∧ splitter.count ext.dest ≠ 0 then
    let left := ({ req with data := ext.rest } : SignalRequest C).sized splitter.size
    some ⟨state.res ++ [{ data := ext.dest }], { left with cachedSize := left.cachedSize - ext.removedSize }⟩
  else none

/-- The states of the loop before and after each of its iterations. -/
def Splitter.Iterates (first state : SplitLoop C) : Prop :=
  Lib.Reached (fun (_ : Unit) state next => splitter.iterate maxSize state = some next) Lib.Always first state

variable {splitter maxSize} (size : List C → Int)

@[simp]
theorem SignalRequest.sized_data (req : SignalRequest C) : (req.sized size).data = req.data :=
  rfl

theorem SignalRequest.sized_known {cachedSize : Int} (known : cachedSize ≠ -1)
    (data : List C) : SignalRequest.sized size ⟨data, cachedSize⟩ = ⟨data, cachedSize⟩ := by
  unfold SignalRequest.sized
  rw [if_neg known]

theorem Splitter.iterate_eq_some (positive : 0 < maxSize) {state next : SplitLoop C}
    (iterated : splitter.iterate maxSize state = some next) :
    (state.req.sized splitter.size).cachedSize > maxSize ∧
      next = ⟨state.res ++ [{ data := (splitter.extract state.req.data maxSize).dest }],
        { data := (splitter.extract state.req.data maxSize).rest
          cachedSize := (state.req.sized splitter.size).cachedSize -
            (splitter.extract state.req.data maxSize).removedSize }⟩ := by
  simp only [Splitter.iterate, ite_none_right_eq_some, Option.some.injEq] at iterated
  obtain ⟨⟨exceeds, _⟩, rfl⟩ := iterated
  have known : (state.req.sized splitter.size).cachedSize ≠ -1 := by omega
  refine ⟨exceeds, ?_⟩
  rw [SignalRequest.sized_known splitter.size known, SignalRequest.sized_data]

theorem Splitter.iterate_takes {state next : SplitLoop C} (iterated : splitter.iterate maxSize state = some next) :
    splitter.count (splitter.extract state.req.data maxSize).dest ≠ 0 := by
  simp only [Splitter.iterate, ite_none_right_eq_some] at iterated
  exact iterated.1.2

theorem Splitter.Iterates.then {first state next : SplitLoop C} (reached : splitter.Iterates maxSize first state)
    (iterated : splitter.iterate maxSize state = some next) : splitter.Iterates maxSize first next :=
  @Lib.Reached.step _ _ _ _ _ _ _ () reached trivial iterated

theorem Splitter.Iterates.next {first next state : SplitLoop C}
    (iterated : splitter.iterate maxSize first = some next) (later : splitter.Iterates maxSize next state) :
    splitter.Iterates maxSize first state :=
  (Splitter.Iterates.then .start iterated).trans later

variable {first state : SplitLoop C}

section
variable (reached : splitter.Iterates maxSize first state)
include reached

theorem Splitter.Iterates.cases :
    state = first ∨ ∃ next, splitter.iterate maxSize first = some next ∧
      splitter.Iterates maxSize next state := by
  rcases Lib.Reached.first_step reached with same | ⟨_, next, _, moved, later⟩
  · exact .inl same
  · exact .inr ⟨next, moved, later⟩

theorem Splitter.Iterates.ended (ends : splitter.iterate maxSize first = none) : state = first := by
  rcases reached.cases with same | ⟨next, moved, _⟩
  · exact same
  · rw [ends] at moved
    cases moved

theorem Splitter.Iterates.last :
    state = first ∨ ∃ before, splitter.Iterates maxSize first before ∧
      splitter.iterate maxSize before = some state := by
  cases reached with
  | start => exact .inl rfl
  | step earlier _ iterated => exact .inr ⟨_, earlier, iterated⟩

end

/-- What holds of every batch that split returns: those it had, those it splits off, and what remains. -/
theorem Splitter.forall_split (p : List C → Prop) (res : List (SignalRequest C)) (req : SignalRequest C) :
    (∀ returned ∈ (splitter.split maxSize res req).1, p returned.data) ↔ (∀ batch ∈ res, p batch.data) ∧
      (∀ state next, splitter.Iterates maxSize ⟨res, req⟩ state → splitter.iterate maxSize state = some next →
        p (splitter.extract state.req.data maxSize).dest) ∧
      ∀ state, splitter.Iterates maxSize ⟨res, req⟩ state →
        (state.req.sized splitter.size).cachedSize ≤ maxSize → p state.req.data := by
  unfold Splitter.split
  fun_induction splitter.splitting maxSize res req with
  | case1 res req sized exceeds ext left nothing =>
    have ends : splitter.iterate maxSize ⟨res, req⟩ = none := if_neg (by tauto)
    constructor
    · intro all
      refine ⟨all, ?_, ?_⟩
      · intro state next reached iterated
        rw [reached.ended ends, ends] at iterated
        cases iterated
      · intro state reached within
        rw [reached.ended ends] at within
        exact absurd exceeds (not_lt.mpr within)
    · intro all
      exact all.1
  | case2 res req sized exceeds ext left some resized ih =>
    have iterated : splitter.iterate maxSize ⟨res, req⟩ =
        .some ⟨res ++ [{ data := ext.dest }], { resized with cachedSize := resized.cachedSize - ext.removedSize }⟩ :=
      if_pos ⟨exceeds, some⟩
    rw [ih]
    constructor
    · rintro ⟨batches, splits, rest⟩
      rw [forall_mem_append, forall_mem_singleton] at batches
      refine ⟨batches.1, ?_, ?_⟩
      · intro state next reached moved
        rcases reached.cases with rfl | ⟨second, first, later⟩
        · exact batches.2
        · rw [iterated] at first
          cases first
          exact splits state next later moved
      · intro state reached within
        rcases reached.cases with rfl | ⟨second, first, later⟩
        · exact absurd exceeds (not_lt.mpr within)
        · rw [iterated] at first
          cases first
          exact rest state later within
    · rintro ⟨batches, splits, rest⟩
      refine ⟨Lib.forall_snoc batches ?_, ?_, ?_⟩
      · exact splits ⟨res, req⟩ _ .start iterated
      · intro state next reached moved
        exact splits state next (.next iterated reached) moved
      · intro state reached within
        exact rest state (.next iterated reached) within
  | case3 res req sized under =>
    have ends : splitter.iterate maxSize ⟨res, req⟩ = none := if_neg (by tauto)
    rw [forall_mem_append, forall_mem_singleton]
    constructor
    · rintro ⟨batches, last⟩
      refine ⟨batches, ?_, ?_⟩
      · intro state next reached iterated
        rw [reached.ended ends, ends] at iterated
        cases iterated
      · intro state reached _
        rw [reached.ended ends]
        exact last
    · rintro ⟨batches, _, rest⟩
      exact ⟨batches, rest ⟨res, req⟩ .start (not_lt.mp under)⟩

theorem Splitter.split_of_iterate {state next : SplitLoop C} (iterated : splitter.iterate maxSize state = some next) :
    splitter.split maxSize state.res state.req = splitter.split maxSize next.res next.req := by
  simp only [Splitter.iterate, ite_none_right_eq_some, Option.some.injEq] at iterated
  rcases iterated with ⟨⟨exceeds, some⟩, rfl⟩
  rw [Splitter.split, Splitter.splitting]
  simp only [if_pos exceeds, if_neg some]
  rfl

theorem Splitter.Iterates.split_eq (reached : splitter.Iterates maxSize first state) :
    splitter.split maxSize first.res first.req = splitter.split maxSize state.res state.req := by
  induction reached with
  | start => rfl
  | step _ _ iterated before => exact before.trans (splitter.split_of_iterate iterated)

variable (res : List (SignalRequest C)) (req : SignalRequest C)

theorem Splitter.loop_ends :
    ∃ state, splitter.Iterates maxSize ⟨res, req⟩ state ∧ splitter.iterate maxSize state = none := by
  fun_induction splitter.splitting maxSize res req with
  | case1 | case3 => exact ⟨_, .start, if_neg (by tauto)⟩
  | case2 res req sized exceeds ext left some resized ih =>
    rcases ih with ⟨state, later, ended⟩
    exact ⟨state, .next (if_pos ⟨exceeds, some⟩) later, ended⟩

theorem Splitter.split_gives_up {state : SplitLoop C} (exceeds : (state.req.sized splitter.size).cachedSize > maxSize)
    (nothing : splitter.count (splitter.extract state.req.data maxSize).dest = 0) :
    splitter.split maxSize state.res state.req =
      (state.res, some (.oversized splitter.item (splitter.count state.req.data))) := by
  have left := splitter.count_extract state.req.data maxSize
  rw [nothing, Nat.zero_add] at left
  rw [Splitter.split, Splitter.splitting]
  simp only [if_pos exceeds, SignalRequest.sized_data, if_pos nothing, left]

theorem Splitter.split_finishes {state : SplitLoop C} (within : (state.req.sized splitter.size).cachedSize ≤ maxSize) :
    splitter.split maxSize state.res state.req = (state.res ++ [state.req.sized splitter.size], none) := by
  rw [Splitter.split, Splitter.splitting]
  simp only [if_neg (not_lt.mpr within)]

theorem Splitter.split_right_iff :
    (splitter.split maxSize res req).2 = none ↔
      ∀ state, splitter.Iterates maxSize ⟨res, req⟩ state → (state.req.sized splitter.size).cachedSize > maxSize →
        splitter.count (splitter.extract state.req.data maxSize).dest ≠ 0 := by
  constructor
  · intro right state reached exceeds nothing
    rw [reached.split_eq, splitter.split_gives_up exceeds nothing] at right
    cases right
  · intro takes
    rcases splitter.loop_ends res req with ⟨state, reached, ended⟩
    rw [reached.split_eq]
    by_cases exceeds : (state.req.sized splitter.size).cachedSize > maxSize
    · have some := takes state reached exceeds
      rw [Splitter.iterate, if_pos ⟨exceeds, some⟩] at ended
      cases ended
    · rw [splitter.split_finishes (not_lt.mp exceeds)]

end loop

/-- The request that MergeSplit splits. -/
def SignalRequest.merged (size : List C → Int) (r2 : Option (SignalRequest C)) (req : SignalRequest C) :
    SignalRequest C :=
  match r2 with
  | none => req
  | some req2 => (req2.mergeTo size req).2

theorem mergeSplit_eq_split {maxSize : Int}
    (limited : maxSize ≠ 0) {szt : SizerType} {splitter : Splitter C β} (known : splitters szt = some splitter)
    (r2 : Option (SignalRequest C)) (req : SignalRequest C) :
    mergeSplit splitters maxSize szt (r2.map .same) req = splitter.split maxSize [] (req.merged splitter.size r2) := by
  unfold mergeSplit
  rw [known]
  cases r2 with
  | none | some => exact if_neg limited

end CollectorFormal.Batch
