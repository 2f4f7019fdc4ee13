import CollectorFormal.Memorylimiter.Limits
import CollectorFormal.Service.Status

/-! The checks of the memory limiter, one after the other.

What the clock and the runtime say in a check is given with it. -/

namespace CollectorFormal.Memorylimiter

open Componentstatus (Status)
open List

/-- The limit that memory is above when a GC is forced. -/
inductive Path where
  | soft
  | hard
deriving DecidableEq

structure MemoryLimiter where
  usageChecker : MemUsageChecker
  memCheckWait : Int
  mustRefuse : Bool
  minGCIntervalWhenSoftLimited : Int
  minGCIntervalWhenHardLimited : Int
  maxGCIntervalWhenSoftLimited : Int
  maxGCIntervalWhenHardLimited : Int
  lastGCDone : Int
  currentSoftGCInterval : Int
  currentHardGCInterval : Int
  /-- Alloc of the last MemStats. -/
  lastStats : UInt64

variable {E : Type}

def newMemoryLimiter (cfg : Config) (totalMemory : Except E UInt64) (now : Int) : Except E MemoryLimiter :=
  match getMemUsageChecker cfg totalMemory with
  | .error err => .error err
  | .ok usageChecker => .ok {
      usageChecker := usageChecker
      memCheckWait := cfg.checkInterval
      mustRefuse := false
      minGCIntervalWhenSoftLimited := cfg.minGCIntervalWhenSoftLimited
      minGCIntervalWhenHardLimited := cfg.minGCIntervalWhenHardLimited
      maxGCIntervalWhenSoftLimited := cfg.maxGCIntervalWhenSoftLimited
      maxGCIntervalWhenHardLimited := cfg.maxGCIntervalWhenHardLimited
      lastGCDone := now
      currentSoftGCInterval := 0
      currentHardGCInterval := 0
      lastStats := 0 }

/-- The duration between two times, which is at most the largest one. -/
def since (now last : Int) : Int := max (-(2 ^ 63)) (min (now - last) (2 ^ 63 - 1))

namespace MemoryLimiter

variable (ml : MemoryLimiter)

def minGCInterval : Path → Int
  | .soft => ml.minGCIntervalWhenSoftLimited
  | .hard => ml.minGCIntervalWhenHardLimited

def maxGCInterval : Path → Int
  | .soft => ml.maxGCIntervalWhenSoftLimited
  | .hard => ml.maxGCIntervalWhenHardLimited

def currentGCInterval : Path → Int
  | .soft => ml.currentSoftGCInterval
  | .hard => ml.currentHardGCInterval

/-- `scaled` is memCheckWait times 0.95, as a float64 that is made a duration again. The product with 2 wraps around. -/
def nextBackoffInterval (scaled current configMin configMax : Int) : Int :=
  if configMax = 0 then configMin
  else
    let minInterval := max configMin scaled
    let maxInterval := max configMax configMin
    min (Int.bmod (max current minInterval * 2) (2 ^ 64)) maxInterval

/-- checkLimitAndBackoff, with whether memory is above the soft limit. -/
def checkLimitAndBackoff (scale : Int → Int) (alloc : UInt64) (didGC : Bool) : MemoryLimiter × Bool :=
  let aboveSoftLimit := ml.usageChecker.aboveSoftLimit alloc
  let gcWasEffective := !aboveSoftLimit || alloc ≤ ml.lastStats * (100 - 5) / 100
  let ml := { ml with lastStats := alloc }
  if gcWasEffective then ({ ml with currentSoftGCInterval := 0, currentHardGCInterval := 0 }, aboveSoftLimit)
  else if didGC = false then (ml, aboveSoftLimit)
  else
    let next := fun path => nextBackoffInterval (scale ml.memCheckWait) (ml.currentGCInterval path) (ml.minGCInterval path)
      (ml.maxGCInterval path)
    ({ ml with currentSoftGCInterval := next .soft, currentHardGCInterval := next .hard }, aboveSoftLimit)

end MemoryLimiter

structure GC where
  path : Path
  started : Int
  finished : Int

structure Tick where
  alloc : UInt64
  now : Int
  /-- The end of a GC, if one is forced. -/
  gcDone : Int
  allocAfterGC : UInt64

structure State where
  ml : MemoryLimiter
  readings : List UInt64
  /-- The status of every event that was reported. -/
  reports : List Status
  gcs : List GC

/-- The branch above the hard limit, or the one above the soft limit only: a GC if there was none recently. -/
def forceGC (scale : Int → Int) (s : State) (path : Path) (tick : Tick) (aboveSoftLimit : Bool) : State × Bool :=
  let gateInterval := max (s.ml.minGCInterval path) (s.ml.currentGCInterval path)
  if since tick.now s.ml.lastGCDone > gateInterval then
    let (ml, aboveSoftLimit) := { s.ml with lastGCDone := tick.gcDone }.checkLimitAndBackoff scale tick.allocAfterGC true
    ({ s with
        ml := ml
        readings := s.readings ++ [tick.allocAfterGC]
        gcs := s.gcs ++ [⟨path, tick.now, tick.gcDone⟩] }, aboveSoftLimit)
  else (s, aboveSoftLimit)

def checkMemLimits (scale : Int → Int) (s : State) (tick : Tick) : State :=
  let (ml, aboveSoftLimit) := s.ml.checkLimitAndBackoff scale tick.alloc false
  let s := { s with ml := ml, readings := s.readings ++ [tick.alloc] }
  if aboveSoftLimit = false then
    { s with
      ml := { s.ml with mustRefuse := false }
      reports := if s.ml.mustRefuse then s.reports ++ [.ok] else s.reports }
  else
    let path := if s.ml.usageChecker.aboveHardLimit tick.alloc then .hard else .soft
    let (s, aboveSoftLimit) := forceGC scale s path tick aboveSoftLimit
    let reports := if s.ml.mustRefuse = false ∧ aboveSoftLimit then s.reports ++ [.recoverableError] else s.reports
    { s with
      ml := { s.ml with mustRefuse := aboveSoftLimit }
      reports := if aboveSoftLimit = false then reports ++ [.ok] else reports }

def run (scale : Int → Int) (s : State) (ticks : List Tick) : State := ticks.foldl (checkMemLimits scale) s

def State.start (ml : MemoryLimiter) : State := ⟨ml, [], [], []⟩

def Clock : Int → List Tick → Prop
  | _, [] => True
  | now, tick :: rest => now ≤ tick.now ∧ tick.now ≤ tick.gcDone ∧ Clock tick.gcDone rest

namespace Config

variable (cfg : Config)

def minGCInterval : Path → Int
  | .soft => cfg.minGCIntervalWhenSoftLimited
  | .hard => cfg.minGCIntervalWhenHardLimited

def maxGCInterval : Path → Int
  | .soft => cfg.maxGCIntervalWhenSoftLimited
  | .hard => cfg.maxGCIntervalWhenHardLimited

end Config

/-- Each check reads memory and, if that is above the soft limit, may force a GC and read it again. -/
inductive Taken (d : MemUsageChecker) : List Tick → List UInt64 → List GC → Prop where
  | start : Taken d [] [] []
  | read {ticks : List Tick} {readings : List UInt64} {gcs : List GC} (taken : Taken d ticks readings gcs) (tick : Tick) :
      Taken d (ticks ++ [tick]) (readings ++ [tick.alloc]) gcs
  | forced {ticks : List Tick} {readings : List UInt64} {gcs : List GC} (taken : Taken d ticks readings gcs) (tick : Tick)
      (above : d.aboveSoftLimit tick.alloc = true) :
      Taken d (ticks ++ [tick]) (readings ++ [tick.alloc] ++ [tick.allocAfterGC])
        (gcs ++ [⟨if d.aboveHardLimit tick.alloc then .hard else .soft, tick.now, tick.gcDone⟩])

/-- What the limiter and its reports say of the last reading, and what holds of the forced GCs. -/
structure Consistent (cfg : Config) (d : MemUsageChecker) (ticks : List Tick) (s : State) : Prop where
  taken : Taken d ticks s.readings s.gcs
  refuses : ∀ reading, s.readings.getLast? = some reading → (s.ml.mustRefuse = true ↔ d.aboveSoftLimit reading = true)
  reported : s.reports.getLast? = some .recoverableError ↔ s.ml.mustRefuse = true
  bounded : ∀ path, s.ml.currentGCInterval path = 0 ∨
    s.ml.currentGCInterval path ≤ max (cfg.maxGCInterval path) (cfg.minGCInterval path)
  spaced : s.gcs.Pairwise fun first second =>
    first.path = second.path → cfg.minGCInterval second.path < second.started - first.finished
  reset : ∀ reading, s.readings.getLast? = some reading → d.aboveSoftLimit reading = false →
    ∀ path, s.ml.currentGCInterval path = 0

section steps
variable {cfg : Config} {d : MemUsageChecker} {scale : Int → Int} {ml : MemoryLimiter} {s : State} {tick : Tick} {now : Int}

structure Configured (cfg : Config) (d : MemUsageChecker) (ml : MemoryLimiter) : Prop where
  usageChecker : ml.usageChecker = d
  minGCInterval : ∀ path, ml.minGCInterval path = cfg.minGCInterval path
  maxGCInterval : ∀ path, ml.maxGCInterval path = cfg.maxGCInterval path
  bounded : ∀ path, ml.currentGCInterval path = 0 ∨
    ml.currentGCInterval path ≤ max (cfg.maxGCInterval path) (cfg.minGCInterval path)

theorem nextBackoffInterval_le (scaled current configMin configMax : Int) :
    MemoryLimiter.nextBackoffInterval scaled current configMin configMax ≤ max configMax configMin := by
  rw [MemoryLimiter.nextBackoffInterval]
  split
  · exact le_max_right _ _
  · exact min_le_right _ _

structure Classified (cfg : Config) (d : MemUsageChecker) (ml : MemoryLimiter) (alloc : UInt64) (result : MemoryLimiter × Bool) :
    Prop where
  above : result.2 = d.aboveSoftLimit alloc
  configured : Configured cfg d result.1
  mustRefuse : result.1.mustRefuse = ml.mustRefuse
  lastGCDone : result.1.lastGCDone = ml.lastGCDone
  reset : result.2 = false → ∀ path, result.1.currentGCInterval path = 0

theorem checkLimitAndBackoff_classified (configured : Configured cfg d ml) (alloc : UInt64) (didGC : Bool) :
    Classified cfg d ml alloc (ml.checkLimitAndBackoff scale alloc didGC) := by
  have same : ml.usageChecker.aboveSoftLimit alloc = d.aboveSoftLimit alloc := by rw [configured.usageChecker]
  rw [MemoryLimiter.checkLimitAndBackoff]
  split
  · have zero : ∀ path, MemoryLimiter.currentGCInterval
        { ml with lastStats := alloc, currentSoftGCInterval := 0, currentHardGCInterval := 0 } path = 0 := by
      intro path
      cases path <;> rfl
    exact ⟨same, { configured with bounded := fun path => .inl (zero path) }, rfl, rfl, fun _ => zero⟩
  · next ineffective =>
      rw [Bool.or_eq_true, not_or, Bool.not_eq_true'] at ineffective
      have above : ¬ml.usageChecker.aboveSoftLimit alloc = false := ineffective.1
      split
      · exact ⟨same, { configured with }, rfl, rfl, fun none => absurd none above⟩
      · refine ⟨same, { configured with bounded := ?_ }, rfl, rfl, fun none => absurd none above⟩
        intro path
        right
        rw [← configured.minGCInterval, ← configured.maxGCInterval]
        cases path with
        | soft | hard => exact nextBackoffInterval_le _ _ _ _

theorem forceGC_taken {ticks : List Tick} {readings : List UInt64} {path : Path} (taken : Taken d ticks readings s.gcs)
    (read : s.readings = readings ++ [tick.alloc]) (above : d.aboveSoftLimit tick.alloc = true)
    (limit : path = if d.aboveHardLimit tick.alloc then .hard else .soft) (scale : Int → Int) :
    Taken d (ticks ++ [tick]) (forceGC scale s path tick true).1.readings (forceGC scale s path tick true).1.gcs := by
  rw [forceGC]
  split
  · have forced := taken.forced tick above
    rwa [← read, ← limit] at forced
  · rw [read]
    exact taken.read tick

/-- The state after a reading, with whether that is above the soft limit. -/
structure Measured (cfg : Config) (d : MemUsageChecker) (now : Int) (s : State) (above : Bool) : Prop where
  configured : Configured cfg d s.ml
  reading : ∃ reading, s.readings.getLast? = some reading ∧ above = d.aboveSoftLimit reading
  reset : above = false → ∀ path, s.ml.currentGCInterval path = 0
  done : s.ml.lastGCDone ≤ now
  finished : ∀ gc ∈ s.gcs, gc.finished ≤ s.ml.lastGCDone
  spaced : s.gcs.Pairwise fun first second =>
    first.path = second.path → cfg.minGCInterval second.path < second.started - first.finished

theorem since_le {last : Int} (later : last ≤ now) : since now last ≤ now - last := by
  rw [since]
  omega

variable {above : Bool}

theorem forceGC_measured (path : Path) (measured : Measured cfg d now s above) (later : now ≤ tick.now)
    (ends : tick.now ≤ tick.gcDone) :
    Measured cfg d tick.gcDone (forceGC scale s path tick above).1 (forceGC scale s path tick above).2 := by
  have done := measured.done
  rw [forceGC]
  split
  · next gate =>
      have configured : Configured cfg d { s.ml with lastGCDone := tick.gcDone } :=
        ⟨measured.configured.usageChecker, measured.configured.minGCInterval, measured.configured.maxGCInterval,
          measured.configured.bounded⟩
      have classified := @checkLimitAndBackoff_classified cfg d scale _ configured tick.allocAfterGC true
      generalize MemoryLimiter.checkLimitAndBackoff { s.ml with lastGCDone := tick.gcDone } scale tick.allocAfterGC true =
        result at classified ⊢
      have lastGCDone : result.1.lastGCDone = tick.gcDone := classified.lastGCDone
      constructor
      · exact classified.configured
      · exact ⟨tick.allocAfterGC, by simp, classified.above⟩
      · exact classified.reset
      · exact lastGCDone.le
      · intro gc mem
        rw [lastGCDone]
        rcases mem_append.mp mem with earlier | new
        · have before := measured.finished gc earlier
          omega
        · rw [mem_singleton.mp new]
      · apply pairwise_append.mpr
        refine ⟨measured.spaced, pairwise_singleton _ _, ?_⟩
        intro first earlier second new _
        rw [mem_singleton.mp new]
        -- The gate is at least the configured interval, and no earlier GC ended after the last one.
        have before := measured.finished first earlier
        have interval := measured.configured.minGCInterval path
        have passed : since tick.now s.ml.lastGCDone ≤ tick.now - s.ml.lastGCDone := since_le (by omega)
        change cfg.minGCInterval path < tick.now - first.finished
        omega
  · exact { measured with done := le_trans done (le_trans later ends) }

theorem forceGC_reports (path : Path) (configured : Configured cfg d s.ml) :
    (forceGC scale s path tick above).1.reports = s.reports ∧
      (forceGC scale s path tick above).1.ml.mustRefuse = s.ml.mustRefuse := by
  rw [forceGC]
  split
  · have kept : Configured cfg d { s.ml with lastGCDone := tick.gcDone } :=
      { configured with }
    exact ⟨rfl, (checkLimitAndBackoff_classified kept tick.allocAfterGC true).mustRefuse⟩
  · exact ⟨rfl, rfl⟩

structure Checked (cfg : Config) (d : MemUsageChecker) (ticks : List Tick) (now : Int) (s : State) : Prop where
  consistent : Consistent cfg d ticks s
  configured : Configured cfg d s.ml
  done : s.ml.lastGCDone ≤ now
  finished : ∀ gc ∈ s.gcs, gc.finished ≤ s.ml.lastGCDone

variable {ticks : List Tick}

theorem Measured.checked {reports : List Status} (measured : Measured cfg d now s above)
    (taken : Taken d ticks s.readings s.gcs)
    (reported : reports.getLast? = some .recoverableError ↔ above = true) :
    Checked cfg d ticks now { s with ml := { s.ml with mustRefuse := above }, reports := reports } := by
  obtain ⟨reading, last, same⟩ := measured.reading
  have unique : ∀ reading', s.readings.getLast? = some reading' → above = d.aboveSoftLimit reading' := by
    intro reading' last'
    rw [last] at last'
    cases last'
    exact same
  refine ⟨⟨taken, ?_, reported, measured.configured.bounded, measured.spaced, ?_⟩, ?_, measured.done, measured.finished⟩
  · intro reading' last'
    rw [← unique reading' last']
  · intro reading' last' under
    exact measured.reset ((unique reading' last').trans under)
  · exact ⟨measured.configured.usageChecker, measured.configured.minGCInterval, measured.configured.maxGCInterval,
      measured.configured.bounded⟩

theorem checkMemLimits_checked (checked : Checked cfg d ticks now s) (later : now ≤ tick.now)
    (ends : tick.now ≤ tick.gcDone) : Checked cfg d (ticks ++ [tick]) tick.gcDone (checkMemLimits scale s tick) := by
  have classified := @checkLimitAndBackoff_classified cfg d scale s.ml checked.configured tick.alloc false
  have reported := checked.consistent.reported
  have taken := checked.consistent.taken
  rw [checkMemLimits]
  generalize s.ml.checkLimitAndBackoff scale tick.alloc false = result at classified
  obtain ⟨ml, above⟩ := result
  have mustRefuse : ml.mustRefuse = s.ml.mustRefuse := classified.mustRefuse
  have lastGCDone : ml.lastGCDone = s.ml.lastGCDone := classified.lastGCDone
  have measured : Measured cfg d now { s with ml := ml, readings := s.readings ++ [tick.alloc] } above := by
    refine ⟨classified.configured, ⟨tick.alloc, by simp, classified.above⟩, classified.reset, ?_, ?_, checked.consistent.spaced⟩
    · exact lastGCDone.trans_le checked.done
    · exact fun gc mem => (checked.finished gc mem).trans_eq lastGCDone.symm
  dsimp only
  rw [mustRefuse]
  cases above with
  | false =>
    rw [if_pos rfl]
    have ended : Measured cfg d tick.gcDone { s with ml := ml, readings := s.readings ++ [tick.alloc] } false :=
      { measured with done := measured.done.trans (later.trans ends) }
    apply ended.checked (taken.read tick)
    cases refused : s.ml.mustRefuse with
    | false =>
      rw [if_neg Bool.false_ne_true, reported, refused]
    | true => simp
  | true =>
    rw [if_neg (by decide)]
    have usageChecker : ml.usageChecker = d := classified.configured.usageChecker
    have takes := @forceGC_taken d { s with ml := ml, readings := s.readings ++ [tick.alloc] } tick ticks s.readings
      (if ml.usageChecker.aboveHardLimit tick.alloc then .hard else .soft) taken rfl classified.above.symm
      (by rw [usageChecker]) scale
    have forced := @forceGC_measured cfg d scale _ tick now true
      (if ml.usageChecker.aboveHardLimit tick.alloc then .hard else .soft) measured later ends
    have kept := @forceGC_reports cfg d scale { s with ml := ml, readings := s.readings ++ [tick.alloc] } tick true
      (if ml.usageChecker.aboveHardLimit tick.alloc then .hard else .soft) measured.configured
    generalize forceGC scale { s with ml := ml, readings := s.readings ++ [tick.alloc] }
      (if ml.usageChecker.aboveHardLimit tick.alloc then .hard else .soft) tick true = result at forced kept takes
    obtain ⟨s', above⟩ := result
    apply forced.checked takes
    rw [kept.1, kept.2]
    rw [mustRefuse]
    cases above with
    | false => simp
    | true =>
      cases refused : s.ml.mustRefuse with
      | false => simp
      | true => simp [reported, refused]

theorem newMemoryLimiter_checked {totalMemory : Except E UInt64} (built : newMemoryLimiter cfg totalMemory now = .ok ml) :
    Checked cfg ml.usageChecker [] now (.start ml) := by
  have fields : ml.mustRefuse = false ∧ ml.lastGCDone = now ∧ (∀ path, ml.currentGCInterval path = 0) ∧
      (∀ path, ml.minGCInterval path = cfg.minGCInterval path) ∧ ∀ path, ml.maxGCInterval path = cfg.maxGCInterval path := by
    rw [newMemoryLimiter] at built
    split at built
    · cases built
    · cases built
      refine ⟨rfl, rfl, ?_, ?_, ?_⟩ <;> intro path <;> cases path <;> rfl
  obtain ⟨mustRefuse, lastGCDone, zero, least, most⟩ := fields
  refine ⟨⟨.start, nofun, ?_, fun path => .inl (zero path), .nil, nofun⟩, ⟨rfl, least, most, fun path => .inl (zero path)⟩,
    lastGCDone.le, nofun⟩
  simp [State.start, mustRefuse]

/-- Over any sequence of checks, whatever memory is read and whichever GCs are forced. -/
theorem checks_consistent {totalMemory : Except E UInt64} {ticks : List Tick}
    (built : newMemoryLimiter cfg totalMemory now = .ok ml) (clock : Clock now ticks) :
    Consistent cfg ml.usageChecker ticks (run scale (.start ml) ticks) := by
  have runs : ∀ (ticks : List Tick) (before : List Tick) (now : Int) (s : State),
      Checked cfg ml.usageChecker before now s → Clock now ticks →
        Consistent cfg ml.usageChecker (before ++ ticks) (run scale s ticks) := by
    intro ticks
    induction ticks with
    | nil =>
      intro before _ _ checked _
      rw [append_nil]
      exact checked.consistent
    | cons tick rest ih =>
      intro before now s checked clock
      rw [← singleton_append, ← append_assoc]
      exact ih (before ++ [tick]) tick.gcDone _ (checkMemLimits_checked checked clock.1 clock.2.1) clock.2.2
  exact runs ticks [] now _ (newMemoryLimiter_checked built) clock

/-- Memory stays high through a forced GC and then falls. -/
theorem checks_consistent_two : ∃ ml, newMemoryLimiter (E := String) percentages (.ok 1000) 0 = .ok ml ∧
    Consistent percentages ml.usageChecker [⟨450, 7, 9, 449⟩, ⟨100, 12, 12, 0⟩]
      (run (· * 95 / 100) (.start ml) [⟨450, 7, 9, 449⟩, ⟨100, 12, 12, 0⟩]) :=
  ⟨_, rfl, @checks_consistent String percentages (· * 95 / 100) _ 0 (.ok 1000) _ rfl (by simp [Clock])⟩

end steps

end CollectorFormal.Memorylimiter
