import CollectorFormal.Lib.Outcomes
import Mathlib.Algebra.Order.Ring.Nat
import Mathlib.Tactic.Common

/-! The limits of the memory limiter, which are computed in 64 bits. -/

namespace CollectorFormal.Memorylimiter

open Lib (ok_of_guard)

/-- The intervals are in nanoseconds. -/
structure Config where
  checkInterval : Int
  minGCIntervalWhenSoftLimited : Int
  minGCIntervalWhenHardLimited : Int
  maxGCIntervalWhenSoftLimited : Int
  maxGCIntervalWhenHardLimited : Int
  memoryLimitMiB : UInt32
  memorySpikeLimitMiB : UInt32
  memoryLimitPercentage : UInt32
  memorySpikePercentage : UInt32

inductive ConfigError where
  | checkIntervalOutOfRange
  | inconsistentGCMinInterval
  | inconsistentGCMaxInterval
  | inconsistentGCMaxSoftInterval
  | inconsistentGCMaxHardInterval
  | negativeGCMaxSoftInterval
  | negativeGCMaxHardInterval
  | limitOutOfRange
  | spikeLimitOutOfRange
  | spikeLimitPercentageOutOfRange
  | limitPercentageOutOfRange
deriving DecidableEq

def Config.validate (cfg : Config) : Except ConfigError Unit :=
  if cfg.checkInterval ≤ 0 then .error .checkIntervalOutOfRange
  else if cfg.minGCIntervalWhenSoftLimited < cfg.minGCIntervalWhenHardLimited then .error .inconsistentGCMinInterval
  else if cfg.maxGCIntervalWhenSoftLimited < 0 then .error .negativeGCMaxSoftInterval
  else if cfg.maxGCIntervalWhenHardLimited < 0 then .error .negativeGCMaxHardInterval
  else if cfg.maxGCIntervalWhenSoftLimited > 0 ∧ cfg.maxGCIntervalWhenSoftLimited < cfg.minGCIntervalWhenSoftLimited then
    .error .inconsistentGCMaxSoftInterval
  else if cfg.maxGCIntervalWhenHardLimited > 0 ∧ cfg.maxGCIntervalWhenHardLimited < cfg.minGCIntervalWhenHardLimited then
    .error .inconsistentGCMaxHardInterval
  else if cfg.maxGCIntervalWhenSoftLimited > 0 ∧ cfg.maxGCIntervalWhenHardLimited > 0 ∧
      cfg.maxGCIntervalWhenSoftLimited < cfg.maxGCIntervalWhenHardLimited then
    .error .inconsistentGCMaxInterval
  else if cfg.memoryLimitMiB = 0 ∧ cfg.memoryLimitPercentage = 0 then .error .limitOutOfRange
  else if cfg.memoryLimitPercentage > 100 ∨ cfg.memorySpikePercentage > 100 then .error .limitPercentageOutOfRange
  else if cfg.memoryLimitMiB > 0 ∧ cfg.memoryLimitMiB ≤ cfg.memorySpikeLimitMiB then .error .spikeLimitOutOfRange
  else if cfg.memoryLimitPercentage > 0 ∧ cfg.memoryLimitPercentage ≤ cfg.memorySpikePercentage then
    .error .spikeLimitPercentageOutOfRange
  else .ok ()

def mibBytes : UInt64 := 1024 * 1024

structure MemUsageChecker where
  memAllocLimit : UInt64
  memSpikeLimit : UInt64

namespace MemUsageChecker

variable (d : MemUsageChecker) (alloc : UInt64)

def aboveSoftLimit : Bool := alloc ≥ d.memAllocLimit - d.memSpikeLimit

def aboveHardLimit : Bool := alloc ≥ d.memAllocLimit

end MemUsageChecker

def newFixedMemUsageChecker (memAllocLimit memSpikeLimit : UInt64) : MemUsageChecker where
  memAllocLimit := memAllocLimit
  -- If spike limit is unspecified use 20% of mem limit.
  memSpikeLimit := if memSpikeLimit = 0 then memAllocLimit / 5 else memSpikeLimit

def newPercentageMemUsageChecker (totalMemory percentageLimit percentageSpike : UInt64) : MemUsageChecker :=
  newFixedMemUsageChecker (percentageLimit * totalMemory / 100) (percentageSpike * totalMemory / 100)

variable {E : Type}

/-- getMemUsageChecker, with what GetMemoryFn returns. Its error is wrapped: failed to get total memory, use fixed memory
settings (limit_mib): %w -/
def getMemUsageChecker (cfg : Config) (totalMemory : Except E UInt64) : Except E MemUsageChecker :=
  let memAllocLimit := cfg.memoryLimitMiB.toUInt64 * mibBytes
  let memSpikeLimit := cfg.memorySpikeLimitMiB.toUInt64 * mibBytes
  if cfg.memoryLimitMiB ≠ 0 then .ok (newFixedMemUsageChecker memAllocLimit memSpikeLimit)
  else
    match totalMemory with
    | .error err => .error err
    | .ok totalMemory =>
      .ok (newPercentageMemUsageChecker totalMemory cfg.memoryLimitPercentage.toUInt64 cfg.memorySpikePercentage.toUInt64)

structure Cgroups (E : Type) where
  isCGroupV2 : Except E Bool
  memoryQuotaV2 : Except E (Int64 × Bool)
  newCGroupsForCurrentProcess : Except E Unit
  memoryQuota : Except E (Int64 × Bool)
  readMemInfo : Except E UInt64

def unlimitedMemorySize : Int64 := 9223372036854771712

def Cgroups.totalMemory (cgroups : Cgroups E) : Except E UInt64 := do
  let isV2 ← cgroups.isCGroupV2
  let (memoryQuota, defined) ←
    if isV2 then cgroups.memoryQuotaV2
    else do
      cgroups.newCGroupsForCurrentProcess
      cgroups.memoryQuota
  -- If memory is not defined or is set to unlimitedMemorySize (v1 unset), we fallback to /proc/meminfo.
  if memoryQuota = unlimitedMemorySize ∨ defined = false then cgroups.readMemInfo else return memoryQuota.toUInt64

section limits
variable (cfg : Config) (totalMemory : UInt64)

def Config.limit : Nat :=
  if cfg.memoryLimitMiB ≠ 0 then cfg.memoryLimitMiB.toNat * 2 ^ 20
  else cfg.memoryLimitPercentage.toNat * totalMemory.toNat / 100

def Config.configuredSpike : Nat :=
  if cfg.memoryLimitMiB ≠ 0 then cfg.memorySpikeLimitMiB.toNat * 2 ^ 20
  else cfg.memorySpikePercentage.toNat * totalMemory.toNat / 100

def Config.spike : Nat :=
  if cfg.configuredSpike totalMemory = 0 then cfg.limit totalMemory / 5 else cfg.configuredSpike totalMemory

/-- The limits are those of the configuration, and the checks compare with them as they do with integers. -/
structure ExactLimits (d : MemUsageChecker) : Prop where
  limit : d.memAllocLimit.toNat = cfg.limit totalMemory
  spike : d.memSpikeLimit.toNat = cfg.spike totalMemory
  spike_le : cfg.spike totalMemory ≤ cfg.limit totalMemory
  soft : ∀ alloc : UInt64, d.aboveSoftLimit alloc = true ↔
    (alloc.toNat : Int) ≥ (cfg.limit totalMemory : Int) - cfg.spike totalMemory
  soft_of_hard : ∀ alloc, d.aboveHardLimit alloc = true → d.aboveSoftLimit alloc = true

end limits

variable {cfg : Config} {totalMemory : UInt64}

theorem validate_limits (valid : cfg.validate = .ok ()) :
    (cfg.memoryLimitMiB ≠ 0 → cfg.memorySpikeLimitMiB.toNat < cfg.memoryLimitMiB.toNat) ∧
      (cfg.memoryLimitMiB = 0 → cfg.memorySpikePercentage.toNat < cfg.memoryLimitPercentage.toNat ∧
        cfg.memoryLimitPercentage.toNat ≤ 100) := by
  -- the intervals are checked before the limits
  iterate 7 replace valid := (ok_of_guard valid).2
  obtain ⟨some, valid⟩ := ok_of_guard valid
  obtain ⟨percentages, valid⟩ := ok_of_guard valid
  obtain ⟨spike, valid⟩ := ok_of_guard valid
  obtain ⟨spikePercentage, _⟩ := ok_of_guard valid
  simp only [gt_iff_lt, UInt32.lt_iff_toNat_lt, UInt32.le_iff_toNat_le, ← UInt32.toNat_inj, ne_eq, not_and, not_or, not_lt,
    not_le, UInt32.reduceToNat] at some percentages spike spikePercentage ⊢
  omega

theorem exactLimits_of {limit spike : UInt64} (sameLimit : limit.toNat = cfg.limit totalMemory)
    (sameSpike : spike.toNat = cfg.configuredSpike totalMemory) (le : spike.toNat ≤ limit.toNat) :
    ExactLimits cfg totalMemory (newFixedMemUsageChecker limit spike) := by
  have spikes : (newFixedMemUsageChecker limit spike).memSpikeLimit.toNat = cfg.spike totalMemory := by
    rw [newFixedMemUsageChecker, Config.spike, ← sameSpike, ← sameLimit]
    by_cases zero : spike = 0
    · rw [if_pos zero, zero, UInt64.toNat_zero, if_pos rfl]
      exact UInt64.toNat_div limit 5
    · have positive : spike.toNat ≠ 0 := fun none => zero (UInt64.toNat_inj.mp none)
      rw [if_neg zero, if_neg positive]
  have below : cfg.spike totalMemory ≤ cfg.limit totalMemory := by
    rw [Config.spike, ← sameSpike, ← sameLimit]
    split
    · exact Nat.div_le_self _ _
    · exact le
  have difference : ((newFixedMemUsageChecker limit spike).memAllocLimit -
      (newFixedMemUsageChecker limit spike).memSpikeLimit).toNat = cfg.limit totalMemory - cfg.spike totalMemory := by
    have inside : (newFixedMemUsageChecker limit spike).memSpikeLimit ≤ limit := by
      rw [UInt64.le_iff_toNat_le, spikes, sameLimit]
      exact below
    rw [← sameLimit, ← spikes]
    exact UInt64.toNat_sub_of_le _ _ inside
  constructor
  · exact sameLimit
  · exact spikes
  · exact below
  · intro alloc
    rw [MemUsageChecker.aboveSoftLimit, decide_eq_true_iff, ge_iff_le, UInt64.le_iff_toNat_le, difference]
    omega
  · intro alloc hard
    rw [MemUsageChecker.aboveHardLimit, decide_eq_true_iff, ge_iff_le, UInt64.le_iff_toNat_le] at hard
    rw [MemUsageChecker.aboveSoftLimit, decide_eq_true_iff, ge_iff_le, UInt64.le_iff_toNat_le, difference]
    change limit.toNat ≤ alloc.toNat at hard
    omega

theorem toNat_mib (mib : UInt32) : (mib.toUInt64 * mibBytes).toNat = mib.toNat * 2 ^ 20 := by
  have small := mib.toNat_lt
  rw [UInt64.toNat_mul, UInt32.toNat_toUInt64]
  exact Nat.mod_eq_of_lt (by change mib.toNat * 2 ^ 20 < 2 ^ 64; omega)

theorem toNat_percentage (percentage : UInt32) :
    (percentage.toUInt64 * totalMemory / 100).toNat = percentage.toNat * totalMemory.toNat % 2 ^ 64 / 100 := by
  rw [UInt64.toNat_div, UInt64.toNat_mul, UInt32.toNat_toUInt64]
  rfl

/-- For a valid configuration, the limits are exact iff the limit is fixed or its percentage of the total memory does
not wrap around before it is divided by 100. -/
theorem limits_exact_iff (E : Type) (valid : cfg.validate = .ok ()) :
    ∃ d, getMemUsageChecker (E := E) cfg (.ok totalMemory) = .ok d ∧
      (ExactLimits cfg totalMemory d ↔
        cfg.memoryLimitMiB ≠ 0 ∨ cfg.memoryLimitPercentage.toNat * totalMemory.toNat < 2 ^ 64) := by
  obtain ⟨fixed, percentage⟩ := validate_limits valid
  rw [getMemUsageChecker]
  by_cases zero : cfg.memoryLimitMiB = 0
  · obtain ⟨spike, hundred⟩ := percentage zero
    refine ⟨_, if_neg (not_not.mpr zero), ?_⟩
    rw [or_iff_right (not_not.mpr zero)]
    constructor
    · intro exact
      have limit : (cfg.memoryLimitPercentage.toUInt64 * totalMemory / 100).toNat = cfg.limit totalMemory := exact.limit
      rw [toNat_percentage, Config.limit, if_neg (not_not.mpr zero)] at limit
      by_contra wraps
      omega
    · intro fits
      have less : cfg.memorySpikePercentage.toNat * totalMemory.toNat ≤ cfg.memoryLimitPercentage.toNat * totalMemory.toNat :=
        Nat.mul_le_mul_right _ (Nat.le_of_lt spike)
      apply exactLimits_of
      · rw [toNat_percentage, Config.limit, if_neg (not_not.mpr zero), Nat.mod_eq_of_lt fits]
      · rw [toNat_percentage, Config.configuredSpike, if_neg (not_not.mpr zero), Nat.mod_eq_of_lt (by omega)]
      · rw [toNat_percentage, toNat_percentage, Nat.mod_eq_of_lt fits, Nat.mod_eq_of_lt (by omega)]
        exact Nat.div_le_div_right less
  · refine ⟨_, if_pos zero, iff_of_true ?_ (.inl zero)⟩
    have spike := fixed zero
    apply exactLimits_of
    · rw [toNat_mib, Config.limit, if_pos zero]
    · rw [toNat_mib, Config.configuredSpike, if_pos zero]
    · rw [toNat_mib, toNat_mib]
      omega

def percentages : Config := ⟨1000000000, 0, 0, 0, 0, 0, 0, 50, 10⟩

theorem limits_exact_eight_gib : ∃ d, getMemUsageChecker (E := String) percentages (.ok 8589934592) = .ok d ∧
    ExactLimits percentages 8589934592 d := by
  obtain ⟨d, built, exact⟩ := @limits_exact_iff percentages 8589934592 String rfl
  exact ⟨d, built, exact.mpr (.inr (by decide))⟩

/-- The quota of a group without a limit, where pages have 64 KiB. -/
def largePages : Cgroups String := ⟨.ok false, .error "v1", .ok (), .ok (9223372036854710272, true), .error "not read"⟩

/-- Half of the total is 4611686018427355136 bytes. -/
theorem limit_wraps_around : percentages.validate = .ok () ∧ largePages.totalMemory = .ok 9223372036854710272 ∧
    (getMemUsageChecker percentages largePages.totalMemory).map MemUsageChecker.memAllocLimit = .ok 184467440737062748 ∧
    percentages.limit 9223372036854710272 = 4611686018427355136 :=
  ⟨rfl, rfl, rfl, rfl⟩

end CollectorFormal.Memorylimiter
