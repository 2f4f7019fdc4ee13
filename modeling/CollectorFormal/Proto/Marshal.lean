import CollectorFormal.Proto.Skip

/-! A varint is written backwards from an offset, by its length, and read back forwards. -/

namespace CollectorFormal.Proto

open Lib List

/-- The bits that a number takes, as bits.Len64 counts them. -/
def len64 (x : UInt64) : Nat := if x = 0 then 0 else x.toNat.log2 + 1

def sov (x : UInt64) : Nat := (len64 (x ||| 1) + 6) / 7

/-- The buffer with a byte set; there is none where the index is out of range. -/
def setByte (buf : List UInt8) (offset : Int) (b : UInt8) : Option (List UInt8) :=
  if 0 ≤ offset ∧ offset < buf.length then some (buf.set offset.toNat b) else none

/-- The loop of EncodeVarint, with the byte that is written after it. -/
def encodeVarintLoop (buf : List UInt8) (offset : Int) (v : UInt64) : Option (List UInt8) :=
  if v ≥ (1 : UInt64) <<< 7 then
    match setByte buf offset (v &&& 0x7f ||| 0x80).toUInt8 with
    | none => none
    | some buf => encodeVarintLoop buf (offset + 1) (v >>> 7)
  else setByte buf offset v.toUInt8
termination_by v.toNat
decreasing_by
  have large : 128 ≤ v.toNat := by assumption
  rw [UInt64.toNat_shiftRight, Nat.shiftRight_eq_div_pow]
  exact Nat.div_lt_self (by omega) (by decide)

def encodeVarint (buf : List UInt8) (offset : Int) (v : UInt64) : Option (List UInt8 × Int) :=
  let base := offset - sov v
  (encodeVarintLoop buf base v).map fun buf => (buf, base)

variable (v : UInt64)

theorem sov_eq : sov v = ((v.toNat ||| 1).log2 + 7) / 7 := by
  have one : (v ||| 1).toNat = v.toNat ||| 1 := UInt64.toNat_or v 1
  have some : v ||| 1 ≠ 0 := by
    intro none
    rw [none] at one
    have least : 1 ≤ v.toNat ||| 1 := Nat.right_le_or
    rw [← one] at least
    exact absurd least (by decide)
  rw [sov, len64, if_neg some, one]

theorem sov_le_iff {bytes : Nat} (some : 1 ≤ bytes) : sov v ≤ bytes ↔ v.toNat < 2 ^ (7 * bytes) := by
  rw [sov_eq]
  exact sevenBits_le_iff some

theorem sov_pos : 1 ≤ sov v := by
  rw [sov_eq]
  omega

theorem shifted : (v >>> 7).toNat = v.toNat / 128 := by
  rw [UInt64.toNat_shiftRight, Nat.shiftRight_eq_div_pow]
  rfl

theorem sov_small {v : UInt64} (small : v.toNat < 128) : sov v = 1 :=
  Nat.le_antisymm ((sov_le_iff v (Nat.le_refl 1)).mpr small) (sov_pos v)

theorem sov_large {v : UInt64} (large : 128 ≤ v.toNat) : sov v = sov (v >>> 7) + 1 := by
  have more : ¬sov v ≤ 1 := by
    rw [sov_le_iff v (Nat.le_refl 1)]
    omega
  apply Nat.le_antisymm
  · have below := (sov_le_iff (v >>> 7) (sov_pos _)).mp (Nat.le_refl _)
    rw [shifted, Nat.div_lt_iff_lt_mul (by decide)] at below
    rw [sov_le_iff v (by omega), Nat.mul_add, Nat.pow_add]
    exact below
  · have below := (sov_le_iff v (sov_pos v)).mp (Nat.le_refl _)
    suffices sov (v >>> 7) ≤ sov v - 1 by omega
    rw [sov_le_iff (v >>> 7) (by omega), shifted, Nat.div_lt_iff_lt_mul (by decide)]
    calc
      v.toNat < 2 ^ (7 * sov v) := below
      _ = 2 ^ (7 * (sov v - 1)) * 2 ^ 7 := by
        rw [← Nat.pow_add]
        congr 1
        omega

theorem setByte_front (front back : List UInt8) (old b : UInt8) :
    setByte (front ++ old :: back) front.length b = some (front ++ b :: back) := by
  rw [setByte, if_pos, Int.toNat_natCast, set_append_right _ _ (Nat.le_refl _), Nat.sub_self, set_cons_zero]
  rw [length_append, length_cons]
  omega

theorem low_byte : (v &&& 0x7f ||| 0x80).toUInt8.toNat = v.toNat % 128 + 128 := by
  have seven : v.toNat &&& 0x7f = v.toNat % 128 := Nat.and_two_pow_sub_one_eq_mod v.toNat 7
  have low : v.toNat % 128 < 2 ^ 7 := Nat.mod_lt _ (by decide)
  have top : v.toNat % 128 ||| 0x80 = v.toNat % 128 + 128 := by
    rw [Nat.or_comm]
    exact (Nat.two_pow_add_eq_or_of_lt low 1).symm.trans (Nat.add_comm _ _)
  rw [UInt64.toNat_toUInt8, UInt64.toNat_or, UInt64.toNat_and]
  show (v.toNat &&& 0x7f ||| 0x80) % 256 = _
  rw [seven, top]
  omega

/-- The bytes that are written depend on the number alone: they replace as many of the buffer, whatever those were. -/
theorem encodeVarintLoop_writes :
    ∃ bytes, bytes.length = sov v ∧ isVarint bytes = true ∧ (readVarint bytes).1 = v.toNat ∧
      ∀ front middle back, middle.length = sov v →
        encodeVarintLoop (front ++ (middle ++ back)) front.length v = some (front ++ (bytes ++ back)) := by
  induction size : v.toNat using Nat.strongRecOn generalizing v with
  | ind number ih =>
    subst size
    by_cases small : v.toNat < 128
    · have byte : v.toUInt8.toNat = v.toNat := by
        rw [UInt64.toNat_toUInt8]
        omega
      have last : v.toUInt8 < 0x80 := by
        show v.toUInt8.toNat < 128
        omega
      refine ⟨[v.toUInt8], (sov_small small).symm, by simp [isVarint, last], by rw [readVarint, byte, if_pos small], ?_⟩
      intro front middle back length
      rw [sov_small small] at length
      obtain ⟨old, rfl⟩ := length_eq_one_iff.mp length
      have stop : ¬v ≥ (1 : UInt64) <<< 7 := by
        show ¬128 ≤ v.toNat
        omega
      rw [encodeVarintLoop, if_neg stop]
      exact setByte_front front back old v.toUInt8
    · have large : 128 ≤ v.toNat := Nat.le_of_not_lt small
      obtain ⟨bytes, length, ends, read, writes⟩ := ih _ (by rw [shifted]; omega) (v >>> 7) rfl
      have more : ¬(v &&& 0x7f ||| 0x80).toUInt8 < 0x80 := by
        show ¬(v &&& 0x7f ||| 0x80).toUInt8.toNat < 128
        rw [low_byte]
        omega
      refine ⟨(v &&& 0x7f ||| 0x80).toUInt8 :: bytes, by rw [length_cons, length, sov_large large], ?_, ?_, ?_⟩
      · rw [isVarint, if_neg more]
        exact ends
      · rw [readVarint, low_byte, if_neg (by omega)]
        rw [read, shifted, Nat.add_sub_cancel, Nat.mod_add_div]
      · intro front middle back enough
        rw [sov_large large] at enough
        cases middle with
        | nil => cases enough
        | cons old middle =>
          have go : v ≥ (1 : UInt64) <<< 7 := large
          have next : (front.length : Int) + 1 = (front ++ [(v &&& 0x7f ||| 0x80).toUInt8]).length := by simp
          rw [encodeVarintLoop, if_pos go, cons_append, setByte_front]
          dsimp only
          rw [next, append_cons, writes _ middle back (Nat.succ.inj enough), append_assoc]
          rfl

/-- The bytes around the number are kept, and reading from the offset that is returned gives the number and the offset
it was written in front of. -/
theorem encodeVarint_consumeVarint (v : UInt64) :
    ∃ bytes, bytes.length = sov v ∧
      ∀ (buf : Buf) (offset : Nat), sov v ≤ offset → offset ≤ buf.bytes.length →
        ∃ written : Buf, written.bytes = buf.bytes.take (offset - sov v) ++ (bytes ++ buf.bytes.drop offset) ∧
          encodeVarint buf.bytes offset v = some (written.bytes, ((offset - sov v : Nat) : Int)) ∧
          consumeVarint written (offset - sov v) = .ok (v.toNat, offset) := by
  obtain ⟨bytes, length, ends, read, writes⟩ := encodeVarintLoop_writes v
  refine ⟨bytes, length, ?_⟩
  intro buf offset room inside
  have base : (buf.bytes.take (offset - sov v)).length = offset - sov v := by
    rw [length_take]
    omega
  have behind : (buf.bytes.take (offset - sov v) ++ (bytes ++ buf.bytes.drop offset)).length = buf.bytes.length := by
    rw [length_append, length_append, base, length, length_drop]
    omega
  have parts : buf.bytes = buf.bytes.take (offset - sov v) ++
      ((buf.bytes.drop (offset - sov v)).take (sov v) ++ buf.bytes.drop offset) := by
    have rest : buf.bytes.drop offset = (buf.bytes.drop (offset - sov v)).drop (sov v) := by
      rw [drop_drop]
      congr 1
      omega
    rw [rest, take_append_drop, take_append_drop]
  have start : (offset : Int) - sov v = (offset - sov v : Nat) := by omega
  refine ⟨⟨_, behind ▸ buf.short⟩, rfl, ?_, ?_⟩
  · have wrote := writes (buf.bytes.take (offset - sov v)) ((buf.bytes.drop (offset - sov v)).take (sov v))
      (buf.bytes.drop offset) (by rw [length_take, length_drop]; omega)
    rw [base, ← parts] at wrote
    rw [encodeVarint, start, wrote]
    rfl
  · have ten : sov v ≤ 10 := by
      rw [sov_le_iff v (by decide)]
      have := v.toNat_lt
      omega
    have stands : At ⟨_, behind ▸ buf.short⟩ (offset - sov v) bytes := by
      refine ⟨buf.bytes.drop offset, ?_⟩
      nth_rewrite 1 [← base]
      exact drop_left
    have fits : (readVarint bytes).1 < 2 ^ 64 := by
      rw [read]
      exact v.toNat_lt
    rw [consumeVarint_at ⟨bytes, ends, by omega, fits⟩ stands]
    show Except.ok ((readVarint bytes).1, offset - sov v + bytes.length) = _
    rw [read, length, Nat.sub_add_cancel room]

theorem encodeVarint_consumeVarint_300 :
    ∃ written : Buf, written.bytes.length = 4 ∧ encodeVarint [7, 8, 9, 10] 3 300 = some (written.bytes, 1) ∧
      consumeVarint written 1 = .ok (300, 3) := by
  have two : sov 300 = 2 := by decide +kernel
  obtain ⟨bytes, length, writes⟩ := encodeVarint_consumeVarint 300
  obtain ⟨written, parts, encoded, read⟩ := writes ⟨[7, 8, 9, 10], by decide⟩ 3 (by rw [two]; decide) (by decide)
  rw [two] at length parts encoded read
  refine ⟨written, ?_, encoded, read⟩
  rw [parts, length_append, length_append, length]
  rfl

/-- An offset behind the end of the buffer: the byte in front of it is out of range. -/
theorem encodeVarint_beyond : sov 0 ≤ 1 ∧ encodeVarint [] 1 0 = none := by
  refine ⟨by decide +kernel, ?_⟩
  rw [encodeVarint, encodeVarintLoop, if_neg (by decide)]
  rfl

end CollectorFormal.Proto
