import Mathlib.Algebra.Order.Ring.Int
import Mathlib.Tactic.Common
import Mathlib.Data.Nat.Init

/-! Numbers on the wire: fixed width little endian, and base 128 with a
continuation bit. -/

namespace CollectorFormal.Lib

def littleEndian : List UInt8 → Nat
  | [] => 0
  | byte :: rest => byte.toNat + 256 * littleEndian rest

def toLittleEndian : Nat → Nat → List UInt8
  | 0, _ => []
  | width + 1, number => UInt8.ofNat number :: toLittleEndian width (number / 256)

@[simp] theorem length_toLittleEndian (width number : Nat) : (toLittleEndian width number).length = width := by
  induction width generalizing number with
  | zero => rfl
  | succ width ih => rw [toLittleEndian, List.length_cons, ih]

theorem littleEndian_toLittleEndian (width number : Nat) (fits : number < 256 ^ width) :
    littleEndian (toLittleEndian width number) = number := by
  induction width generalizing number with
  | zero => exact (Nat.lt_one_iff.mp fits).symm
  | succ width ih =>
    have smaller : number / 256 < 256 ^ width := by
      rw [Nat.pow_succ, Nat.mul_comm] at fits
      exact Nat.div_lt_of_lt_mul fits
    rw [toLittleEndian, littleEndian, ih _ smaller, UInt8.toNat_ofNat']
    exact Nat.mod_add_div number 256

/-- At most `width` bytes of seven bits each; all but the last have the top bit set. -/
def varint : Nat → Nat → List UInt8
  | 0, _ => []
  | width + 1, number =>
    if number < 128 then [UInt8.ofNat number]
    else UInt8.ofNat (number % 128 + 128) :: varint width (number / 128)

def readVarint : List UInt8 → Nat × List UInt8
  | [] => (0, [])
  | byte :: rest =>
    if byte.toNat < 128 then (byte.toNat, rest)
    else (byte.toNat - 128 + 128 * (readVarint rest).1, (readVarint rest).2)

theorem readVarint_varint (width number : Nat) (rest : List UInt8) (fits : number < 128 ^ (width + 1)) :
    readVarint (varint (width + 1) number ++ rest) = (number, rest) := by
  induction width generalizing number with
  | zero =>
    have small : number < 128 := by simpa using fits
    have byte : (UInt8.ofNat number).toNat = number := by
      rw [UInt8.toNat_ofNat']
      omega
    simp [varint, small, readVarint, byte]
  | succ width ih =>
    rw [varint]
    by_cases small : number < 128
    · have byte : (UInt8.ofNat number).toNat = number := by
        rw [UInt8.toNat_ofNat']
        omega
      simp [small, readVarint, byte]
    · have smaller : number / 128 < 128 ^ (width + 1) := by
        rw [Nat.pow_succ, Nat.mul_comm] at fits
        exact Nat.div_lt_of_lt_mul fits
      have byte : (UInt8.ofNat (number % 128 + 128)).toNat = number % 128 + 128 := by
        rw [UInt8.toNat_ofNat']
        omega
      rw [if_neg small, List.cons_append, readVarint, byte, if_neg (by omega), ih _ smaller]
      simp only [Nat.add_sub_cancel, Nat.mod_add_div]

/-- Seven bits a byte: when a number, of which one bit is always counted, takes no more bytes than that. -/
theorem sevenBits_le_iff {number bytes : Nat} (some : 1 ≤ bytes) :
    ((number ||| 1).log2 + 7) / 7 ≤ bytes ↔ number < 2 ^ (7 * bytes) := by
  have one : 1 < 2 ^ (7 * bytes) := Nat.one_lt_two_pow (by omega)
  calc
    ((number ||| 1).log2 + 7) / 7 ≤ bytes ↔ (number ||| 1).log2 < 7 * bytes := by omega
    _ ↔ number ||| 1 < 2 ^ (7 * bytes) := Nat.log2_lt (by simp)
    _ ↔ number < 2 ^ (7 * bytes) :=
      ⟨fun lower => Nat.lt_of_le_of_lt Nat.left_le_or lower, fun lower => Nat.or_lt_two_pow lower one⟩

end CollectorFormal.Lib
