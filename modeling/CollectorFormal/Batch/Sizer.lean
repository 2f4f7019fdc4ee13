import CollectorFormal.Batch.Extract
import CollectorFormal.Lib.Wire

/-! Sizes on the wire. Those of resources, scopes and records are parameters; those of the messages around them
follow the generated SizeProto functions. -/

namespace CollectorFormal.Batch

variable {H C : Type}

/-- Bytes of a varint; a negative length is converted to uint64 like any other. -/
def sov (x : Int) : Int := ((((x % 2 ^ 64).toNat ||| 1).log2 + 7) / 7 : Nat)

/-- DeltaSize of the protobuf sizers: a length-delimited field with a one-byte tag. -/
def protoDelta (newItemSize : Int) : Int := 1 + newItemSize + sov newItemSize

example : protoDelta 127 = 129 ∧ protoDelta 128 = 131 ∧ protoDelta 239 = 242 := by decide +kernel

def stringSize (text : String) : Int :=
  if text.utf8ByteSize > 0 then protoDelta text.utf8ByteSize else 0

def repeatedSize (size : C → Int) (children : List C) : Int :=
  (children.map fun child => protoDelta (size child)).sum

def Envelope.sizeProto (headerSize : H → Int) (childSize : C → Int) (message : Envelope H C) : Int :=
  protoDelta (headerSize message.header) + repeatedSize childSize message.children + stringSize message.schemaUrl

section varints

theorem sov_pos (x : Int) : 1 ≤ sov x := by
  unfold sov
  omega

theorem sov_le_ten (x : Int) : sov x ≤ 10 := by
  have below : (x % 2 ^ 64).toNat ||| 1 < 2 ^ 64 := Nat.or_lt_two_pow (by omega) (by decide)
  have bits : ((x % 2 ^ 64).toNat ||| 1).log2 < 64 := (Nat.log2_lt (by simp)).mpr below
  unfold sov
  omega

theorem sov_le_iff {x : Int} (nonneg : 0 ≤ x) (word : x < 2 ^ 64) {bytes : Nat} (some : 1 ≤ bytes) :
    sov x ≤ bytes ↔ x < 2 ^ (7 * bytes) := by
  have value : (x % 2 ^ 64).toNat = x.toNat := by rw [Int.emod_eq_of_lt nonneg word]
  calc
    sov x ≤ bytes ↔ ((x.toNat ||| 1).log2 + 7) / 7 ≤ bytes := by
      unfold sov
      rw [value]
      omega
    _ ↔ x.toNat < 2 ^ (7 * bytes) := Lib.sevenBits_le_iff some
    _ ↔ x < 2 ^ (7 * bytes) := by
      rw [Int.toNat_lt nonneg]
      norm_cast

theorem sov_toNat (x : Int) : ((sov x).toNat : Int) = sov x ∧ 1 ≤ (sov x).toNat := by
  have := sov_pos x
  omega

variable {x y : Int}

theorem sov_mono (nonneg : 0 ≤ x) (le : x ≤ y) (word : y < 2 ^ 64) : sov x ≤ sov y := by
  obtain ⟨bytes, some⟩ := sov_toNat y
  rw [← bytes]
  apply (sov_le_iff nonneg (by omega) some).mpr
  exact lt_of_le_of_lt le ((sov_le_iff (by omega) word some).mp bytes.ge)

theorem sov_near (nonneg : 0 ≤ x) (first : x < 2 ^ 64) (near : y ≤ x + 10) (positive : 0 ≤ y)
    (second : y < 2 ^ 64) : sov y ≤ sov x + 1 := by
  obtain ⟨bytes, some⟩ := sov_toNat x
  have lower : x < 2 ^ (7 * (sov x).toNat) := (sov_le_iff nonneg first some).mp bytes.ge
  have upper : sov y ≤ ((sov x).toNat + 1 : Nat) := by
    apply (sov_le_iff positive second (by omega)).mpr
    have more : (2 : Int) ^ (7 * ((sov x).toNat + 1)) = 2 ^ (7 * (sov x).toNat) * 128 := by
      rw [Nat.mul_add, Int.pow_add]
      rfl
    rw [more]
    omega
  omega

theorem protoDelta_mono (nonneg : 0 ≤ x) (le : x ≤ y) (word : y < 2 ^ 64) : protoDelta x ≤ protoDelta y := by
  have := sov_mono nonneg le word
  unfold protoDelta
  omega

end varints

theorem protoDelta_pos {size : Int} (nonneg : 0 ≤ size) : 0 < protoDelta size := by
  have bytes : 0 ≤ sov size := Int.natCast_nonneg _
  unfold protoDelta
  omega

theorem repeatedSize_nonneg {size : C → Int} (nonneg : ∀ child, 0 ≤ size child) (children : List C) :
    0 ≤ repeatedSize size children := by
  apply List.sum_nonneg
  simp only [List.mem_map]
  rintro _ ⟨child, _, rfl⟩
  exact (protoDelta_pos (nonneg child)).le

theorem Envelope.sizeProto_nonneg {headerSize : H → Int} {childSize : C → Int}
    (headers : ∀ header, 0 ≤ headerSize header) (children : ∀ child, 0 ≤ childSize child)
    (message : Envelope H C) : 0 ≤ message.sizeProto headerSize childSize := by
  have header := protoDelta_pos (headers message.header)
  have repeated := repeatedSize_nonneg children message.children
  have url : 0 ≤ stringSize message.schemaUrl := by
    unfold stringSize
    split
    · exact (protoDelta_pos (Int.natCast_nonneg _)).le
    · exact le_refl 0
  unfold Envelope.sizeProto
  omega

end CollectorFormal.Batch
