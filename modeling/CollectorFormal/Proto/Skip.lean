import CollectorFormal.Proto.Unmarshal

/-! Which of the well-formed fields ConsumeUnknown skips. -/

namespace CollectorFormal.Proto

open Lib List

def isVarint : List UInt8 → Bool
  | [] => false
  | b :: rest => if b < 0x80 then rest.isEmpty else isVarint rest

/-- A varint of 64 bits, which need not be the shortest for its value. -/
structure Varint where
  bytes : List UInt8
  ends : isVarint bytes = true
  short : bytes.length ≤ 10
  fits : (readVarint bytes).1 < 2 ^ 64

def Varint.value (varint : Varint) : Nat := (readVarint varint.bytes).1

def WireType.toNat : WireType → Nat
  | .varint => 0
  | .i64 => 1
  | .len => 2
  | .startGroup => 3
  | .endGroup => 4
  | .i32 => 5
  | .illegal wireType => wireType.toNat

structure Tag (number : Nat) (wireType : WireType) extends Varint where
  tags : toVarint.value = number * 8 + wireType.toNat
  positive : 0 < number
  small : number < 2 ^ 29

mutual

/-- What follows the tag of a well-formed field with that number and wire type. -/
inductive Field : Nat → WireType → Type where
  | varint {number : Nat} (value : Varint) : Field number .varint
  | i64 {number : Nat} (bytes : List UInt8) (eight : bytes.length = 8) : Field number .i64
  | len {number : Nat} (length : Varint) (bytes : List UInt8) (exact : length.value = bytes.length) : Field number .len
  | group {number : Nat} (fields : Fields) (endTag : Tag number .endGroup) : Field number .startGroup
  | i32 {number : Nat} (bytes : List UInt8) (four : bytes.length = 4) : Field number .i32

inductive Fields : Type where
  | nil
  | cons {number : Nat} {wireType : WireType} (tag : Tag number wireType) (field : Field number wireType) (rest : Fields)

end

mutual

def Field.bytes {number : Nat} {wireType : WireType} : Field number wireType → List UInt8
  | .varint value => value.bytes
  | .i64 bytes _ => bytes
  | .len length bytes _ => length.bytes ++ bytes
  | .group fields endTag => fields.bytes ++ endTag.bytes
  | .i32 bytes _ => bytes

def Fields.bytes : Fields → List UInt8
  | .nil => []
  | .cons tag field rest => tag.bytes ++ (field.bytes ++ rest.bytes)

end

mutual

def Field.bare {number : Nat} {wireType : WireType} : Field number wireType → Bool
  | .group fields _ => fields.bare
  | _ => false

def Fields.bare : Fields → Bool
  | .nil => true
  | .cons _ field rest => field.bare && rest.bare

end

section reading
variable {buf : Buf} {pos : Nat} {bytes bytes' : List UInt8}

def At (buf : Buf) (pos : Nat) (bytes : List UInt8) : Prop := ∃ rest, buf.bytes.drop pos = bytes ++ rest

theorem at_append : At buf pos (bytes ++ bytes') ↔ At buf pos bytes ∧ At buf (pos + bytes.length) bytes' := by
  constructor
  · rintro ⟨rest, whole⟩
    refine ⟨⟨bytes' ++ rest, by rw [whole, append_assoc]⟩, rest, ?_⟩
    rw [← drop_drop, whole, append_assoc, drop_left]
  · rintro ⟨⟨rest, first⟩, rest', second⟩
    rw [← drop_drop, first, drop_left] at second
    exact ⟨rest', by rw [first, second, append_assoc]⟩

theorem At.le_length (stands : At buf pos bytes) (more : bytes ≠ []) : pos + bytes.length ≤ buf.bytes.length := by
  obtain ⟨rest, whole⟩ := stands
  have lengths := congrArg List.length whole
  have positive := length_pos_iff.mpr more
  rw [length_drop, length_append] at lengths
  omega

theorem At.head {b : UInt8} (stands : At buf pos (b :: bytes)) : buf.bytes[pos]? = some b ∧ At buf (pos + 1) bytes := by
  obtain ⟨rest, whole⟩ := stands
  constructor
  · rw [← head?_drop, whole]
    rfl
  · refine ⟨rest, ?_⟩
    rw [← drop_drop, whole]
    rfl

theorem or_shifted {num low shift : Nat} (below : num < 2 ^ shift) (word : shift ≤ 64) :
    num ||| (low <<< shift) % 2 ^ 64 = (num + low * 2 ^ shift) % 2 ^ 64 := by
  have whole : 2 ^ 64 = 2 ^ (64 - shift) * 2 ^ shift := by rw [← Nat.pow_add, Nat.sub_add_cancel word]
  have bits : low * 2 ^ shift % 2 ^ 64 = 2 ^ shift * (low % 2 ^ (64 - shift)) := by
    rw [whole, Nat.mul_mod_mul_right, Nat.mul_comm]
  have fits : num + 2 ^ shift * (low % 2 ^ (64 - shift)) < 2 ^ 64 :=
    calc
      num + 2 ^ shift * (low % 2 ^ (64 - shift)) < 2 ^ shift * (low % 2 ^ (64 - shift) + 1) := by
        rw [Nat.mul_succ]
        omega
      _ ≤ 2 ^ shift * 2 ^ (64 - shift) := Nat.mul_le_mul_left _ (Nat.mod_lt _ (Nat.two_pow_pos _))
      _ = 2 ^ 64 := by rw [whole, Nat.mul_comm]
  rw [Nat.shiftLeft_eq, ← Nat.add_mod_mod, bits, Nat.mod_eq_of_lt fits, Nat.or_comm, ← Nat.two_pow_add_eq_or_of_lt below]
  exact Nat.add_comm _ _

theorem consumeVarintLoop_at {shifts shift num : Nat} (stands : At buf pos bytes) (ends : isVarint bytes = true)
    (enough : bytes.length ≤ shifts) (below : num < 2 ^ shift) (word : shift + 7 * shifts ≤ 70) :
    consumeVarintLoop buf shifts shift num pos =
      .ok ((num + (readVarint bytes).1 * 2 ^ shift) % 2 ^ 64, pos + bytes.length) := by
  induction bytes generalizing pos shifts shift num with
  | nil => cases ends
  | cons b rest ih =>
    obtain ⟨byte, after⟩ := stands.head
    cases shifts with
    | zero => cases enough
    | succ shifts =>
      have seven : b.toNat &&& 0x7F = b.toNat % 128 := Nat.and_two_pow_sub_one_eq_mod b.toNat 7
      rw [consumeVarintLoop, if_neg (Nat.not_le.mpr (List.getElem?_eq_some_iff.mp byte).1), byte]
      dsimp only
      rw [seven, or_shifted below (by omega)]
      rw [isVarint] at ends
      rw [readVarint]
      by_cases last : b < 0x80
      · have small : b.toNat < 128 := last
        rw [if_pos last] at ends ⊢
        rw [if_pos small, Nat.mod_eq_of_lt small, isEmpty_iff.mp ends]
        rfl
      · have large : ¬b.toNat < 128 := last
        have bits : b.toNat - 128 = b.toNat % 128 := by
          have := b.toNat_lt
          omega
        rw [if_neg last] at ends ⊢
        rw [if_neg large, bits]
        have next : (num + b.toNat % 128 * 2 ^ shift) % 2 ^ 64 < 2 ^ (shift + 7) :=
          calc
            (num + b.toNat % 128 * 2 ^ shift) % 2 ^ 64 ≤ num + b.toNat % 128 * 2 ^ shift := Nat.mod_le _ _
            _ < (b.toNat % 128 + 1) * 2 ^ shift := by
              rw [Nat.succ_mul]
              omega
            _ ≤ 2 ^ 7 * 2 ^ shift := Nat.mul_le_mul_right _ (Nat.mod_lt _ (by decide))
            _ = 2 ^ (shift + 7) := by rw [Nat.pow_add, Nat.mul_comm]
        have split : num + (b.toNat % 128 + 128 * (readVarint rest).1) * 2 ^ shift =
            num + b.toNat % 128 * 2 ^ shift + (readVarint rest).1 * 2 ^ (shift + 7) := by
          rw [Nat.add_mul, Nat.pow_add, Nat.mul_comm 128, Nat.mul_assoc, Nat.mul_comm 128, Nat.add_assoc]
        rw [ih after ends (Nat.le_of_succ_le_succ enough) next (by omega), Nat.mod_add_mod, split, length_cons,
          Nat.add_assoc pos, Nat.add_comm 1]

theorem consumeVarint_of_at (stands : At buf pos bytes) (ends : isVarint bytes = true) (short : bytes.length ≤ 10) :
    consumeVarint buf pos = .ok ((readVarint bytes).1 % 2 ^ 64, pos + bytes.length) := by
  have read := @consumeVarintLoop_at buf pos bytes 10 0 0 stands ends short (by decide) (by decide)
  rw [Nat.pow_zero, Nat.mul_one, Nat.zero_add] at read
  exact read

theorem consumeVarint_at (varint : Varint) (stands : At buf pos varint.bytes) :
    consumeVarint buf pos = .ok (varint.value, pos + varint.bytes.length) := by
  rw [consumeVarint_of_at stands varint.ends varint.short, Nat.mod_eq_of_lt varint.fits]
  rfl

theorem Varint.bytes_ne (varint : Varint) : varint.bytes ≠ [] := by
  intro empty
  have ends := varint.ends
  rw [empty] at ends
  cases ends

theorem bmod_small {number base : Nat} (small : 2 * number < base) : Int.bmod number base = number :=
  Int.bmod_eq_of_le (by omega) (by omega)

theorem consumeTag_eq {tag next : Nat} (read : consumeVarint buf pos = .ok (tag, next)) :
    consumeTag buf pos = if toInt32 (tag / 8) ≤ 0 then .error (.illegalField (toInt32 (tag / 8)) tag next)
      else .ok (toInt32 (tag / 8), .ofNat (tag % 8), next) := by
  have high : tag >>> 3 = tag / 8 := Nat.shiftRight_eq_div_pow tag 3
  have low : tag &&& 0x7 = tag % 8 := Nat.and_two_pow_sub_one_eq_mod tag 3
  rw [consumeTag, read]
  dsimp only
  rw [high, low]

theorem consumeTag_at {number : Nat} {wireType : WireType} (tag : Tag number wireType) (stands : At buf pos tag.bytes)
    (small : wireType.toNat < 8) (legal : WireType.ofNat wireType.toNat = wireType) :
    consumeTag buf pos = .ok (number, wireType, pos + tag.bytes.length) := by
  have tagged := tag.tags
  have high : tag.value / 8 = number := by omega
  have low : tag.value % 8 = wireType.toNat := by omega
  have field : toInt32 number = number := by
    have below := tag.small
    exact bmod_small (by omega)
  have positive := tag.positive
  rw [consumeTag_eq (consumeVarint_at tag.toVarint stands), high, low, field, legal, if_neg (by omega)]

theorem consumeLen_eq {num after : Nat} {length : Int} (read : consumeVarint buf pos = .ok (num, after))
    (same : toInt num = length) :
    consumeLen buf pos = if length < 0 then .error .invalidLength
      else match advance buf after length with
        | .error err => .error err
        | .ok next => .ok (length.toNat, next) := by
  rw [consumeLen, read]
  dsimp only
  generalize toInt num = wrapped at same
  subst same
  cases advance buf after wrapped <;> rfl

theorem advance_eq {jump : Int} {length : Nat} (inside : pos + length ≤ buf.bytes.length) (same : jump = length) :
    advance buf pos jump = .ok (pos + length) := by
  have short := buf.short
  have sum : toInt (pos + jump) = (pos + length : Nat) := by
    rw [same, ← Int.natCast_add]
    exact bmod_small (by omega)
  rw [advance, sum, if_neg (by omega), Int.toNat_natCast]

theorem consumeFixed_eq {jump : Int} {width : Nat} (inside : pos + width ≤ buf.bytes.length) (same : jump = width) :
    consumeFixed buf jump pos = .ok (littleEndian ((buf.bytes.drop pos).take width), pos + width) := by
  have short := buf.short
  have start : toInt ((pos + width : Nat) - jump) = pos := by
    rw [same, Int.natCast_add, Int.add_sub_cancel]
    exact bmod_small (by omega)
  rw [consumeFixed, advance_eq inside same]
  dsimp only
  rw [start, uintAt, if_neg (by omega), Int.toNat_natCast, same, Int.toNat_natCast]
  rfl

variable {number depth : Nat} {wireType : WireType}

theorem loop_scalar (field : Field number wireType) (stands : At buf pos field.bytes) (scalar : wireType ≠ .startGroup) :
    consumeUnknownLoop buf pos wireType depth = .ok (pos + field.bytes.length) := by
  cases field with
  | varint value =>
    rw [Field.bytes] at stands ⊢
    have inside := stands.le_length value.bytes_ne
    have some := length_pos_iff.mpr value.bytes_ne
    rw [consumeUnknownLoop_eq buf _ _ (by omega), visit, consumeVarint_at value stands]
    rfl
  | i64 bytes eight =>
    rw [Field.bytes] at stands ⊢
    have inside := stands.le_length (ne_nil_of_length_pos (by omega))
    rw [eight] at inside ⊢
    rw [consumeUnknownLoop_eq buf _ _ (by omega), visit, consumeI64, @consumeFixed_eq buf pos 8 8 inside rfl]
    rfl
  | len length bytes exact =>
    rw [Field.bytes] at stands ⊢
    obtain ⟨first, second⟩ := at_append.mp stands
    have inside := stands.le_length (by simp [length.bytes_ne])
    have some := length_pos_iff.mpr length.bytes_ne
    have short := buf.short
    rw [length_append, ← Nat.add_assoc] at inside ⊢
    have same : toInt length.value = bytes.length := by
      rw [exact]
      exact bmod_small (by omega)
    rw [consumeUnknownLoop_eq buf _ _ (by omega), visit, consumeLen_eq (consumeVarint_at length first) same,
      if_neg (by omega), advance_eq inside rfl]
    rfl
  | i32 bytes four =>
    rw [Field.bytes] at stands ⊢
    have inside := stands.le_length (ne_nil_of_length_pos (by omega))
    rw [four] at inside ⊢
    rw [consumeUnknownLoop_eq buf _ _ (by omega), visit, consumeI32, @consumeFixed_eq buf pos 4 4 inside rfl]
    rfl
  | group fields endTag => exact absurd rfl scalar

theorem Field.bytes_ne (field : Field number wireType) : field.bytes ≠ [] := by
  cases field with
  | varint value => exact value.bytes_ne
  | i64 | i32 => exact ne_nil_of_length_pos (by rw [Field.bytes]; omega)
  | len length | group _ length => simp [Field.bytes, length.bytes_ne]

theorem Field.legal (field : Field number wireType) : wireType.toNat < 8 ∧ WireType.ofNat wireType.toNat = wireType := by
  cases field <;> decide

theorem resume_tag (tag : Tag number wireType) (stands : At buf pos tag.bytes) (small : wireType.toNat < 8)
    (legal : WireType.ofNat wireType.toNat = wireType) :
    resume buf (depth + 1) pos = consumeUnknownLoop buf (pos + tag.bytes.length) wireType (depth + 1) := by
  rw [resume, if_neg (Nat.succ_ne_zero depth), consumeTag_at tag stands small legal]

theorem loop_startGroup (more : pos < buf.bytes.length) :
    consumeUnknownLoop buf pos .startGroup depth = resume buf (depth + 1) pos := by
  rw [consumeUnknownLoop_eq buf _ _ more, visit]

theorem loop_endGroup (more : pos < buf.bytes.length) :
    consumeUnknownLoop buf pos .endGroup (depth + 1) = resume buf depth pos := by
  rw [consumeUnknownLoop_eq buf _ _ more, visit, if_neg (Nat.succ_ne_zero depth), Nat.add_sub_cancel]

theorem resume_endTag (endTag : Tag number .endGroup) (stands : At buf pos endTag.bytes) :
    resume buf (depth + 1) pos = consumeUnknownLoop buf (pos + endTag.bytes.length) .endGroup (depth + 1) :=
  resume_tag endTag stands (by decide) rfl

mutual

theorem Field.skipped {number depth pos : Nat} {wireType : WireType} :
    (field : Field number wireType) → field.bare = true → At buf pos field.bytes →
    pos + field.bytes.length < buf.bytes.length →
    consumeUnknownLoop buf pos wireType depth = resume buf depth (pos + field.bytes.length)
  | .group fields endTag, bare, stands, more => by
      rw [Field.bytes] at stands more ⊢
      rw [length_append, ← Nat.add_assoc] at more ⊢
      obtain ⟨first, last⟩ := at_append.mp stands
      rw [loop_startGroup (by omega), Fields.skipped fields bare first (by omega), resume_endTag endTag last,
        loop_endGroup more]

theorem Fields.skipped {depth pos : Nat} :
    (fields : Fields) → fields.bare = true → At buf pos fields.bytes → pos + fields.bytes.length < buf.bytes.length →
    resume buf (depth + 1) pos = resume buf (depth + 1) (pos + fields.bytes.length)
  | .nil, _, _, _ => rfl
  | .cons tag field rest, bare, stands, more => by
      rw [Fields.bare, Bool.and_eq_true] at bare
      rw [Fields.bytes] at stands more ⊢
      rw [length_append, length_append, ← Nat.add_assoc, ← Nat.add_assoc] at more ⊢
      obtain ⟨first, others⟩ := at_append.mp stands
      obtain ⟨second, third⟩ := at_append.mp others
      rw [resume_tag tag first field.legal.1 field.legal.2, Field.skipped field bare.1 second (by omega),
        Fields.skipped rest bare.2 third (by omega)]

end

mutual

theorem Field.stopped {number depth pos : Nat} {wireType : WireType} :
    (field : Field number wireType) → field.bare = false → At buf pos field.bytes →
    ∃ next, consumeUnknownLoop buf pos wireType depth = .ok next ∧ next ≤ pos + field.bytes.length ∧
      (wireType = .startGroup → next < pos + field.bytes.length)
  | .varint value, _, stands => ⟨_, loop_scalar (.varint value) stands nofun, Nat.le_refl _, nofun⟩
  | .i64 bytes eight, _, stands => ⟨_, loop_scalar (.i64 bytes eight) stands nofun, Nat.le_refl _, nofun⟩
  | .len length bytes exact, _, stands => ⟨_, loop_scalar (.len length bytes exact) stands nofun, Nat.le_refl _, nofun⟩
  | .group fields endTag, other, stands => by
      have inside := stands.le_length (Field.group fields endTag).bytes_ne
      rw [Field.bytes] at stands inside ⊢
      rw [length_append] at inside ⊢
      obtain ⟨first, last⟩ := at_append.mp stands
      have tagged := length_pos_iff.mpr endTag.bytes_ne
      obtain ⟨next, stops, within⟩ := @Fields.stopped depth pos fields other first
      rw [loop_startGroup (by omega)]
      exact ⟨next, stops, by omega, fun _ => by omega⟩
  | .i32 bytes four, _, stands => ⟨_, loop_scalar (.i32 bytes four) stands nofun, Nat.le_refl _, nofun⟩

theorem Fields.stopped {depth pos : Nat} :
    (fields : Fields) → fields.bare = false → At buf pos fields.bytes →
    ∃ next, resume buf (depth + 1) pos = .ok next ∧ next ≤ pos + fields.bytes.length
  | .nil, other, _ => nomatch other
  | .cons tag field rest, other, stands => by
      have whole := stands.le_length (by simp [Fields.bytes, tag.bytes_ne])
      rw [Fields.bytes] at stands whole ⊢
      rw [length_append, length_append] at whole ⊢
      obtain ⟨first, others⟩ := at_append.mp stands
      obtain ⟨second, third⟩ := at_append.mp others
      rw [resume_tag tag first field.legal.1 field.legal.2]
      cases bare : field.bare with
      | false =>
        obtain ⟨next, stops, within, _⟩ := @Field.stopped _ (depth + 1) _ _ field bare second
        exact ⟨next, stops, by omega⟩
      | true =>
        rw [Fields.bare, bare, Bool.true_and] at other
        -- Something follows: the fields that are left are not bare, so there are some.
        have more : 0 < rest.bytes.length := by
          cases rest with
          | nil => cases other
          | cons tag' field' rest' =>
            apply length_pos_iff.mpr
            simp [Fields.bytes, tag'.bytes_ne]
        obtain ⟨next, stops, within⟩ := @Fields.stopped depth _ rest other third
        rw [Field.skipped field bare second (by omega)]
        exact ⟨next, stops, by omega⟩

end

theorem loop_group_last (fields : Fields) (endTag : Tag number .endGroup) (bare : fields.bare = true)
    (stands : At buf pos (fields.bytes ++ endTag.bytes))
    (last : pos + (fields.bytes ++ endTag.bytes).length = buf.bytes.length) :
    consumeUnknownLoop buf pos .startGroup depth = .error .unexpectedEOF := by
  rw [length_append, ← Nat.add_assoc] at last
  obtain ⟨first, tag⟩ := at_append.mp stands
  have tagged := length_pos_iff.mpr endTag.bytes_ne
  rw [loop_startGroup (by omega), fields.skipped bare first (by omega), resume_endTag endTag tag, last,
    consumeUnknownLoop_end]

end reading

/-- ConsumeUnknown skips exactly the fields that are no groups, and the groups of nothing but groups that are followed
by something. -/
theorem consumeUnknown_skips_iff {number : Nat} {wireType : WireType} (field : Field number wireType) (buf : Buf)
    (front rest : List UInt8) (whole : buf.bytes = front ++ (field.bytes ++ rest)) :
    consumeUnknown buf front.length wireType = .ok (front.length + field.bytes.length) ↔
      (wireType = .startGroup → field.bare = true ∧ rest ≠ []) := by
  have stands : At buf front.length field.bytes := ⟨rest, by rw [whole, drop_left]⟩
  have length : buf.bytes.length = front.length + field.bytes.length + rest.length := by
    rw [whole, length_append, length_append, Nat.add_assoc]
  rw [consumeUnknown]
  by_cases group : wireType = .startGroup
  · subst group
    rw [imp_iff_right rfl]
    cases bare : field.bare with
    | false =>
      obtain ⟨next, stops, _, early⟩ := @Field.stopped buf _ 0 _ _ field bare stands
      rw [stops, Except.ok.injEq]
      exact ⟨fun same => absurd same (Nat.ne_of_lt (early rfl)), fun both => nomatch both.1⟩
    | true =>
      rw [and_iff_right rfl]
      by_cases last : rest = []
      · rw [last, length_nil, Nat.add_zero] at length
        cases field with
        | group fields endTag =>
          rw [Field.bytes] at stands length
          rw [loop_group_last fields endTag bare stands length.symm]
          exact ⟨nofun, fun more => absurd last more⟩
      · have more := length_pos_iff.mpr last
        rw [field.skipped bare stands (by omega), resume, if_pos rfl]
        exact ⟨fun _ => last, fun _ => rfl⟩
  · rw [loop_scalar field stands group]
    exact ⟨fun _ same => absurd same group, fun _ => rfl⟩

def smallVarint (value : UInt8) (small : value < 0x80) : Varint where
  bytes := [value]
  ends := by simp [isVarint, small]
  short := by simp
  fits := by
    have : value.toNat < 128 := small
    simp [readVarint, this]
    omega

def nestedField : Field 1 .startGroup :=
  .group
    (@Fields.cons 2 .startGroup ⟨smallVarint 0x13 (by decide), rfl, by decide, by decide⟩
      (.group .nil ⟨smallVarint 0x14 (by decide), rfl, by decide, by decide⟩) .nil)
    ⟨smallVarint 0x0c (by decide), rfl, by decide, by decide⟩

theorem consumeUnknown_skips_nested :
    consumeUnknown ⟨[0x0b, 0x13, 0x14, 0x0c, 0x10, 0x01], by decide⟩ 1 .startGroup = .ok 4 :=
  (consumeUnknown_skips_iff nestedField _ [0x0b] [0x10, 0x01] rfl).mpr fun _ => ⟨rfl, nofun⟩

def varintTag : Tag 2 .varint := ⟨smallVarint 0x10 (by decide), rfl, by decide, by decide⟩

def varintField : Field 2 .varint := .varint (smallVarint 0x05 (by decide))

def varintInGroup : Field 1 .startGroup :=
  .group (.cons varintTag varintField .nil) ⟨smallVarint 0x0c (by decide), rfl, by decide, by decide⟩

def varintInGroupBuf : Buf := ⟨0x0b :: (varintInGroup.bytes ++ [0x18, 0x01]), by decide⟩

/-- The group's end is at 4, and what is returned is the end of the varint in it. -/
theorem consumeUnknown_stops_in_group :
    consumeUnknown varintInGroupBuf 1 .startGroup = .ok 3 ∧ 1 + varintInGroup.bytes.length = 4 := by
  refine ⟨?_, rfl⟩
  rw [consumeUnknown, loop_startGroup (by decide), resume_tag varintTag ⟨[0x05, 0x0c, 0x18, 0x01], rfl⟩ (by decide) rfl]
  exact loop_scalar varintField ⟨[0x0c, 0x18, 0x01], rfl⟩ nofun

end CollectorFormal.Proto
