import CollectorFormal.Lib.Wire
import Mathlib.Algebra.Order.Ring.Nat

/-! Reading the fields of a protobuf message, and skipping those that are not known. -/

namespace CollectorFormal.Proto

open Lib

inductive WireType where
  | varint
  | i64
  | len
  | startGroup
  | endGroup
  | i32
  | illegal (wireType : Int)
deriving DecidableEq

def WireType.ofNat : Nat → WireType
  | 0 => .varint
  | 1 => .i64
  | 2 => .len
  | 3 => .startGroup
  | 4 => .endGroup
  | 5 => .i32
  | wireType => .illegal wireType

inductive Error where
  /-- proto: negative length found during unmarshaling -/
  | invalidLength
  /-- proto: integer overflow -/
  | intOverflow
  /-- proto: unexpected end of group -/
  | unexpectedEndOfGroup
  /-- io.ErrUnexpectedEOF -/
  | unexpectedEOF
  /-- proto: illegal wireType %d -/
  | illegalWireType (wireType : Int)
  /-- proto: Link: illegal field=%d (tag=%d, pos=%d) -/
  | illegalField (fieldNum : Int) (tag pos : Nat)
  /-- The run-time error of an index or a slice that is out of range. -/
  | outOfRange
deriving DecidableEq

structure Buf where
  bytes : List UInt8
  short : bytes.length < 2 ^ 63

def toInt (number : Int) : Int := Int.bmod number (2 ^ 64)

def toInt32 (number : Nat) : Int := Int.bmod number (2 ^ 32)

section consume
variable (buf : Buf)

/-- The loop of ConsumeVarint, with the number of shifts that are left until one is 64 or more. -/
def consumeVarintLoop : Nat → Nat → Nat → Nat → Except Error (Nat × Nat)
  | 0, _, _, _ => .error .intOverflow
  | shifts + 1, shift, num, pos =>
    if pos ≥ buf.bytes.length then .error .unexpectedEOF
    else
      match buf.bytes[pos]? with
      | none => .error .outOfRange
      | some b =>
        let num := num ||| ((b.toNat &&& 0x7F) <<< shift) % 2 ^ 64
        if b < 0x80 then .ok (num, pos + 1) else consumeVarintLoop shifts (shift + 7) num (pos + 1)

variable (pos : Nat)

def consumeVarint : Except Error (Nat × Nat) := consumeVarintLoop buf 10 0 0 pos

/-- The position that many bytes on, unless it is past the end. -/
def advance (length : Int) : Except Error Nat :=
  let next := toInt (pos + length)
  if next < 0 ∨ next > buf.bytes.length then .error .unexpectedEOF else .ok next.toNat

/-- The number in that many bytes of the slice from there on, of which the last one is indexed first. -/
def uintAt (width start : Int) : Except Error Nat :=
  if start < 0 ∨ start > buf.bytes.length ∨ buf.bytes.length - start < width then .error .outOfRange
  else .ok (littleEndian ((buf.bytes.drop start.toNat).take width.toNat))

def consumeFixed (width : Int) (pos : Nat) : Except Error (Nat × Nat) :=
  match advance buf pos width with
  | .error err => .error err
  | .ok next => (uintAt buf width (toInt (next - width))).map fun value => (value, next)

def consumeI64 : Except Error (Nat × Nat) := consumeFixed buf 8 pos

def consumeI32 : Except Error (Nat × Nat) := consumeFixed buf 4 pos

def consumeLen : Except Error (Nat × Nat) :=
  match consumeVarint buf pos with
  | .error err => .error err
  | .ok (num, pos) =>
    let length := toInt num
    if length < 0 then .error .invalidLength
    else
      match advance buf pos length with
      | .error err => .error err
      | .ok next => .ok (length.toNat, next)

def consumeTag : Except Error (Int × WireType × Nat) :=
  match consumeVarint buf pos with
  | .error err => .error err
  | .ok (tag, pos) =>
    let fieldNum := toInt32 (tag >>> 3)
    let wireType := tag &&& 0x7
    if fieldNum ≤ 0 then .error (.illegalField fieldNum tag pos) else .ok (fieldNum, .ofNat wireType, pos)

theorem consumeVarintLoop_advances {shifts shift num pos value next : Nat}
    (consumed : consumeVarintLoop buf shifts shift num pos = .ok (value, next)) : pos < next := by
  induction shifts generalizing shift num pos with
  | zero => cases consumed
  | succ shifts ih =>
    rw [consumeVarintLoop] at consumed
    split at consumed
    · cases consumed
    · split at consumed
      · cases consumed
      · dsimp only at consumed
        split at consumed
        · cases consumed
          exact Nat.lt_succ_self pos
        · exact (Nat.lt_succ_self pos).trans (ih consumed)

theorem consumeTag_ok {pos next : Nat} {fieldNum : Int} {wireType : WireType}
    (consumed : consumeTag buf pos = .ok (fieldNum, wireType, next)) : ∃ tag, consumeVarint buf pos = .ok (tag, next) := by
  rw [consumeTag] at consumed
  split at consumed
  · cases consumed
  · next tag after read =>
      dsimp only at consumed
      split at consumed
      · cases consumed
      · rw [Except.ok.injEq, Prod.mk.injEq, Prod.mk.injEq] at consumed
        rw [← consumed.2.2]
        exact ⟨tag, read⟩

theorem consumeTag_advances {pos next : Nat} {fieldNum : Int} {wireType : WireType}
    (consumed : consumeTag buf pos = .ok (fieldNum, wireType, next)) : pos < next := by
  obtain ⟨tag, read⟩ := consumeTag_ok buf consumed
  exact consumeVarintLoop_advances buf read

def visit (wireType : WireType) (depth : Nat) : Except (Except Error Nat) Nat :=
  match wireType with
  | .varint => .error ((consumeVarint buf pos).map Prod.snd)
  | .i64 => .error ((consumeI64 buf pos).map Prod.snd)
  | .len => .error ((consumeLen buf pos).map Prod.snd)
  | .startGroup => .ok (depth + 1)
  | .endGroup => if depth = 0 then .error (.error .unexpectedEndOfGroup) else .ok (depth - 1)
  | .i32 => .error ((consumeI32 buf pos).map Prod.snd)
  | .illegal wireType => .error (.error (.illegalWireType wireType))

def consumeUnknownLoop (pos : Nat) (wireType : WireType) (depth : Nat) : Except Error Nat :=
  if pos < buf.bytes.length then
    match visit buf pos wireType depth with
    | .error returned => returned
    | .ok depth =>
      -- Only when parsing a group can be here.
      if depth = 0 then .ok pos
      else
        match _consumed : consumeTag buf pos with
        | .error err => .error err
        | .ok (_, wireType, next) => consumeUnknownLoop next wireType depth
  else .error .unexpectedEOF
termination_by buf.bytes.length - pos
decreasing_by
  have := consumeTag_advances buf _consumed
  omega

def consumeUnknown (wireType : WireType) : Except Error Nat := consumeUnknownLoop buf pos wireType 0

def resume (depth pos : Nat) : Except Error Nat :=
  if depth = 0 then .ok pos
  else
    match consumeTag buf pos with
    | .error err => .error err
    | .ok (_, wireType, next) => consumeUnknownLoop buf next wireType depth

theorem consumeUnknownLoop_eq {pos : Nat} (wireType : WireType) (depth : Nat) (more : pos < buf.bytes.length) :
    consumeUnknownLoop buf pos wireType depth =
      match visit buf pos wireType depth with
      | .error returned => returned
      | .ok depth => resume buf depth pos := by
  rw [consumeUnknownLoop, if_pos more]
  cases visit buf pos wireType depth with
  | error returned => rfl
  | ok depth =>
    dsimp only
    rw [resume]
    split
    · rfl
    · split <;> rename_i read <;> rw [read]

theorem consumeUnknownLoop_end (wireType : WireType) (depth : Nat) :
    consumeUnknownLoop buf buf.bytes.length wireType depth = .error .unexpectedEOF := by
  rw [consumeUnknownLoop, if_neg (Nat.lt_irrefl _)]

end consume

end CollectorFormal.Proto
