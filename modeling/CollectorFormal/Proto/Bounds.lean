import CollectorFormal.Proto.Skip

/-! The readers index the buffer only within its bounds, and move on. -/

namespace CollectorFormal.Proto

open Lib List

/-- No index is out of range, and a success is at that position or further on in the buffer. -/
def Advances {α : Type} (buf : Buf) (least : Nat) (position : α → Nat) (outcome : Except Error α) : Prop :=
  outcome ≠ .error .outOfRange ∧
    ∀ result, outcome = .ok result → least ≤ position result ∧ position result ≤ buf.bytes.length

/-- What is expected of the readers at a position. -/
structure Sound (buf : Buf) (pos : Nat) (wireType : WireType) : Prop where
  varint : Advances buf (pos + 1) Prod.snd (consumeVarint buf pos)
  tag : Advances buf (pos + 1) (fun result => result.2.2) (consumeTag buf pos)
  i32 : Advances buf (pos + 1) Prod.snd (consumeI32 buf pos)
  i64 : Advances buf (pos + 1) Prod.snd (consumeI64 buf pos)
  len : Advances buf (pos + 1) Prod.snd (consumeLen buf pos)
  unknown : Advances buf pos id (consumeUnknown buf pos wireType)
  length : ∀ length next, consumeLen buf pos = .ok (length, next) →
    ∃ num after, consumeVarint buf pos = .ok (num, after) ∧ after + length = next
  tagged : ∀ fieldNum wireType next, consumeTag buf pos = .ok (fieldNum, wireType, next) →
    ∃ tag, consumeVarint buf pos = .ok (tag, next) ∧ (tag : Int) = 8 * fieldNum + wireType.toNat ∧ 0 < fieldNum

/-- A varint stands at the position that has more bits than a tag, and whose 32 bits above the wire type are a positive
number. -/
def WideTag (buf : Buf) (pos : Nat) : Prop :=
  ∃ bytes, At buf pos bytes ∧ isVarint bytes = true ∧ bytes.length ≤ 10 ∧
    2 ^ 35 ≤ (readVarint bytes).1 % 2 ^ 64 ∧ 0 < (readVarint bytes).1 / 8 % 2 ^ 32 ∧ (readVarint bytes).1 / 8 % 2 ^ 32 < 2 ^ 31

section bounds
variable {α : Type} {buf : Buf} {pos next : Nat} {least : Nat}

variable {position : α → Nat}

theorem advances_error {err : Error} (other : err ≠ .outOfRange) : Advances buf least position (.error err) :=
  ⟨fun same => other (Except.error.inj same), nofun⟩

theorem advances_ok {result : α} (further : least ≤ position result)
    (inside : position result ≤ buf.bytes.length) : Advances buf least position (.ok result) := by
  refine ⟨nofun, ?_⟩
  rintro _ ⟨⟩
  exact ⟨further, inside⟩

theorem Advances.ne {outcome : Except Error α} {err : Error}
    (advances : Advances buf least position outcome) (same : outcome = .error err) : err ≠ .outOfRange := by
  rintro rfl
  exact advances.1 same

theorem At.cons {b : UInt8} {bytes : List UInt8} (byte : buf.bytes[pos]? = some b) (stands : At buf (pos + 1) bytes) :
    At buf pos (b :: bytes) := by
  obtain ⟨rest, whole⟩ := stands
  obtain ⟨inside, same⟩ := List.getElem?_eq_some_iff.mp byte
  refine ⟨rest, ?_⟩
  rw [List.drop_eq_getElem_cons inside, same, whole]
  rfl

/-- What the loop reads is a varint that stands there, so its value is known. -/
theorem consumeVarintLoop_cases (shifts shift num pos : Nat) :
    consumeVarintLoop buf shifts shift num pos = .error .intOverflow ∨
      consumeVarintLoop buf shifts shift num pos = .error .unexpectedEOF ∨
      ∃ bytes, At buf pos bytes ∧ isVarint bytes = true ∧ bytes.length ≤ shifts := by
  induction shifts generalizing shift num pos with
  | zero => exact .inl rfl
  | succ shifts ih =>
    rw [consumeVarintLoop]
    by_cases last : pos ≥ buf.bytes.length
    · rw [if_pos last]
      exact .inr (.inl rfl)
    · have byte := getElem?_eq_getElem (Nat.not_le.mp last)
      rw [if_neg last, byte]
      dsimp only
      split
      · next small =>
        exact .inr (.inr ⟨[_], .cons byte ⟨_, rfl⟩, by simp [isVarint, small], Nat.succ_le_succ (Nat.zero_le _)⟩)
      · next large =>
        refine (ih _ _ _).imp_right (Or.imp_right ?_)
        rintro ⟨bytes, stands, ends, short⟩
        exact ⟨_ :: bytes, .cons byte stands, by rw [isVarint, if_neg large, ends], Nat.succ_le_succ short⟩

theorem consumeVarint_cases (buf : Buf) (pos : Nat) :
    consumeVarint buf pos = .error .intOverflow ∨ consumeVarint buf pos = .error .unexpectedEOF ∨
      ∃ bytes, At buf pos bytes ∧ isVarint bytes = true ∧ bytes.length ≤ 10 ∧
        consumeVarint buf pos = .ok ((readVarint bytes).1 % 2 ^ 64, pos + bytes.length) := by
  refine (consumeVarintLoop_cases 10 0 0 pos).imp_right (Or.imp_right ?_)
  rintro ⟨bytes, stands, ends, short⟩
  exact ⟨bytes, stands, ends, short, consumeVarint_of_at stands ends short⟩

theorem consumeVarint_advances (buf : Buf) (pos : Nat) : Advances buf (pos + 1) Prod.snd (consumeVarint buf pos) := by
  rcases consumeVarint_cases buf pos with same | same | ⟨bytes, stands, ends, _, same⟩
  · exact same ▸ advances_error nofun
  · exact same ▸ advances_error nofun
  · have some : bytes ≠ [] := by
      rintro rfl
      cases ends
    have positive := length_pos_iff.mpr some
    rw [same]
    exact advances_ok (by dsimp only; omega) (stands.le_length some)

/-- A position that wraps around is refused: those that are left are the sum itself. -/
theorem advance_cases {length : Int} (inside : pos ≤ buf.bytes.length) (nonneg : 0 ≤ length) (word : length < 2 ^ 63) :
    advance buf pos length = .error .unexpectedEOF ∨
      ∃ next, advance buf pos length = .ok next ∧ (next : Int) = pos + length ∧ next ≤ buf.bytes.length := by
  have short := buf.short
  rw [advance]
  split
  · exact .inl rfl
  · next within =>
    have sum : toInt (pos + length) = pos + length := by
      by_contra wrapped
      rw [toInt, Int.bmod_def] at within wrapped
      omega
    exact .inr ⟨_, rfl, by omega, by omega⟩

theorem consumeFixed_advances (width : Int) (inside : pos ≤ buf.bytes.length) (some : 0 < width) (word : width < 2 ^ 63) :
    Advances buf (pos + 1) Prod.snd (consumeFixed buf width pos) := by
  rcases advance_cases inside some.le word with moved | ⟨next, _, sum, within⟩
  · rw [consumeFixed, moved]
    exact advances_error Error.noConfusion
  · rw [@consumeFixed_eq buf pos width width.toNat (by omega) (by omega)]
    exact advances_ok (by dsimp only; omega) (by dsimp only; omega)

/-- The length is the distance from the end of its own varint. -/
theorem consumeLen_cases (buf : Buf) (pos : Nat) :
    (∃ err, consumeLen buf pos = .error err ∧ err ≠ .outOfRange) ∨
      ∃ num after length, consumeVarint buf pos = .ok (num, after) ∧ consumeLen buf pos = .ok (length, after + length) ∧
        pos < after ∧ after + length ≤ buf.bytes.length := by
  cases read : consumeVarint buf pos with
  | error err => exact .inl ⟨err, by rw [consumeLen, read], (consumeVarint_advances buf pos).ne read⟩
  | ok result =>
    obtain ⟨num, after⟩ := result
    obtain ⟨further, within⟩ := (consumeVarint_advances buf pos).2 _ read
    obtain ⟨length, same, word⟩ : ∃ length, toInt num = length ∧ length < 2 ^ 63 := by
      refine ⟨_, rfl, ?_⟩
      rw [toInt, Int.bmod_def]
      omega
    rw [consumeLen_eq read same]
    by_cases negative : length < 0
    · exact .inl ⟨.invalidLength, if_pos negative, Error.noConfusion⟩
    · rw [if_neg negative]
      rcases advance_cases within (not_lt.mp negative) word with moved | ⟨next, moved, sum, inside⟩
      · exact .inl ⟨.unexpectedEOF, by rw [moved], Error.noConfusion⟩
      · have same : next = after + length.toNat := by omega
        refine .inr ⟨num, after, length.toNat, rfl, ?_, further, same ▸ inside⟩
        rw [moved, ← same]

theorem consumeLen_advances (buf : Buf) (pos : Nat) : Advances buf (pos + 1) Prod.snd (consumeLen buf pos) := by
  rcases consumeLen_cases buf pos with ⟨err, same, other⟩ | ⟨num, after, length, _, same, further, within⟩
  · exact same ▸ advances_error other
  · rw [same]
    exact advances_ok (by dsimp only; omega) within

theorem toNat_ofNat {tag : Nat} (small : tag < 8) : (WireType.ofNat tag).toNat = tag := by
  have all : ∀ tag < 8, (WireType.ofNat tag).toNat = tag := by decide
  exact all tag small

theorem toInt32_eq (number : Nat) : 0 < toInt32 number ∧ toInt32 number = (number % 2 ^ 32 : Nat) ∧ number % 2 ^ 32 < 2 ^ 31 ∨
    toInt32 number ≤ 0 ∧ ¬(0 < number % 2 ^ 32 ∧ number % 2 ^ 32 < 2 ^ 31) := by
  have bits : toInt32 number = if (number : Int) % 2 ^ 32 < (2 ^ 32 + 1) / 2 then (number : Int) % 2 ^ 32 else
      (number : Int) % 2 ^ 32 - 2 ^ 32 := Int.bmod_def number (2 ^ 32)
  split at bits <;> omega

theorem consumeTag_advances_inside (buf : Buf) (pos : Nat) :
    Advances buf (pos + 1) (fun result => result.2.2) (consumeTag buf pos) := by
  cases read : consumeVarint buf pos with
  | error err =>
    rw [consumeTag, read]
    exact advances_error ((consumeVarint_advances buf pos).ne read)
  | ok result =>
    obtain ⟨further, within⟩ := (consumeVarint_advances buf pos).2 _ read
    rw [consumeTag_eq read]
    split
    · exact advances_error Error.noConfusion
    · exact advances_ok further within

theorem advances_map {β : Type} {outcome : Except Error (β × Nat)} (advances : Advances buf (pos + 1) Prod.snd outcome) :
    Advances buf pos id (outcome.map Prod.snd) := by
  cases outcome with
  | error err => exact advances_error (advances.ne rfl)
  | ok result =>
    obtain ⟨further, within⟩ := advances.2 _ rfl
    exact advances_ok (Nat.le_of_succ_le further) within

theorem consumeUnknownLoop_advances (pos : Nat) (wireType : WireType) (depth : Nat) :
    Advances buf pos id (consumeUnknownLoop buf pos wireType depth) := by
  induction left : buf.bytes.length - pos using Nat.strongRecOn generalizing pos wireType depth with
  | ind left ih =>
    by_cases more : pos < buf.bytes.length
    · have resumed (depth : Nat) : Advances buf pos id (resume buf depth pos) := by
        rw [resume]
        split
        · exact advances_ok (Nat.le_refl _) more.le
        · cases consumed : consumeTag buf pos with
          | error err => exact advances_error ((consumeTag_advances_inside buf pos).ne consumed)
          | ok result =>
            obtain ⟨fieldNum, wireType, next⟩ := result
            obtain ⟨further, within⟩ := (consumeTag_advances_inside buf pos).2 _ consumed
            dsimp only at further within
            have after := ih _ (by omega) next wireType depth rfl
            refine ⟨after.1, fun result ended => ?_⟩
            have := after.2 result ended
            omega
      rw [consumeUnknownLoop_eq buf wireType depth more, visit.eq_def]
      cases wireType with
      | varint => exact advances_map (consumeVarint_advances buf pos)
      | i64 => exact advances_map (consumeFixed_advances 8 more.le (by decide) (by decide))
      | len => exact advances_map (consumeLen_advances buf pos)
      | startGroup => exact resumed (depth + 1)
      | endGroup =>
        by_cases outer : depth = 0
        · rw [if_pos outer]
          exact advances_error Error.noConfusion
        · rw [if_neg outer]
          exact resumed (depth - 1)
      | i32 => exact advances_map (consumeFixed_advances 4 more.le (by decide) (by decide))
      | illegal wireType => exact advances_error Error.noConfusion
    · rw [consumeUnknownLoop, if_neg more]
      exact advances_error Error.noConfusion

end bounds

/-- The readers are as expected except where a tag is cut to its 32 bits. -/
theorem readers_sound_iff (buf : Buf) (pos : Nat) (wireType : WireType) (inside : pos ≤ buf.bytes.length) :
    Sound buf pos wireType ↔ ¬WideTag buf pos := by
  constructor
  · rintro sound ⟨bytes, stands, ends, short, wide, some, positive⟩
    have read := consumeVarint_of_at stands ends short
    have field := toInt32_eq ((readVarint bytes).1 % 2 ^ 64 / 8)
    have consumed := consumeTag_eq read
    rw [if_neg (by omega)] at consumed
    obtain ⟨tag, read', number, _⟩ := sound.tagged _ _ _ consumed
    rw [read, Except.ok.injEq, Prod.mk.injEq] at read'
    rw [toNat_ofNat (Nat.mod_lt _ (by decide))] at number
    omega
  · intro narrow
    refine ⟨consumeVarint_advances buf pos, consumeTag_advances_inside buf pos,
      consumeFixed_advances 4 inside (by decide) (by decide), consumeFixed_advances 8 inside (by decide) (by decide),
      consumeLen_advances buf pos, consumeUnknownLoop_advances pos wireType 0, ?_, ?_⟩
    · intro length next consumed
      rcases consumeLen_cases buf pos with ⟨err, same, _⟩ | ⟨num, after, length', read, same, _⟩
      · cases same.symm.trans consumed
      · cases same.symm.trans consumed
        exact ⟨num, after, read, rfl⟩
    · intro fieldNum wireType next consumed
      rcases consumeVarint_cases buf pos with same | same | ⟨bytes, stands, ends, short, read⟩
      · rw [consumeTag, same] at consumed
        cases consumed
      · rw [consumeTag, same] at consumed
        cases consumed
      · rw [consumeTag_eq read] at consumed
        split at consumed
        · cases consumed
        · next positive =>
          rw [Except.ok.injEq, Prod.mk.injEq, Prod.mk.injEq] at consumed
          obtain ⟨rfl, rfl, rfl⟩ := consumed
          have field := toInt32_eq ((readVarint bytes).1 % 2 ^ 64 / 8)
          have small : (readVarint bytes).1 % 2 ^ 64 < 2 ^ 35 := by
            by_contra wide
            exact narrow ⟨bytes, stands, ends, short, by omega, by omega, by omega⟩
          refine ⟨_, read, ?_, not_le.mp positive⟩
          rw [toNat_ofNat (Nat.mod_lt _ (by decide))]
          omega

/-- The number of this tag is 2 ^ 35 + 8, that of field 4294967297, and field 1 is returned for it. -/
theorem consumeTag_truncates :
    consumeTag ⟨[0x88, 0x80, 0x80, 0x80, 0x80, 0x01], by decide⟩ 0 = .ok (1, .varint, 6) ∧
      consumeVarint ⟨[0x88, 0x80, 0x80, 0x80, 0x80, 0x01], by decide⟩ 0 = .ok (2 ^ 35 + 8, 6) := by
  decide +kernel

theorem readers_sound_field : Sound ⟨[0x0a, 0x01, 0x2a], by decide⟩ 0 .len :=
  (readers_sound_iff _ 0 .len (by decide)).mpr (by
    rintro ⟨bytes, stands, ends, short, wide, _⟩
    have read := consumeVarint_of_at stands ends short
    rw [show consumeVarint ⟨[0x0a, 0x01, 0x2a], by decide⟩ 0 = .ok (10, 1) from by decide +kernel, Except.ok.injEq,
      Prod.mk.injEq] at read
    omega)

end CollectorFormal.Proto
