import CollectorFormal.Pprofile.RoundTrip

/-! What becomes of the attributes that a message of profiles gives inline. -/

namespace CollectorFormal.Pprofile

open Client (Text)
open Pdata List

variable {stringTable : List Text}

def ValidIndex (stringTable : List Text) (index : Int32) : Prop :=
  0 < index.toInt ∧ index.toInt < stringTable.length

mutual

def Sent (stringTable : List Text) : AnyValue → Prop
  | .stringValueStrindex index => ValidIndex stringTable index
  | .arrayValue values => SentValues stringTable values
  | .kvlistValue values => SentKeyValues stringTable values
  | _ => True

def SentValues (stringTable : List Text) : List AnyValue → Prop
  | [] => True
  | value :: rest => Sent stringTable value ∧ SentValues stringTable rest

def SentKeyValues (stringTable : List Text) : List KeyValue → Prop
  | [] => True
  | .mk key value keyStrindex :: rest =>
    (key ≠ [] ∧ keyStrindex = 0 ∨ key = [] ∧ ValidIndex stringTable keyStrindex) ∧
      Sent stringTable value ∧ SentKeyValues stringTable rest

end

mutual

def denoted (stringTable : List Text) : AnyValue → AnyValue
  | .stringValueStrindex index => .stringValue (stringTable.getD index.toInt.toNat [])
  | .arrayValue values => .arrayValue (denotedValues stringTable values)
  | .kvlistValue values => .kvlistValue (denotedKeyValues stringTable values)
  | value => value

def denotedValues (stringTable : List Text) : List AnyValue → List AnyValue
  | [] => []
  | value :: rest => denoted stringTable value :: denotedValues stringTable rest

def denotedKeyValues (stringTable : List Text) : List KeyValue → List KeyValue
  | [] => []
  | .mk key value keyStrindex :: rest =>
    .mk (if keyStrindex = 0 then key else stringTable.getD keyStrindex.toInt.toNat []) (denoted stringTable value) 0 ::
      denotedKeyValues stringTable rest

end

mutual

def ByReference : AnyValue → Prop
  | .arrayValue values => ByReferenceValues values
  | .kvlistValue values => ByReferenceKeyValues values
  | _ => True

def ByReferenceValues : List AnyValue → Prop
  | [] => True
  | value :: rest => ByReference value ∧ ByReferenceValues rest

def ByReferenceKeyValues : List KeyValue → Prop
  | [] => True
  | .mk _ value keyStrindex :: rest => keyStrindex ≠ 0 ∧ ByReference value ∧ ByReferenceKeyValues rest

end

theorem stringAt_valid {index : Int32} (valid : ValidIndex stringTable index) :
    stringAt stringTable index = some (stringTable.getD index.toInt.toNat []) := by
  have inside : index.toInt.toNat < stringTable.length := by
    have := valid.1
    have := valid.2
    omega
  rw [stringAt, if_pos (Int.le_of_lt valid.1), getD_eq_getElem?_getD, getElem?_eq_getElem inside, Option.getD_some]

theorem ValidIndex.ne_zero {index : Int32} (valid : ValidIndex stringTable index) : index ≠ 0 := by
  intro zero
  rw [zero] at valid
  exact absurd valid.1 (by decide)

theorem resolved_key_iff (start : stringTable.head? = some []) {key : Text} {keyStrindex : Int32}
    (sent : key ≠ [] ∧ keyStrindex = 0 ∨ key = [] ∧ ValidIndex stringTable keyStrindex) :
    (stringAt stringTable keyStrindex).getD key =
      (if keyStrindex = 0 then key else stringTable.getD keyStrindex.toInt.toNat []) ↔ keyStrindex ≠ 0 := by
  rcases sent with ⟨some, rfl⟩ | ⟨_, valid⟩
  · have first : stringAt stringTable 0 = Option.some [] := by
      rw [stringAt, if_pos (by decide), ← start, head?_eq_getElem?]
      rfl
    rw [first, if_pos rfl, Option.getD_some]
    exact ⟨fun empty => absurd empty.symm some, fun absurd => (absurd rfl).elim⟩
  · rw [stringAt_valid valid, if_neg valid.ne_zero, Option.getD_some]
    exact ⟨fun _ => valid.ne_zero, fun _ => rfl⟩

mutual

theorem resolved_iff (start : stringTable.head? = some []) (value : AnyValue) (sent : Sent stringTable value) :
    shown (resolveAnyValueReference stringTable value) = denoted stringTable value ↔ ByReference value := by
  cases value with
  | stringValueStrindex index =>
    have valid : ValidIndex stringTable index := sent
    rw [resolveAnyValueReference, if_pos valid.ne_zero, stringAt_valid valid, denoted, ByReference]
    · exact ⟨fun _ => trivial, fun _ => rfl⟩
    all_goals simp
  | arrayValue values =>
    rw [resolveAnyValueReference, shown, denoted, ByReference, AnyValue.arrayValue.injEq]
    exact resolvedValues_iff start values sent
  | kvlistValue values =>
    rw [resolveAnyValueReference, shown, denoted, ByReference, AnyValue.kvlistValue.injEq]
    exact resolvedKeyValues_iff start values sent
  | _ => exact ⟨fun _ => trivial, fun _ => rfl⟩

theorem resolvedValues_iff (start : stringTable.head? = some []) (values : List AnyValue)
    (sent : SentValues stringTable values) :
    shownValues (resolveValueReferences stringTable values) = denotedValues stringTable values ↔
      ByReferenceValues values := by
  cases values with
  | nil => exact ⟨fun _ => trivial, fun _ => rfl⟩
  | cons value rest =>
    rw [resolveValueReferences, shownValues, denotedValues, ByReferenceValues, List.cons.injEq,
      resolved_iff start value sent.1, resolvedValues_iff start rest sent.2]

theorem resolvedKeyValues_iff (start : stringTable.head? = some []) (values : List KeyValue)
    (sent : SentKeyValues stringTable values) :
    shownKeyValues (resolveKeyValueReferences stringTable values) = denotedKeyValues stringTable values ↔
      ByReferenceKeyValues values := by
  cases values with
  | nil => exact ⟨fun _ => trivial, fun _ => rfl⟩
  | cons first rest =>
    cases first with
    | mk key value keyStrindex =>
      rw [resolveKeyValueReferences, shownKeyValues, denotedKeyValues, ByReferenceKeyValues, List.cons.injEq,
        KeyValue.mk.injEq, resolved_key_iff start sent.1, resolved_iff start value sent.2.1,
        resolvedKeyValues_iff start rest sent.2.2]
      simp only [and_true, and_assoc]

end

section profiles
variable {B X Y Z : Type}

def Profiles.Attributes (pd : Profiles X Y Z) (condition : List KeyValue → Prop) : Prop :=
  ∀ rp ∈ pd.resourceProfiles, condition rp.attributes ∧ ∀ sp ∈ rp.scopeProfiles, condition sp.attributes

/-- Attributes of resources and their scopes, each at its place, with the strings that
their indices stand for. -/
def denotedResources (stringTable : List Text) (resources : List (ResourceProfiles X Y)) :
    List (List KeyValue × List (List KeyValue)) :=
  resources.map fun rp => (denotedKeyValues stringTable rp.attributes,
    rp.scopeProfiles.map fun sp => denotedKeyValues stringTable sp.attributes)

/-- What was decoded shows every attribute as it was sent iff no key at any level was sent inline. -/
theorem decoded_faithful_iff (codec : Codec B X Y Z) (buf : B) (sent : Profiles X Y Z)
    (encoded : codec.unmarshal buf = .ok sent) (start : sent.stringTable.head? = some [])
    (valid : sent.Attributes (SentKeyValues sent.stringTable)) :
    (∃ pd, ProtoUnmarshaler.unmarshalProfiles codec buf = .ok pd ∧
      shownResources pd.resourceProfiles = denotedResources sent.stringTable sent.resourceProfiles) ↔
    sent.Attributes ByReferenceKeyValues := by
  have decoded : ProtoUnmarshaler.unmarshalProfiles codec buf = .ok (resolveProfilesReferences sent) := by
    rw [ProtoUnmarshaler.unmarshalProfiles, encoded]
    rfl
  have scopes : ∀ rp ∈ sent.resourceProfiles,
      shownScopes (resolveScopes sent.stringTable rp.scopeProfiles) =
        rp.scopeProfiles.map (fun sp => denotedKeyValues sent.stringTable sp.attributes) ↔
      ∀ sp ∈ rp.scopeProfiles, ByReferenceKeyValues sp.attributes := by
    intro rp member
    rw [shownScopes, resolveScopes, map_map, map_inj_left]
    apply forall₂_congr
    intro sp member'
    exact resolvedKeyValues_iff start sp.attributes ((valid rp member).2 sp member')
  have resources : shownResources (resolveProfilesReferences sent).resourceProfiles =
      denotedResources sent.stringTable sent.resourceProfiles ↔ sent.Attributes ByReferenceKeyValues := by
    rw [shownResources, resolveProfilesReferences, resolveResources, map_map, denotedResources, map_inj_left]
    apply forall₂_congr
    intro rp member
    rw [Function.comp_apply, Prod.mk.injEq, scopes rp member,
      resolvedKeyValues_iff start rp.attributes (valid rp member).1]
  rw [← resources, decoded]
  constructor
  · intro shown
    rcases shown with ⟨pd, same, shown⟩
    cases same
    exact shown
  · intro shown
    exact ⟨_, rfl, shown⟩

end profiles

/-- A key and its value, both by their index. -/
theorem decoded_faithful_iff_reference :
    (∃ pd, ProtoUnmarshaler.unmarshalProfiles directCodec
        ⟨[⟨[.mk [] (.stringValueStrindex 2) 1], [], ()⟩], [[], [97], [98]], ()⟩ = .ok pd ∧
      shownResources pd.resourceProfiles = [([.mk [97] (.stringValue [98]) 0], [])]) := by
  refine (decoded_faithful_iff directCodec _ ⟨[⟨[.mk [] (.stringValueStrindex 2) 1], [], ()⟩], [[], [97], [98]], ()⟩
    rfl rfl ?_).mpr ?_
  · simp only [Profiles.Attributes, mem_singleton, forall_eq, not_mem_nil, false_implies, implies_true,
      and_true, SentKeyValues, Sent, ValidIndex]
    decide
  · simp [Profiles.Attributes, ByReferenceKeyValues, ByReference]

/-- The attribute {"a": "b"}, sent inline with the table that only has the empty string, is
decoded as {"": "b"}. -/
theorem inline_key_lost :
    (oneAttribute [[]] [97] [98]).Attributes (SentKeyValues [[]]) ∧
    ¬∃ pd, ProtoUnmarshaler.unmarshalProfiles directCodec (oneAttribute [[]] [97] [98]) = .ok pd ∧
      shownResources pd.resourceProfiles =
        denotedResources [[]] (oneAttribute [[]] [97] [98]).resourceProfiles := by
  constructor
  · simp [Profiles.Attributes, oneAttribute, SentKeyValues, Sent]
  · rintro ⟨_, ⟨⟩, same⟩
    have keys : some ([] : Text) = some [97] :=
      congrArg (fun resources => resources.head?.bind fun rp => rp.1.head?.map KeyValue.key) same
    cases keys

end CollectorFormal.Pprofile
