import Mathlib.Algebra.Order.Ring.Nat
import CollectorFormal.Pprofile.View

/-! Merging profiles keeps what their references denote. -/

namespace CollectorFormal.Pprofile.Merge

open Client (Text)
open Pdata List
open Lib

section moved
variable {d src : Dictionary}

def MovedIndex (d src : Dictionary) : Table → Int → Int → Prop
  | .string => MovedString d src
  | .attr => MovedAttribute d src
  | .function => MovedFunction d src
  | .mapping => MovedMapping d src
  | .location => MovedLocation d src
  | .link => MovedLink d src
  | .stack => MovedStack d src

theorem MovedIndex.cases {t : Table} {i j : Int} (moved : MovedIndex d src t i j) :
    i ≤ 0 ∧ j = i ∨ 0 ≤ i ∧ Moved d src t (EntryRel (MovedIndex d src) t) i j := by
  have split : MovedField d src t (MovedEntry d src t) i j ∨ MovedItem d src t (MovedEntry d src t) i j := by
    cases t
    case attr => exact .inr moved
    case location => exact .inr moved
    all_goals exact .inl moved
  rcases split with (same | ⟨positive, moved⟩) | item
  · exact .inl same
  · exact .inr ⟨Int.le_of_lt positive, moved⟩
  · exact .inr item

theorem viewEntry_of_equal {least : Int} {t : Table} {a b : Entry t} (same : equal t a b = true) :
    viewEntry least d t a = viewEntry least d t b := by
  cases t with
  | attr =>
    simp only [equal, Bool.and_eq_true, beq_iff_eq] at same
    simp only [viewEntry, viewAttributeEntry, KeyValueAndUnit.map, same.1.1, same.1.2, Value.meaning_eq same.2]
  | _ => rw [eq_of_beq same]

def zeroEntry : (t : Table) → Entry t
  | .string => []
  | .attr => ⟨0, Value.none, 0⟩
  | .function => ⟨0, 0, 0, 0⟩
  | .mapping => ⟨0, 0, 0, 0, []⟩
  | .location => ⟨0, 0, [], []⟩
  | .link => ⟨Vector.replicate 16 0, Vector.replicate 8 0⟩
  | .stack => ⟨[]⟩

/-- No table is empty, and the first entries are the zero values. -/
def ZeroFirst (d : Dictionary) : Prop := ∀ t, (d.table t)[0]? = some (zeroEntry t)

theorem ZeroFirst.later {later : Dictionary} (zeros : ZeroFirst d) (more : Extends d later) : ZeroFirst later :=
  fun t => getElem?_later more (zeros t)

def IsZero (_ : Table) (i j : Int) : Prop := i = 0 ∧ j = 0

theorem zeroEntry_rel (t : Table) : EntryRel IsZero t (zeroEntry t) (zeroEntry t) := by
  cases t with
  | string | link => rfl
  | attr => exact ⟨⟨rfl, rfl⟩, ⟨rfl, rfl⟩, rfl⟩
  | function => exact ⟨⟨rfl, rfl⟩, ⟨rfl, rfl⟩, ⟨rfl, rfl⟩, rfl⟩
  | mapping => exact ⟨⟨rfl, rfl⟩, .nil, rfl, rfl, rfl⟩
  | location => exact ⟨⟨rfl, rfl⟩, .nil, .nil, rfl⟩
  | stack => exact ⟨.nil⟩

theorem viewIndex_nonneg {d : Dictionary} {t : Table} {i : Int} {entry : Entry t} (nonneg : 0 ≤ i)
    (found : (d.table t)[i.toNat]? = some entry) : viewIndex 0 d t i = some (viewEntry 0 d t entry) := by
  rw [viewIndex, denotes, if_neg (Int.not_lt.mpr nonneg), found, Option.map_some]

theorem viewIndex_zero (zeros : ZeroFirst src) (zeros' : ZeroFirst d) (t : Table) :
    Agree 0 src d t 0 0 := by
  have zero : IsZero t 0 0 := ⟨rfl, rfl⟩
  refine agree_of_entries ?_ t 0 0 zero
  rintro t _ _ entries ⟨rfl, rfl⟩
  rw [Agree, viewIndex_nonneg (Int.le_refl 0) (zeros t), viewIndex_nonneg (Int.le_refl 0) (zeros' t), entries _ _ (zeroEntry_rel t)]

theorem viewIndex_moved (zeros : ZeroFirst src) (zeros' : ZeroFirst d) (t : Table) (i j : Int)
    (moved : MovedIndex d src t i j) : Agree 0 src d t i j := by
  refine agree_of_entries ?_ t i j moved
  intro t i j entries moved
  rcases moved.cases with ⟨small, rfl⟩ | ⟨nonneg, val, switched, found, related, at_j, ⟨entry, placed, same⟩, _⟩
  · rcases Int.lt_or_eq_of_le small with negative | rfl
    · rw [Agree, viewIndex, viewIndex, denotes, denotes, if_pos negative, if_pos negative]
    · exact viewIndex_zero zeros zeros' t
  · rw [Agree, viewIndex_nonneg nonneg found, viewIndex_nonneg at_j placed, entries _ _ related]
    rcases same with rfl | same
    · rfl
    · rw [viewEntry_of_equal same]

end moved

section growth
variable {d later : Dictionary}

def Inside (d : Dictionary) (t : Table) (i j : Int) : Prop := i = j ∧ i < (d.table t).length

def Settled (d : Dictionary) : Prop := ∀ t, ∀ entry ∈ d.table t, EntryRel (Inside d) t entry entry

theorem viewIndex_later (settled : Settled d) (more : Extends d later) (t : Table) (i j : Int)
    (inside : Inside d t i j) : Agree 0 d later t i j := by
  refine agree_of_entries ?_ t i j inside
  rintro t i _ entries ⟨rfl, inside⟩
  rcases Int.lt_or_le i 0 with negative | nonneg
  · rw [Agree, viewIndex, viewIndex, denotes, denotes, if_pos negative, if_pos negative]
  · have bound : i.toNat < (d.table t).length := by omega
    have found := getElem?_eq_getElem bound
    rw [Agree, viewIndex_nonneg nonneg found, viewIndex_nonneg nonneg (getElem?_later more found),
      entries _ _ (settled t _ (getElem_mem bound))]

end growth

section mergeTo
variable {X Y : Type}

def sampleCount (resources : List (ResourceProfiles X Y (Profile Int Int Int Int))) : Nat :=
  (resources.map fun resource =>
    (resource.scopeProfiles.map fun scope => (scope.profiles.map fun profile => profile.samples.length).sum).sum).sum

theorem sampleCount_eq {onIndex : Table → Int → Int → Prop}
    {resources resources' : List (ResourceProfiles X Y (Profile Int Int Int Int))}
    (rel : List.Forall₂ (ResourceProfiles.Rel (ProfileRel onIndex)) resources resources') :
    sampleCount resources = sampleCount resources' := by
  refine congrArg sum (map_eq_map_iff.mpr (rel.imp fun _ _ resource => ?_))
  refine congrArg sum (map_eq_map_iff.mpr (resource.scopeProfiles.imp fun _ _ scope => ?_))
  exact congrArg sum (map_eq_map_iff.mpr (scope.profiles.imp fun _ _ profile => profile.samples.length_eq))

theorem mergeTo_sampleCount {ms dest after : Profiles X Y} (merged : (ms.mergeTo dest).1 = .ok after) :
    sampleCount (ms.mergeTo dest).2.resourceProfiles =
      sampleCount dest.resourceProfiles + sampleCount ms.resourceProfiles := by
  have ended := gives_switchDictionary ms dest.dictionary (Extends.refl _)
  rw [Profiles.mergeTo] at merged ⊢
  split at merged
  · cases merged
  · next mutable =>
    rw [if_neg mutable]
    rcases ran : ms.switchDictionary.run.run dest.dictionary with ⟨err | switched, dst⟩
    · rw [ran] at merged
      cases merged
    · rw [ran] at ended
      have moved : List.Forall₂ (ResourceProfiles.Rel (ProfileRel (MovedIndex dst ms.dictionary)))
          ms.resourceProfiles switched.resourceProfiles := ended.2 dst (Extends.refl dst)
      rw [sampleCount_eq moved, sampleCount, map_append, sum_append]
      rfl

def Profiles.view (ms : Profiles X Y) : List (ResourceProfiles X Y ProfileView) :=
  Merge.view 0 ms.dictionary ms.resourceProfiles

structure Profiles.Settled (ms : Profiles X Y) : Prop where
  dictionary : Merge.Settled ms.dictionary
  resourceProfiles : ∀ resource ∈ ms.resourceProfiles, resource.Rel (ProfileRel (Inside ms.dictionary)) resource

theorem view_later {ms : Profiles X Y} {later : Dictionary} (settled : ms.Settled)
    (more : Extends ms.dictionary later) : view 0 later ms.resourceProfiles = ms.view := by
  symm
  exact view_eq_iff.mpr
    (resources_imp (viewIndex_later settled.dictionary more) (forall₂_same.mpr settled.resourceProfiles))

/-- The new data mean what they meant, the tables only grow, and what was there means what it meant, unless an index
lay beyond the end of its table. -/
theorem mergeTo_preserves (ms dest : Profiles X Y) (mutable : ms.readOnly = false ∧ dest.readOnly = false)
    (zeros : ZeroFirst ms.dictionary) (zeros' : ZeroFirst dest.dictionary) :
    (ms.mergeTo dest).1 ≠ .error .panics ∧ Extends dest.dictionary (ms.mergeTo dest).2.dictionary ∧
      (dest.Settled → view 0 (ms.mergeTo dest).2.dictionary dest.resourceProfiles = dest.view) ∧
      (∀ err, (ms.mergeTo dest).1 = .error err → (ms.mergeTo dest).2.resourceProfiles = dest.resourceProfiles) ∧
      ∀ after, (ms.mergeTo dest).1 = .ok after →
        ∃ added, (ms.mergeTo dest).2.resourceProfiles = dest.resourceProfiles ++ added ∧
          view 0 (ms.mergeTo dest).2.dictionary added = ms.view := by
  have ended := gives_switchDictionary ms dest.dictionary (Extends.refl _)
  rw [Profiles.mergeTo, if_neg (by simp [mutable.1, mutable.2])]
  rcases ran : ms.switchDictionary.run.run dest.dictionary with ⟨err | switched, dst⟩
  · rw [ran] at ended
    dsimp only
    refine ⟨by simp, ended.1, fun settled => view_later settled ended.1, fun _ _ => rfl, ?_⟩
    intro after impossible
    cases impossible
  · rw [ran] at ended
    dsimp only
    refine ⟨by simp, ended.1.more, fun settled => view_later settled ended.1.more, ?_, ?_⟩
    · intro err impossible
      cases impossible
    intro after _
    refine ⟨switched.resourceProfiles, rfl, ?_⟩
    have moved := ended.2 dst (Extends.refl dst)
    symm
    exact view_eq_iff.mpr (resources_imp (viewIndex_moved zeros (zeros'.later ended.1.more)) moved)

end mergeTo

def stacked (others : List (Entry .stack)) : Dictionary where
  mappingTable := [zeroEntry .mapping]
  locationTable := [zeroEntry .location]
  functionTable := [zeroEntry .function]
  linkTable := [zeroEntry .link]
  stringTable := [zeroEntry .string]
  attributeTable := [zeroEntry .attr]
  stackTable := zeroEntry .stack :: others

theorem zeroFirst_stacked (others : List (Entry .stack)) : ZeroFirst (stacked others) := by
  intro t
  cases t <;> rfl

def emptyHeader : Header := ⟨0, 0, 0, Vector.replicate 16 0, 0, [], []⟩

def sampled (stack : Int) : ResourceProfiles Unit Unit (Profile Int Int Int Int) :=
  ⟨(), [⟨(), [⟨emptyHeader, ⟨0, 0⟩, [⟨stack, [], 0, [], []⟩], ⟨0, 0⟩, []⟩], ""⟩], ""⟩

def withStack : Profiles Unit Unit where
  dictionary := stacked [⟨[0]⟩]
  resourceProfiles := [sampled 1]

def withoutStack : Profiles Unit Unit where
  dictionary := stacked []
  resourceProfiles := [sampled 1]

def stacksKnown (resources : List (ResourceProfiles Unit Unit ProfileView)) : List Bool :=
  resources.flatMap fun resource => resource.scopeProfiles.flatMap fun scope =>
    scope.profiles.flatMap fun profile => profile.samples.map fun sample => sample.stack.isSome

/-- The sample of the destination gets the stack of the other; and a source that is read-only panics. -/
theorem old_data_changed :
    ZeroFirst withStack.dictionary ∧ ZeroFirst withoutStack.dictionary ∧
      (∃ after, (withStack.mergeTo withoutStack).1 = .ok after) ∧
      view 0 (withStack.mergeTo withoutStack).2.dictionary withoutStack.resourceProfiles ≠ withoutStack.view ∧
      ({ withStack with readOnly := true }.mergeTo withoutStack).1 = .error .panics := by
  refine ⟨zeroFirst_stacked _, zeroFirst_stacked _, ⟨_, rfl⟩, ?_, rfl⟩
  intro same
  have known : stacksKnown (view 0 (withStack.mergeTo withoutStack).2.dictionary withoutStack.resourceProfiles) =
      stacksKnown withoutStack.view := congrArg stacksKnown same
  have before : stacksKnown withoutStack.view = [false] := rfl
  have after : stacksKnown (view 0 (withStack.mergeTo withoutStack).2.dictionary withoutStack.resourceProfiles) =
      [true] := rfl
  rw [before, after] at known
  cases known

def withZeroStack : Profiles Unit Unit where
  dictionary := stacked []
  resourceProfiles := [sampled 0]

theorem inside_zero (t : Table) : Inside (stacked []) t 0 0 := by
  cases t <;> exact ⟨rfl, by decide⟩

theorem settled_withZeroStack : withZeroStack.Settled where
  dictionary := by
    intro t entry member
    cases t with
    | string | link => rfl
    | attr => cases mem_singleton.mp member; exact ⟨inside_zero _, inside_zero _, rfl⟩
    | function => cases mem_singleton.mp member; exact ⟨inside_zero _, inside_zero _, inside_zero _, rfl⟩
    | mapping => cases mem_singleton.mp member; exact ⟨inside_zero _, .nil, rfl, rfl, rfl⟩
    | location => cases mem_singleton.mp member; exact ⟨inside_zero _, .nil, .nil, rfl⟩
    | stack => cases mem_singleton.mp member; exact ⟨.nil⟩
  resourceProfiles := by
    intro resource member
    cases mem_singleton.mp member
    have sample : Sample.Rel (Inside (stacked []) .attr) (Inside (stacked []) .link) (Inside (stacked []) .stack)
        ⟨0, [], 0, [], []⟩ ⟨0, [], 0, [], []⟩ := ⟨.nil, inside_zero _, inside_zero _, rfl, rfl⟩
    exact ⟨.cons ⟨.cons ⟨.nil, .cons sample .nil, ⟨inside_zero _, inside_zero _⟩, ⟨inside_zero _, inside_zero _⟩, rfl⟩ .nil,
      rfl, rfl⟩ .nil,
      rfl, rfl⟩

theorem mergeTo_preserves_stack :
    view 0 (withStack.mergeTo withZeroStack).2.dictionary withZeroStack.resourceProfiles = withZeroStack.view :=
  (mergeTo_preserves withStack withZeroStack ⟨rfl, rfl⟩ (zeroFirst_stacked _) (zeroFirst_stacked _)).2.2.1
    settled_withZeroStack

end CollectorFormal.Pprofile.Merge
