import CollectorFormal.Pprofile.Relocate

/-! Profiles with every reference replaced by what it denotes, and what merging does to them. -/

namespace CollectorFormal.Pprofile.Merge

open Client (Text)
open Pdata
open Lib

abbrev AttributeView := KeyValueAndUnit (Option Text) Meaning

abbrev FunctionView := Function (Option Text)

abbrev MappingView := Mapping (Option Text) (Option AttributeView)

abbrev LocationView := Location (Option MappingView) (Option AttributeView) (Option FunctionView)

abbrev StackView := Stack (Option LocationView)

abbrev ProfileView := Profile (Option Text) (Option AttributeView) (Option Link) (Option StackView)

@[reducible]
def EntryView : Table → Type
  | .string => Text
  | .attr => AttributeView
  | .function => FunctionView
  | .mapping => MappingView
  | .location => LocationView
  | .link => Link
  | .stack => StackView

section views
variable (least : Int) (d : Dictionary)

/-- Indices below `least` denote nothing, nor do those beyond the end of the table. -/
def denotes {α : Type} (t : Table) (onEntry : Entry t → α) (i : Int) : Option α :=
  if i < least then none else (d.table t)[i.toNat]?.map onEntry

def viewString : Int → Option Text := denotes least d .string id

def viewAttributeEntry (ms : Entry .attr) : AttributeView := ms.map (viewString least d) Value.meaning

def viewAttribute : Int → Option AttributeView := denotes least d .attr (viewAttributeEntry least d)

def viewFunctionEntry (fn : Entry .function) : FunctionView := fn.map (viewString least d)

def viewFunction : Int → Option FunctionView := denotes least d .function (viewFunctionEntry least d)

def viewMappingEntry (ms : Entry .mapping) : MappingView := ms.map (viewString least d) (viewAttribute least d)

def viewMapping : Int → Option MappingView := denotes least d .mapping (viewMappingEntry least d)

def viewLocationEntry (ms : Entry .location) : LocationView :=
  ms.map (viewMapping least d) (viewAttribute least d) (viewFunction least d)

def viewLocation : Int → Option LocationView := denotes least d .location (viewLocationEntry least d)

def viewLink : Int → Option Link := denotes least d .link id

def viewStackEntry (ms : Entry .stack) : StackView := ms.map (viewLocation least d)

def viewStack : Int → Option StackView := denotes least d .stack (viewStackEntry least d)

def viewEntry : (t : Table) → Entry t → EntryView t
  | .string => id
  | .attr => viewAttributeEntry least d
  | .function => viewFunctionEntry least d
  | .mapping => viewMappingEntry least d
  | .location => viewLocationEntry least d
  | .link => id
  | .stack => viewStackEntry least d

def viewIndex (t : Table) : Int → Option (EntryView t) := denotes least d t (viewEntry least d t)

def viewProfile (ms : Profile Int Int Int Int) : ProfileView :=
  ms.map (viewString least d) (viewAttribute least d) (viewLink least d) (viewStack least d)

def view {X Y : Type} (resources : List (ResourceProfiles X Y (Profile Int Int Int Int))) :
    List (ResourceProfiles X Y ProfileView) :=
  resources.map (ResourceProfiles.map (viewProfile least d))

end views

section agree

def EntryRel (onIndex : Table → Int → Int → Prop) : (t : Table) → Entry t → Entry t → Prop
  | .string => Eq
  | .attr => KeyValueAndUnit.Rel (onIndex .string) SameMeaning
  | .function => Function.Rel (onIndex .string)
  | .mapping => Mapping.Rel (onIndex .string) (onIndex .attr)
  | .location => Location.Rel (onIndex .mapping) (onIndex .attr) (onIndex .function)
  | .link => Eq
  | .stack => Stack.Rel (onIndex .location)

def ProfileRel (onIndex : Table → Int → Int → Prop) : Profile Int Int Int Int → Profile Int Int Int Int → Prop :=
  Profile.Rel (onIndex .string) (onIndex .attr) (onIndex .link) (onIndex .stack)

def rank : Table → Nat
  | .string | .link => 0
  | .attr | .function => 1
  | .mapping => 2
  | .location => 3
  | .stack => 4

variable {least : Int} {d d' : Dictionary} {onIndex onIndex' : Table → Int → Int → Prop}

theorem EntryRel.imp {t : Table} {entry entry' : Entry t}
    (agree : ∀ t', rank t' < rank t → ∀ i j, onIndex t' i j → onIndex' t' i j)
    (rel : EntryRel onIndex t entry entry') : EntryRel onIndex' t entry entry' := by
  cases t with
  | string | link => exact rel
  | attr => exact KeyValueAndUnit.Rel.imp (agree .string (by decide)) (fun _ _ => id) rel
  | function => exact Function.Rel.imp (agree .string (by decide)) rel
  | mapping => exact Mapping.Rel.imp (agree .string (by decide)) (agree .attr (by decide)) rel
  | location =>
    exact Location.Rel.imp (agree .attr (by decide)) (agree .function (by decide)) (agree .mapping (by decide)) rel
  | stack => exact Stack.Rel.imp (agree .location (by decide)) rel

def Agree (least : Int) (d d' : Dictionary) (t : Table) (i j : Int) : Prop :=
  viewIndex least d t i = viewIndex least d' t j

theorem viewEntry_eq_iff {t : Table} {entry entry' : Entry t} :
    viewEntry least d t entry = viewEntry least d' t entry' ↔ EntryRel (Agree least d d') t entry entry' := by
  cases t with
  | string | link => exact Iff.rfl
  | attr => exact KeyValueAndUnit.map_eq_iff
  | function => exact Function.map_eq_iff
  | mapping => exact Mapping.map_eq_iff
  | location => exact Location.map_eq_iff
  | stack => exact Stack.map_eq_iff

variable {X Y : Type} {resources resources' : List (ResourceProfiles X Y (Profile Int Int Int Int))}

theorem view_eq_iff :
    view least d resources = view least d' resources' ↔
      List.Forall₂ (ResourceProfiles.Rel (ProfileRel (Agree least d d'))) resources resources' := by
  rw [view, view, map_eq_map_iff]
  simp only [ResourceProfiles.map_eq_iff, viewProfile, Profile.map_eq_iff]
  rfl

theorem resources_imp (agree : ∀ t i j, onIndex t i j → onIndex' t i j)
    (rel : List.Forall₂ (ResourceProfiles.Rel (ProfileRel onIndex)) resources resources') :
    List.Forall₂ (ResourceProfiles.Rel (ProfileRel onIndex')) resources resources' := by
  refine rel.imp fun _ _ resource => resource.imp fun _ _ profile => ?_
  exact Profile.Rel.imp (agree .string) (agree .attr) (agree .link) (agree .stack) profile

theorem rank_induction {motive : Table → Prop} (step : ∀ t, (∀ t', rank t' < rank t → motive t') → motive t)
    (t : Table) : motive t := by
  induction ranked : rank t using Nat.strongRecOn generalizing t with
  | _ height ih =>
    subst ranked
    exact step t fun t' below => ih _ below t' rfl

theorem agree_of_entries
    (step : ∀ t i j, (∀ entry entry', EntryRel onIndex t entry entry' →
      viewEntry least d t entry = viewEntry least d' t entry') → onIndex t i j → Agree least d d' t i j)
    (t : Table) : ∀ i j, onIndex t i j → Agree least d d' t i j := by
  induction t using rank_induction with
  | step t ih =>
    intro i j
    exact step t i j fun _ _ rel => viewEntry_eq_iff.mpr (rel.imp ih)

end agree

end CollectorFormal.Pprofile.Merge
