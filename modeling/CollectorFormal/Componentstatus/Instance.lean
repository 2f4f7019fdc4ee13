import CollectorFormal.Lib.SortedSet
import CollectorFormal.Service.Pipelines

/-! Component instances, whose pipelines are kept as one text. -/

namespace CollectorFormal.Componentstatus

open Client (Text)
open Lib List

/-- component.Kind -/
inductive Kind where
  | receiver
  | processor
  | exporter
  | extension
  | connector
deriving DecidableEq, Repr

def pipelineDelim : UInt8 := 0x20

structure InstanceID where
  componentID : Component.ID
  kind : Kind
  pipelineIDs : Text
deriving DecidableEq, Repr

/-- The order of Go strings, byte by byte. -/
def textLE (a b : Text) : Prop := a.map UInt8.toNat ≤ b.map UInt8.toNat

instance : DecidableRel textLE := fun a b => inferInstanceAs (Decidable (a.map UInt8.toNat ≤ b.map UInt8.toNat))

instance : Std.Total textLE := ⟨fun _ _ => le_total _ _⟩

instance : IsTrans Text textLE := ⟨fun _ _ _ => le_trans⟩

instance : Std.Antisymm textLE :=
  ⟨fun _ _ first second => map_injective_iff.mpr (fun _ _ => UInt8.toNat_inj.mp) (le_antisymm first second)⟩

namespace InstanceID

def addPipelines (id : InstanceID) (pipelineIDs : List Pipeline.ID) : InstanceID :=
  let strIDs := id.pipelineIDs.splitOn pipelineDelim ++ pipelineIDs.map Pipeline.ID.asString
  { id with pipelineIDs := [pipelineDelim].intercalate (sortedSet textLE strIDs) ++ [pipelineDelim] }

def withPipelines (id : InstanceID) (pipelineIDs : List Pipeline.ID) : InstanceID := id.addPipelines pipelineIDs

variable {σ : Type} [Component.Unicode]

/-- The loop of AllPipelineIDs, with the bytes since the last delimiter. -/
def allLoop (f : Pipeline.ID → σ → σ × Bool) : Text → Text → σ → σ
  | [], _, s => s
  | b :: rest, bs, s =>
    if b ≠ pipelineDelim then allLoop f rest (bs ++ [b]) s
    else
      match Pipeline.ID.unmarshalText bs with
      | .error _ => allLoop f rest [] s
      | .ok pipelineID =>
        match f pipelineID s with
        | (s, true) => allLoop f rest [] s
        | (s, false) => s

/-- AllPipelineIDs, with the state of the callback. -/
def allPipelineIDs (id : InstanceID) (f : Pipeline.ID → σ → σ × Bool) (s : σ) : σ := allLoop f id.pipelineIDs [] s

end InstanceID

def newInstanceID (componentID : Component.ID) (kind : Kind) (pipelineIDs : List Pipeline.ID) : InstanceID :=
  InstanceID.addPipelines ⟨componentID, kind, []⟩ pipelineIDs

def made (componentID : Component.ID) (kind : Kind) (first : List Pipeline.ID) (calls : List (List Pipeline.ID)) : InstanceID :=
  calls.foldl InstanceID.withPipelines (newInstanceID componentID kind first)

/-- The calls of the callback, up to the first for which it returns false. -/
def visit {σ : Type} (f : Pipeline.ID → σ → σ × Bool) : List Pipeline.ID → σ → σ
  | [], s => s
  | pipelineID :: rest, s =>
    match f pipelineID s with
    | (s, true) => visit f rest s
    | (s, false) => s

section texts
variable {σ : Type} {texts texts' : List Text}

def delimited (texts : List Text) : Text := texts.flatMap (· ++ [pipelineDelim])

def Plain (texts : List Text) : Prop := ∀ text ∈ texts, pipelineDelim ∉ text

theorem intercalate_delimited (some : texts ≠ []) :
    [pipelineDelim].intercalate texts ++ [pipelineDelim] = delimited texts := by
  induction texts with
  | nil => exact absurd rfl some
  | cons text texts ih =>
    cases texts with
    | nil => simp [delimited]
    | cons second texts =>
      rw [intercalate_cons_cons, append_assoc, ih (cons_ne_nil _ _)]
      rfl

theorem splitOn_delimited (plain : Plain texts) : (delimited texts).splitOn pipelineDelim = texts ++ [[]] := by
  induction texts with
  | nil => rfl
  | cons text texts ih =>
    rw [Plain, forall_mem_cons] at plain
    rw [delimited, flatMap_cons, append_assoc, singleton_append, splitOn_append_cons_self,
      splitOn_eq_singleton plain.1, cons_append]
    exact congrArg (text :: ·) (ih plain.2)

theorem delimited_inj (plain : Plain texts) (plain' : Plain texts') : delimited texts = delimited texts' ↔ texts = texts' := by
  constructor
  · intro same
    apply append_cancel_right
    rw [← splitOn_delimited plain, same, splitOn_delimited plain']
  · exact congrArg delimited

variable {f : Pipeline.ID → σ → σ × Bool} [Component.Unicode]

theorem allLoop_append {text : Text} (plain : pipelineDelim ∉ text) (rest bs : Text) (s : σ) :
    InstanceID.allLoop f (text ++ rest) bs s = InstanceID.allLoop f rest (bs ++ text) s := by
  induction text generalizing bs with
  | nil => rw [nil_append, append_nil]
  | cons b text ih =>
    rw [mem_cons, not_or] at plain
    rw [cons_append, InstanceID.allLoop, if_pos (Ne.symm plain.1), ih plain.2, append_assoc]
    rfl

theorem allLoop_delimited (plain : Plain texts) (s : σ) :
    InstanceID.allLoop f (delimited texts) [] s =
      visit f (texts.filterMap fun text => (Pipeline.ID.unmarshalText text).toOption) s := by
  induction texts generalizing s with
  | nil => rfl
  | cons text texts ih =>
    rw [Plain, forall_mem_cons] at plain
    rw [delimited, flatMap_cons, append_assoc, allLoop_append plain.1, singleton_append, nil_append,
      InstanceID.allLoop, if_neg (by simp), filterMap_cons]
    cases Pipeline.ID.unmarshalText text with
    | error err => exact ih plain.2 s
    | ok pipelineID =>
      dsimp only [Except.toOption]
      rw [visit]
      cases f pipelineID s with
      | mk s' goesOn =>
        cases goesOn with
        | false => rfl
        | true => exact ih plain.2 s'

end texts

section set
variable {componentID : Component.ID} {kind : Kind} {pipelineIDs first first' : List Pipeline.ID}
  {calls calls' : List (List Pipeline.ID)}

/-- The texts that the text of an InstanceID with these pipelines is made of. -/
def strIDs (pipelineIDs : List Pipeline.ID) : List Text := sortedSet textLE ([] :: pipelineIDs.map Pipeline.ID.asString)

theorem mem_strIDs {text : Text} : text ∈ strIDs pipelineIDs ↔ text = [] ∨ ∃ p ∈ pipelineIDs, p.asString = text := by
  rw [strIDs, mem_sortedSet, mem_cons, mem_map]

theorem addPipelines_delimited {id : InstanceID} {texts : List Text} (plain : Plain texts)
    (kept : id.pipelineIDs = delimited texts) : (id.addPipelines pipelineIDs).pipelineIDs =
      delimited (sortedSet textLE (texts ++ [[]] ++ pipelineIDs.map Pipeline.ID.asString)) := by
  have empty : [] ∈ sortedSet textLE (texts ++ [[]] ++ pipelineIDs.map Pipeline.ID.asString) := by
    simp [mem_sortedSet]
  rw [InstanceID.addPipelines, kept, splitOn_delimited plain]
  exact intercalate_delimited (ne_nil_of_mem empty)

section
variable [Component.Unicode]

theorem asString_plain {p : Pipeline.ID} (valid : p.Valid) : pipelineDelim ∉ p.asString := by
  intro mem
  have space := Pipeline.ID.isSpace_asString valid pipelineDelim mem
  cases space

theorem strIDs_plain (valid : ∀ p ∈ pipelineIDs, p.Valid) : Plain (strIDs pipelineIDs) := by
  intro text mem
  rcases mem_strIDs.mp mem with rfl | ⟨p, listed, rfl⟩
  · simp
  · exact asString_plain (valid p listed)

theorem withPipelines_strIDs {id : InstanceID} (valid : ∀ p ∈ first, p.Valid)
    (kept : id.pipelineIDs = delimited (strIDs first)) :
    (id.withPipelines pipelineIDs).pipelineIDs = delimited (strIDs (first ++ pipelineIDs)) := by
  rw [InstanceID.withPipelines, addPipelines_delimited (strIDs_plain valid) kept]
  congr 1
  apply sortedSet_eq_iff.mpr
  intro text
  simp only [mem_append, mem_strIDs, mem_cons, mem_map, map_append, not_mem_nil, or_false]
  grind

theorem made_eq (valid : ∀ p ∈ first ++ calls.flatten, p.Valid) :
    made componentID kind first calls = ⟨componentID, kind, delimited (strIDs (first ++ calls.flatten))⟩ := by
  have run : ∀ (calls : List (List Pipeline.ID)) (first : List Pipeline.ID) (id : InstanceID),
      (∀ p ∈ first ++ calls.flatten, p.Valid) → id.pipelineIDs = delimited (strIDs first) →
      calls.foldl InstanceID.withPipelines id = { id with pipelineIDs := delimited (strIDs (first ++ calls.flatten)) } := by
    intro calls
    induction calls with
    | nil =>
      intro first id _ kept
      rw [flatten_nil, append_nil, ← kept]
      rfl
    | cons call calls ih =>
      intro first id valid kept
      rw [flatten_cons, ← append_assoc] at valid ⊢
      rw [foldl_cons]
      apply ih (first ++ call) _ valid
      apply withPipelines_strIDs _ kept
      exact fun p mem => valid p (mem_append_left _ (mem_append_left _ mem))
  have new : (newInstanceID componentID kind first).pipelineIDs = delimited (strIDs first) :=
    @addPipelines_delimited first ⟨componentID, kind, []⟩ [] nofun rfl
  exact run calls first _ valid new

section
variable (valid : ∀ p ∈ pipelineIDs, p.Valid)
include valid

theorem read_strIDs {text : Text} {p : Pipeline.ID} (mem : text ∈ strIDs pipelineIDs)
    (read : (Pipeline.ID.unmarshalText text).toOption = some p) : p ∈ pipelineIDs ∧ text = p.asString := by
  rcases mem_strIDs.mp mem with rfl | ⟨p', listed, rfl⟩
  · rw [Pipeline.ID.unmarshalText_nil] at read
    cases read
  · rw [Pipeline.ID.unmarshalText_asString (valid p' listed)] at read
    cases read
    exact ⟨listed, rfl⟩

theorem mem_read {p : Pipeline.ID} :
    p ∈ (strIDs pipelineIDs).filterMap (fun text => (Pipeline.ID.unmarshalText text).toOption) ↔ p ∈ pipelineIDs := by
  rw [mem_filterMap]
  constructor
  · rintro ⟨text, mem, read⟩
    exact (read_strIDs valid mem read).1
  · intro listed
    refine ⟨p.asString, mem_strIDs.mpr (Or.inr ⟨p, listed, rfl⟩), ?_⟩
    rw [Pipeline.ID.unmarshalText_asString (valid p listed)]
    rfl

theorem read_nodup : ((strIDs pipelineIDs).filterMap fun text => (Pipeline.ID.unmarshalText text).toOption).Nodup := by
  rw [List.Nodup, pairwise_filterMap]
  apply List.Pairwise.imp_of_mem _ sortedSet_nodup
  intro text text' mem mem' different p read p' read' same
  exact different (by rw [(read_strIDs valid mem read).2, (read_strIDs valid mem' read').2, same])

end

/-- However an InstanceID is made, AllPipelineIDs yields each of its pipelines once, and two of one component and kind
are the same iff their sets are. -/
theorem instanceID_denotes_set (valid : ∀ p ∈ first ++ calls.flatten, p.Valid) (valid' : ∀ p ∈ first' ++ calls'.flatten, p.Valid) :
    (∃ yielded : List Pipeline.ID, yielded.Nodup ∧ (∀ p, p ∈ yielded ↔ p ∈ first ++ calls.flatten) ∧
      ∀ (σ : Type) (f : Pipeline.ID → σ → σ × Bool) (s : σ),
        (made componentID kind first calls).allPipelineIDs f s = visit f yielded s) ∧
    (made componentID kind first calls = made componentID kind first' calls' ↔
      ∀ p, p ∈ first ++ calls.flatten ↔ p ∈ first' ++ calls'.flatten) := by
  rw [made_eq valid, made_eq valid']
  constructor
  · refine ⟨_, read_nodup valid, fun p => mem_read valid, ?_⟩
    intro σ f s
    exact allLoop_delimited (strIDs_plain valid) s
  · rw [InstanceID.mk.injEq, and_iff_right rfl, and_iff_right rfl, delimited_inj (strIDs_plain valid) (strIDs_plain valid')]
    constructor
    · intro same p
      rw [← mem_read valid, same, mem_read valid']
    · intro same
      rw [strIDs, strIDs, sortedSet_eq_iff]
      intro text
      simp only [mem_cons, mem_map, same]

end

attribute [local instance] Component.asciiClasses

/-- Two pipelines, the name of one of which is the beginning of the other's. -/
theorem instanceID_denotes_set_two :
    made ⟨[98], []⟩ .processor [⟨.traces, [97]⟩] [[⟨.traces, [97, 98]⟩, ⟨.traces, [97]⟩]] =
      made ⟨[98], []⟩ .processor [⟨.traces, [97, 98]⟩] [[⟨.traces, [97]⟩], []] :=
  (instanceID_denotes_set (by simp [Pipeline.ID.Valid]; decide) (by simp [Pipeline.ID.Valid]; decide)).2.mpr (by simp [or_comm])

end set

end CollectorFormal.Componentstatus
