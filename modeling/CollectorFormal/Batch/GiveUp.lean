import CollectorFormal.Batch.Items

/-! When splitting logs or traces by bytes gives up: when an extraction takes no record.

The record in front need not be too large: resources and scopes without records take bytes before it, and each level
puts aside the length it would have if it took all the capacity. -/

namespace CollectorFormal.Batch

open Lib List Envelope

variable {R S L H C : Type}

section points
variable (count : C → Nat) (size : C → Int) (inside : C → Int → Nat)

/-- How many items are taken from a list, `inside` of them from the child that is cut. -/
def takenFrom (capacity : Int) (list : List C) : Nat :=
  itemsOf count (fitting size capacity list) + (cutAt size capacity list).elim 0 fun place => inside place.1 place.2

variable {count size inside} {extract : C → Int → Extracted C} {length : C → Nat} {empty : C}

theorem takeGroup_takenFrom (nothing : length empty = 0) (without : ∀ src, length src = 0 → count src = 0)
    (cut : ∀ src left, count (extract src left).dest = inside src left) (capacity : Int) (list : List C) :
    itemsOf count (removeIf (takeGroup protoDelta size extract length empty) { capacityLeft := capacity } list).1.dest =
      takenFrom count size inside capacity list := by
  rw [takeGroup_dest nothing, nil_append, itemsOf_append, takenFrom]
  cases cutAt size capacity list with
  | none => rfl
  | some place =>
    have part : itemsOf count (cutOff extract length place) = count (extract place.1 place.2).dest :=
      cutOff_count without place.1 place.2
    simp [part, cut]

theorem takeRecord_takenFrom (capacity : Int) (list : List C) :
    itemsOf count (removeIf (takeRecord protoDelta size) { capacityLeft := capacity } list).1.dest =
      takenFrom count size (fun _ _ => 0) capacity list := by
  rw [(takeRecord_dest size _ list).1, nil_append, takenFrom]
  cases cutAt size capacity list with
  | none | some => rfl

end points

section room
variable (count : C → Nat) (size : C → Int) (cuts : C → Int → Prop)

/-- The first child with records has room behind those without, as a whole or, where it
can be cut, for a part of it. -/
def HasRoom : Int → List C → Prop
  | _, [] => False
  | capacity, src :: rest =>
    if count src = 0 then HasRoom (capacity - protoDelta (size src)) rest
    else protoDelta (size src) ≤ capacity ∨ cuts src capacity

def Envelope.HasRoom (headerSize : H → Int) (message : Envelope H C) (capacity : Int) : Prop :=
  Batch.HasRoom count size cuts (message.childCapacity headerSize size capacity) message.children

variable {count size cuts}

theorem HasRoom.positive (nonneg : ∀ src, 0 ≤ size src) (inside : ∀ src left, cuts src left → 0 < left)
    {capacity : Int} {list : List C} (room : HasRoom count size cuts capacity list) : 0 < capacity := by
  induction list generalizing capacity with
  | nil => exact room.elim
  | cons src rest ih =>
    have bytes := protoDelta_pos (nonneg src)
    rw [HasRoom] at room
    split at room
    · have := ih room
      omega
    · rcases room with whole | part
      · omega
      · exact inside src capacity part

theorem HasRoom.counted {capacity : Int} {list : List C} (room : HasRoom count size cuts capacity list) :
    itemsOf count list ≠ 0 := by
  induction list generalizing capacity with
  | nil => exact room.elim
  | cons src rest ih =>
    rw [HasRoom] at room
    rw [itemsOf_cons]
    split at room
    · have := ih room
      omega
    · omega

/-- An extract function takes records out of a message when `cuts` says so. -/
structure Cuts {D : Type} (count : D → Nat) (extract : D → Int → Extracted D) (cuts : D → Int → Prop) : Prop where
  takes : ∀ src capacity, count (extract src capacity).dest ≠ 0 ↔ cuts src capacity
  counted : ∀ src capacity, cuts src capacity → count src ≠ 0
  positive : ∀ src capacity, cuts src capacity → 0 < capacity

theorem takenFrom_iff {inside : C → Int → Nat} (nonneg : ∀ src, 0 ≤ size src)
    (takes : ∀ src left, inside src left ≠ 0 ↔ cuts src left) (counted : ∀ src left, cuts src left → count src ≠ 0)
    (positive : ∀ src left, cuts src left → 0 < left) (capacity : Int) (list : List C) :
    takenFrom count size inside capacity list ≠ 0 ↔ HasRoom count size cuts capacity list := by
  induction list generalizing capacity with
  | nil => simp [takenFrom, fitting, cutAt, HasRoom, itemsOf]
  | cons src rest ih =>
    have bytes := protoDelta_pos (nonneg src)
    have behind : capacity < protoDelta (size src) →
        ¬HasRoom count size cuts (capacity - protoDelta (size src)) rest := by
      intro large room
      have := room.positive nonneg positive
      omega
    rw [takenFrom, fitting, cutAt, HasRoom]
    by_cases full : capacity = 0
    · have never : ¬(protoDelta (size src) ≤ capacity ∨ cuts src capacity) := by
        intro room
        rcases room with whole | part
        · omega
        · have := positive src capacity part
          omega
      simp only [if_pos full, if_pos (Or.inl full), itemsOf, map_nil, sum_nil, Option.elim_none, ne_eq,
        not_true, false_iff]
      split
      · exact behind (by omega)
      · exact never
    · by_cases large : protoDelta (size src) > capacity
      · have past := behind large
        have part := takes src capacity
        simp only [if_neg full, if_pos large, if_pos (Or.inr large), itemsOf, map_nil, sum_nil,
          Option.elim_some, Nat.zero_add, part]
        split
        · tauto
        · constructor
          · exact .inr
          · intro room
            exact room.resolve_left (by omega)
      · have later := ih (capacity - protoDelta (size src))
        simp only [if_neg full, if_neg large, if_neg (not_or_intro full large), itemsOf_cons]
        split
        · next none =>
            rw [none, Nat.zero_add]
            exact later
        · next some =>
            constructor
            · intro _
              exact .inl (by omega)
            · omega

theorem takeRecord_takes_iff (nonneg : ∀ src, 0 ≤ size src) (capacity : Int) (list : List C) :
    itemsOf count (removeIf (takeRecord protoDelta size) { capacityLeft := capacity } list).1.dest ≠ 0 ↔
      HasRoom count size (fun _ _ => False) capacity list := by
  rw [takeRecord_takenFrom]
  exact takenFrom_iff nonneg (by simp) (fun _ _ => False.elim) (fun _ _ => False.elim) capacity list

theorem takeGroup_takes_iff {extract : C → Int → Extracted C} {length : C → Nat} {empty : C}
    (nothing : length empty = 0) (without : ∀ src, length src = 0 → count src = 0) (nonneg : ∀ src, 0 ≤ size src)
    (cut : Cuts count extract cuts) (capacity : Int) (list : List C) :
    itemsOf count (removeIf (takeGroup protoDelta size extract length empty) { capacityLeft := capacity } list).1.dest ≠ 0 ↔
      HasRoom count size cuts capacity list := by
  rw [takeGroup_takenFrom nothing without fun _ _ => rfl]
  exact takenFrom_iff nonneg cut.takes cut.counted cut.positive capacity list

theorem Envelope.extract_cuts {headerSize : H → Int} (headers : ∀ header, 0 ≤ headerSize header)
    (nonneg : ∀ child, 0 ≤ size child) (inside : ∀ child left, cuts child left → 0 < left)
    {visit : Extraction C → C → Extraction C × C × Bool}
    (takes : ∀ capacity (list : List C), itemsOf count (removeIf visit { capacityLeft := capacity } list).1.dest ≠ 0 ↔
      Batch.HasRoom count size cuts capacity list) :
    Cuts (Envelope.count count) (Envelope.extract protoDelta (Envelope.sizeProto headerSize size) visit)
      (Envelope.HasRoom count size cuts headerSize) where
  takes src capacity := takes _ src.children
  counted src capacity room := room.counted
  positive src capacity room := by
    have inner := Batch.HasRoom.positive nonneg inside room
    have base := sizeProto_nonneg headers nonneg { src with children := [] }
    have length := sov_pos capacity
    unfold Envelope.childCapacity capacityIn protoDelta at inner
    omega

end room

section tree
variable (count : L → Nat) (wire : TreeWire R S L)

def ScopeHasRoom : Envelope S L → Int → Prop :=
  Envelope.HasRoom count wire.record (fun _ _ => False) wire.scope

def ResourceHasRoom : Envelope R (Envelope S L) → Int → Prop :=
  Envelope.HasRoom (Envelope.count count) (bytesSizer wire).scopeSize (ScopeHasRoom count wire) wire.resource

/-- The first record that counts has room in a batch of `maxSize` bytes, with its resource, its scope or alone. -/
def FirstHasRoom (maxSize : Int) (tree : List (Envelope R (Envelope S L))) : Prop :=
  HasRoom (Envelope.count (Envelope.count count)) (bytesSizer wire).resourceSize (ResourceHasRoom count wire) maxSize tree

/-- Some record, alone in its resource and scope, takes more than `maxSize` bytes. -/
def HasOversized (maxSize : Int) (tree : List (Envelope R (Envelope S L))) : Prop :=
  ∃ resource ∈ tree, ∃ scope ∈ resource.children, ∃ record ∈ scope.children,
    (bytesSizer wire).treeSize [{ resource with children := [{ scope with children := [record] }] }] > maxSize

instance HasOversized.decidable (maxSize : Int) (tree : List (Envelope R (Envelope S L))) :
    Decidable (HasOversized wire maxSize tree) :=
  inferInstanceAs (Decidable (∃ resource ∈ tree, ∃ scope ∈ resource.children, ∃ record ∈ scope.children, _ > maxSize))

variable {count wire} [Inhabited R] [Inhabited S]

theorem bytesSizer_extract_takes_iff (sizes : wire.Nonneg) (maxSize : Int) (tree : List (Envelope R (Envelope S L))) :
    itemsOf (Envelope.count (Envelope.count count)) (extractBytes wire tree maxSize).dest ≠ 0 ↔
      FirstHasRoom count wire maxSize tree := by
  have scopes := sizeProto_nonneg sizes.scope sizes.record
  have resources := sizeProto_nonneg sizes.resource scopes
  have scope : Cuts (Envelope.count count) (extractScope (bytesSizer wire)) (ScopeHasRoom count wire) :=
    extract_cuts sizes.scope sizes.record (fun _ _ => False.elim) (takeRecord_takes_iff sizes.record)
  have resource : Cuts (Envelope.count (Envelope.count count)) (extractResourceBytes wire) (ResourceHasRoom count wire) :=
    extract_cuts sizes.resource scopes scope.positive (takeGroup_takes_iff rfl count_childless scopes scope)
  calc
    _ ↔ FirstHasRoom count wire (maxSize - 0) tree :=
      @takeGroup_takes_iff _ _ _ _ _ (fun resource => resource.children.length) .new rfl count_childless
        resources resource (maxSize - 0) tree
    _ ↔ FirstHasRoom count wire maxSize tree := by rw [Int.sub_zero]

end tree

/-- An error comes only from a record that is too large alone iff there is such a record, or whenever an iteration has
more than `maxSize` bytes left, its first record has room. -/
theorem gives_up_only_for_oversized_iff [Inhabited R] [Inhabited S] (wire : TreeWire R S L) (sizes : wire.Nonneg)
    (maxSize : Int) :
    (∀ req : LogsRequest R S L,
      (((logsSplitter (logsBytesSizer wire)).split maxSize [] req).2 ≠ none → HasOversized wire maxSize req.data) ↔
        HasOversized wire maxSize req.data ∨
          ∀ state, (logsSplitter (logsBytesSizer wire)).Iterates maxSize ⟨[], req⟩ state →
            (state.req.sized (logsBytesSizer wire).treeSize).cachedSize > maxSize →
              FirstHasRoom (fun _ => 1) wire maxSize state.req.data) ∧
    ∀ req : TracesRequest R S L,
      (((tracesSplitter (tracesBytesSizer wire)).split maxSize [] req).2 ≠ none → HasOversized wire maxSize req.data) ↔
        HasOversized wire maxSize req.data ∨
          ∀ state, (tracesSplitter (tracesBytesSizer wire)).Iterates maxSize ⟨[], req⟩ state →
            (state.req.sized (tracesBytesSizer wire).treeSize).cachedSize > maxSize →
              FirstHasRoom (fun _ => 1) wire maxSize state.req.data := by
  have rooms {splitter : Splitter (Envelope R (Envelope S L)) (R × String × S × String × L)}
      (takes : ∀ data, splitter.count (splitter.extract data maxSize).dest ≠ 0 ↔ FirstHasRoom (fun _ => 1) wire maxSize data)
      (req : SignalRequest (Envelope R (Envelope S L))) :
      ((splitter.split maxSize [] req).2 ≠ none → HasOversized wire maxSize req.data) ↔
        HasOversized wire maxSize req.data ∨
          ∀ state, splitter.Iterates maxSize ⟨[], req⟩ state →
            (state.req.sized splitter.size).cachedSize > maxSize → FirstHasRoom (fun _ => 1) wire maxSize state.req.data := by
    have right : (splitter.split maxSize [] req).2 = none ↔ _ := splitter.split_right_iff [] req
    simp only [takes] at right
    rw [← right]
    tauto
  have takes (tree : List (Envelope R (Envelope S L))) :
      recordCount (extractLogs (logsBytesSizer wire) tree maxSize).dest ≠ 0 ↔ FirstHasRoom (fun _ => 1) wire maxSize tree := by
    rw [recordCount_eq_itemsOf]
    exact bytesSizer_extract_takes_iff sizes maxSize tree
  exact ⟨rooms takes, rooms takes⟩

/-- Records of 5 and 9 bytes: with a limit of 22 there is no error, and room for the first. -/
theorem gives_up_only_for_oversized_iff_room :
    FirstHasRoom (fun _ => 1) plainWire 22 [⟨(), "", [⟨(), "", [5, 9]⟩]⟩] := by
  have sizes : plainWire.Nonneg :=
    ⟨fun _ => le_refl 0, fun _ => le_refl 0, fun size => Int.natCast_nonneg size⟩
  have room := ((gives_up_only_for_oversized_iff plainWire sizes 22).1 ⟨[⟨(), "", [⟨(), "", [5, 9]⟩]⟩], -1⟩).mp
    fun err => absurd (by decide +kernel) err
  exact room.resolve_left (by decide +kernel) _ .start (by decide +kernel)

/-- An empty resource of 4 bytes, then a record that takes 19 bytes alone. -/
def behindEmpty : LogsRequest Unit Unit Nat := ⟨[⟨(), "", []⟩, ⟨(), "", [⟨(), "", [9]⟩]⟩], -1⟩

/-- The limit is 20: the record is dropped because of the empty resource in front of it. -/
theorem dropped_behind_empty :
    ((logsSplitter (logsBytesSizer plainWire)).split 20 [] behindEmpty).2 = some (.oversized "log record" 1) ∧
      ¬HasOversized plainWire 20 behindEmpty.data := by
  decide +kernel

end CollectorFormal.Batch
