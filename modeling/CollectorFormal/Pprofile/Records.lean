import CollectorFormal.Pprofile.Dictionary
import Mathlib.Data.List.Forall2

/-! Records of profiles whose references are replaced or compared one by one. -/

namespace CollectorFormal.Pprofile.Merge

open List
open Client (Text)

section records
variable {S S' A A' F F' M M' L L' K K' T T' V V' P P' X Y : Type}

structure KeyValueAndUnit.Rel (onString : S → S' → Prop) (onValue : V → V' → Prop) (ms : KeyValueAndUnit S V)
    (ms' : KeyValueAndUnit S' V') : Prop where
  key : onString ms.key ms'.key
  unit : onString ms.unit ms'.unit
  value : onValue ms.value ms'.value

structure Function.Rel (onString : S → S' → Prop) (fn : Function S) (fn' : Function S') : Prop where
  name : onString fn.name fn'.name
  systemName : onString fn.systemName fn'.systemName
  filename : onString fn.filename fn'.filename
  startLine : fn.startLine = fn'.startLine

structure Mapping.Rel (onString : S → S' → Prop) (onAttribute : A → A' → Prop) (ms : Mapping S A)
    (ms' : Mapping S' A') : Prop where
  filename : onString ms.filename ms'.filename
  attributes : List.Forall₂ onAttribute ms.attributes ms'.attributes
  memoryStart : ms.memoryStart = ms'.memoryStart
  memoryLimit : ms.memoryLimit = ms'.memoryLimit
  fileOffset : ms.fileOffset = ms'.fileOffset

structure Line.Rel (onFunction : F → F' → Prop) (l : Line F) (l' : Line F') : Prop where
  function : onFunction l.function l'.function
  line : l.line = l'.line
  column : l.column = l'.column

structure Location.Rel (onMapping : M → M' → Prop) (onAttribute : A → A' → Prop) (onFunction : F → F' → Prop)
    (ms : Location M A F) (ms' : Location M' A' F') : Prop where
  mapping : onMapping ms.mapping ms'.mapping
  attributes : List.Forall₂ onAttribute ms.attributes ms'.attributes
  lines : List.Forall₂ (Line.Rel onFunction) ms.lines ms'.lines
  address : ms.address = ms'.address

structure Stack.Rel (onLocation : L → L' → Prop) (ms : Stack L) (ms' : Stack L') : Prop where
  locations : List.Forall₂ onLocation ms.locations ms'.locations

structure ValueType.Rel (onString : S → S' → Prop) (ms : ValueType S) (ms' : ValueType S') : Prop where
  type : onString ms.type ms'.type
  unit : onString ms.unit ms'.unit

structure Sample.Rel (onAttribute : A → A' → Prop) (onLink : K → K' → Prop) (onStack : T → T' → Prop)
    (ms : Sample A K T) (ms' : Sample A' K' T') : Prop where
  attributes : List.Forall₂ onAttribute ms.attributes ms'.attributes
  link : onLink ms.link ms'.link
  stack : onStack ms.stack ms'.stack
  values : ms.values = ms'.values
  timestampsUnixNano : ms.timestampsUnixNano = ms'.timestampsUnixNano

structure Profile.Rel (onString : S → S' → Prop) (onAttribute : A → A' → Prop) (onLink : K → K' → Prop)
    (onStack : T → T' → Prop) (ms : Profile S A K T) (ms' : Profile S' A' K' T') : Prop where
  attributes : List.Forall₂ onAttribute ms.attributes ms'.attributes
  samples : List.Forall₂ (Sample.Rel onAttribute onLink onStack) ms.samples ms'.samples
  periodType : ms.periodType.Rel onString ms'.periodType
  sampleType : ms.sampleType.Rel onString ms'.sampleType
  header : ms.header = ms'.header

structure ScopeProfiles.Rel (onProfile : P → P' → Prop) (ms : ScopeProfiles Y P) (ms' : ScopeProfiles Y P') :
    Prop where
  profiles : List.Forall₂ onProfile ms.profiles ms'.profiles
  scope : ms.scope = ms'.scope
  schemaURL : ms.schemaURL = ms'.schemaURL

structure ResourceProfiles.Rel (onProfile : P → P' → Prop) (ms : ResourceProfiles X Y P)
    (ms' : ResourceProfiles X Y P') : Prop where
  scopeProfiles : List.Forall₂ (ScopeProfiles.Rel onProfile) ms.scopeProfiles ms'.scopeProfiles
  resource : ms.resource = ms'.resource
  schemaURL : ms.schemaURL = ms'.schemaURL

section imp
variable {onString onString' : S → S' → Prop} {onAttribute onAttribute' : A → A' → Prop}
  {onFunction onFunction' : F → F' → Prop} {onMapping onMapping' : M → M' → Prop}
  {onLocation onLocation' : L → L' → Prop} {onLink onLink' : K → K' → Prop} {onStack onStack' : T → T' → Prop}
  {onProfile onProfile' : P → P' → Prop}
  (strings : ∀ i j, onString i j → onString' i j) (attributes : ∀ i j, onAttribute i j → onAttribute' i j)
  (functions : ∀ i j, onFunction i j → onFunction' i j) (mappings : ∀ i j, onMapping i j → onMapping' i j)
  (locations : ∀ i j, onLocation i j → onLocation' i j) (links : ∀ i j, onLink i j → onLink' i j)
  (stackIndices : ∀ i j, onStack i j → onStack' i j) (profiles : ∀ p q, onProfile p q → onProfile' p q)

include strings

theorem KeyValueAndUnit.Rel.imp {onValue onValue' : V → V' → Prop} (values : ∀ v w, onValue v w → onValue' v w)
    {ms : KeyValueAndUnit S V} {ms' : KeyValueAndUnit S' V'} (rel : ms.Rel onString onValue ms') :
    ms.Rel onString' onValue' ms' :=
  ⟨strings _ _ rel.key, strings _ _ rel.unit, values _ _ rel.value⟩

theorem Function.Rel.imp {fn : Function S} {fn' : Function S'} (rel : fn.Rel onString fn') : fn.Rel onString' fn' :=
  ⟨strings _ _ rel.name, strings _ _ rel.systemName, strings _ _ rel.filename, rel.startLine⟩

theorem ValueType.Rel.imp {ms : ValueType S} {ms' : ValueType S'} (rel : ms.Rel onString ms') : ms.Rel onString' ms' :=
  ⟨strings _ _ rel.type, strings _ _ rel.unit⟩

include attributes

theorem Mapping.Rel.imp {ms : Mapping S A} {ms' : Mapping S' A'} (rel : ms.Rel onString onAttribute ms') :
    ms.Rel onString' onAttribute' ms' :=
  { rel with filename := strings _ _ rel.filename, attributes := rel.attributes.imp attributes }

omit strings attributes

include functions in
theorem Line.Rel.imp {l : Line F} {l' : Line F'} (rel : l.Rel onFunction l') : l.Rel onFunction' l' :=
  { rel with function := functions _ _ rel.function }

include mappings attributes functions in
theorem Location.Rel.imp {ms : Location M A F} {ms' : Location M' A' F'}
    (rel : ms.Rel onMapping onAttribute onFunction ms') : ms.Rel onMapping' onAttribute' onFunction' ms' :=
  { rel with
    mapping := mappings _ _ rel.mapping
    attributes := rel.attributes.imp attributes
    lines := rel.lines.imp fun _ _ line => line.imp functions }

include locations in
theorem Stack.Rel.imp {ms : Stack L} {ms' : Stack L'} (rel : ms.Rel onLocation ms') : ms.Rel onLocation' ms' :=
  ⟨rel.locations.imp locations⟩

include attributes links stackIndices in
theorem Sample.Rel.imp {ms : Sample A K T} {ms' : Sample A' K' T'} (rel : ms.Rel onAttribute onLink onStack ms') :
    ms.Rel onAttribute' onLink' onStack' ms' :=
  { rel with
    attributes := rel.attributes.imp attributes
    link := links _ _ rel.link
    stack := stackIndices _ _ rel.stack }

include strings attributes links stackIndices in
theorem Profile.Rel.imp {ms : Profile S A K T} {ms' : Profile S' A' K' T'}
    (rel : ms.Rel onString onAttribute onLink onStack ms') : ms.Rel onString' onAttribute' onLink' onStack' ms' :=
  { rel with
    attributes := rel.attributes.imp attributes
    samples := rel.samples.imp fun _ _ sample => sample.imp attributes links stackIndices
    periodType := rel.periodType.imp strings
    sampleType := rel.sampleType.imp strings }

include profiles in
theorem ScopeProfiles.Rel.imp {ms : ScopeProfiles Y P} {ms' : ScopeProfiles Y P'} (rel : ms.Rel onProfile ms') :
    ms.Rel onProfile' ms' :=
  { rel with profiles := rel.profiles.imp profiles }

include profiles in
theorem ResourceProfiles.Rel.imp {ms : ResourceProfiles X Y P} {ms' : ResourceProfiles X Y P'}
    (rel : ms.Rel onProfile ms') : ms.Rel onProfile' ms' :=
  { rel with scopeProfiles := rel.scopeProfiles.imp fun _ _ scope => scope.imp profiles }

end imp

end records

section records
variable {S S' S'' A A' A'' F F' F'' M M' M'' L L' L'' K K' K'' T T' T'' V V' V'' P P' P'' X Y : Type}

theorem map_eq_map_iff {α β γ : Type} {f : α → γ} {g : β → γ} {as : List α} {bs : List β} :
    as.map f = bs.map g ↔ List.Forall₂ (fun a b => f a = g b) as bs := by
  rw [← forall₂_map_right_iff, ← forall₂_map_left_iff, forall₂_eq_eq_eq]

def KeyValueAndUnit.map (f : S → S') (g : V → V') (ms : KeyValueAndUnit S V) : KeyValueAndUnit S' V' :=
  { key := f ms.key, value := g ms.value, unit := f ms.unit }

variable {f : S → S''} {f' : S' → S''}

theorem KeyValueAndUnit.map_eq_iff {g : V → V''} {g' : V' → V''}
    {ms : KeyValueAndUnit S V} {ms' : KeyValueAndUnit S' V'} :
    ms.map f g = ms'.map f' g' ↔ ms.Rel (fun i j => f i = f' j) (fun v w => g v = g' w) ms' := by
  rw [map, map, KeyValueAndUnit.mk.injEq]
  exact ⟨fun ⟨key, value, unit⟩ => ⟨key, unit, value⟩, fun ⟨key, unit, value⟩ => ⟨key, value, unit⟩⟩

def Function.map (f : S → S') (fn : Function S) : Function S' :=
  { fn with name := f fn.name, systemName := f fn.systemName, filename := f fn.filename }

theorem Function.map_eq_iff {fn : Function S} {fn' : Function S'} :
    fn.map f = fn'.map f' ↔ fn.Rel (fun i j => f i = f' j) fn' := by
  rw [map, map, Function.mk.injEq]
  exact ⟨fun ⟨a, b, c, d⟩ => ⟨a, b, c, d⟩, fun ⟨a, b, c, d⟩ => ⟨a, b, c, d⟩⟩

def Mapping.map (f : S → S') (g : A → A') (ms : Mapping S A) : Mapping S' A' :=
  { ms with filename := f ms.filename, attributes := ms.attributes.map g }

theorem Mapping.map_eq_iff {g : A → A''} {g' : A' → A''} {ms : Mapping S A} {ms' : Mapping S' A'} :
    ms.map f g = ms'.map f' g' ↔ ms.Rel (fun i j => f i = f' j) (fun i j => g i = g' j) ms' := by
  rw [map, map, Mapping.mk.injEq, map_eq_map_iff]
  exact ⟨fun ⟨a, b, c, d, e⟩ => ⟨d, e, a, b, c⟩, fun ⟨d, e, a, b, c⟩ => ⟨a, b, c, d, e⟩⟩

def Line.map (f : F → F') (l : Line F) : Line F' := { l with function := f l.function }

theorem Line.map_eq_iff {f : F → F''} {f' : F' → F''} {l : Line F} {l' : Line F'} :
    l.map f = l'.map f' ↔ l.Rel (fun i j => f i = f' j) l' := by
  rw [map, map, Line.mk.injEq]
  exact ⟨fun ⟨a, b, c⟩ => ⟨a, b, c⟩, fun ⟨a, b, c⟩ => ⟨a, b, c⟩⟩

def Location.map (f : M → M') (g : A → A') (h : F → F') (ms : Location M A F) : Location M' A' F' :=
  { ms with mapping := f ms.mapping, attributes := ms.attributes.map g, lines := ms.lines.map (Line.map h) }

theorem Location.map_eq_iff {f : M → M''} {f' : M' → M''} {g : A → A''} {g' : A' → A''} {h : F → F''} {h' : F' → F''}
    {ms : Location M A F} {ms' : Location M' A' F'} :
    ms.map f g h = ms'.map f' g' h' ↔
      ms.Rel (fun i j => f i = f' j) (fun i j => g i = g' j) (fun i j => h i = h' j) ms' := by
  rw [map, map, Location.mk.injEq, map_eq_map_iff, map_eq_map_iff]
  simp only [Line.map_eq_iff]
  exact ⟨fun ⟨a, b, c, d⟩ => ⟨a, d, c, b⟩, fun ⟨a, d, c, b⟩ => ⟨a, b, c, d⟩⟩

def Stack.map (f : L → L') (ms : Stack L) : Stack L' := { locations := ms.locations.map f }

theorem Stack.map_eq_iff {f : L → L''} {f' : L' → L''} {ms : Stack L} {ms' : Stack L'} :
    ms.map f = ms'.map f' ↔ ms.Rel (fun i j => f i = f' j) ms' := by
  rw [map, map, Stack.mk.injEq, map_eq_map_iff]
  exact ⟨fun locations => ⟨locations⟩, fun ⟨locations⟩ => locations⟩

def ValueType.map (f : S → S') (ms : ValueType S) : ValueType S' := { type := f ms.type, unit := f ms.unit }

theorem ValueType.map_eq_iff {ms : ValueType S} {ms' : ValueType S'} :
    ms.map f = ms'.map f' ↔ ms.Rel (fun i j => f i = f' j) ms' := by
  rw [map, map, ValueType.mk.injEq]
  exact ⟨fun ⟨a, b⟩ => ⟨a, b⟩, fun ⟨a, b⟩ => ⟨a, b⟩⟩

def Sample.map (f : A → A') (g : K → K') (h : T → T') (ms : Sample A K T) : Sample A' K' T' :=
  { ms with attributes := ms.attributes.map f, link := g ms.link, stack := h ms.stack }

theorem Sample.map_eq_iff {f : A → A''} {f' : A' → A''} {g : K → K''} {g' : K' → K''} {h : T → T''} {h' : T' → T''}
    {ms : Sample A K T} {ms' : Sample A' K' T'} :
    ms.map f g h = ms'.map f' g' h' ↔
      ms.Rel (fun i j => f i = f' j) (fun i j => g i = g' j) (fun i j => h i = h' j) ms' := by
  rw [map, map, Sample.mk.injEq, map_eq_map_iff]
  exact ⟨fun ⟨a, b, c, d, e⟩ => ⟨b, c, a, d, e⟩, fun ⟨b, c, a, d, e⟩ => ⟨a, b, c, d, e⟩⟩

def Profile.map (e : S → S') (f : A → A') (g : K → K') (h : T → T') (ms : Profile S A K T) : Profile S' A' K' T' :=
  { ms with
    attributes := ms.attributes.map f
    samples := ms.samples.map (Sample.map f g h)
    periodType := ms.periodType.map e
    sampleType := ms.sampleType.map e }

theorem Profile.map_eq_iff {e : S → S''} {e' : S' → S''} {f : A → A''} {f' : A' → A''} {g : K → K''} {g' : K' → K''}
    {h : T → T''} {h' : T' → T''} {ms : Profile S A K T} {ms' : Profile S' A' K' T'} :
    ms.map e f g h = ms'.map e' f' g' h' ↔
      ms.Rel (fun i j => e i = e' j) (fun i j => f i = f' j) (fun i j => g i = g' j) (fun i j => h i = h' j) ms' := by
  rw [map, map, Profile.mk.injEq, map_eq_map_iff, map_eq_map_iff, ValueType.map_eq_iff, ValueType.map_eq_iff]
  simp only [Sample.map_eq_iff]
  exact ⟨fun ⟨a, b, c, d, e⟩ => ⟨e, c, d, b, a⟩, fun ⟨e, c, d, b, a⟩ => ⟨a, b, c, d, e⟩⟩

def ScopeProfiles.map (f : P → P') (ms : ScopeProfiles Y P) : ScopeProfiles Y P' :=
  { ms with profiles := ms.profiles.map f }

theorem ScopeProfiles.map_eq_iff {f : P → P''} {f' : P' → P''} {ms : ScopeProfiles Y P} {ms' : ScopeProfiles Y P'} :
    ms.map f = ms'.map f' ↔ ms.Rel (fun p q => f p = f' q) ms' := by
  rw [map, map, ScopeProfiles.mk.injEq, map_eq_map_iff]
  exact ⟨fun ⟨a, b, c⟩ => ⟨b, a, c⟩, fun ⟨b, a, c⟩ => ⟨a, b, c⟩⟩

def ResourceProfiles.map (f : P → P') (ms : ResourceProfiles X Y P) : ResourceProfiles X Y P' :=
  { ms with scopeProfiles := ms.scopeProfiles.map (ScopeProfiles.map f) }

theorem ResourceProfiles.map_eq_iff {f : P → P''} {f' : P' → P''} {ms : ResourceProfiles X Y P}
    {ms' : ResourceProfiles X Y P'} : ms.map f = ms'.map f' ↔ ms.Rel (fun p q => f p = f' q) ms' := by
  rw [map, map, ResourceProfiles.mk.injEq, map_eq_map_iff]
  simp only [ScopeProfiles.map_eq_iff]
  exact ⟨fun ⟨a, b, c⟩ => ⟨b, a, c⟩, fun ⟨b, a, c⟩ => ⟨a, b, c⟩⟩

end records

end CollectorFormal.Pprofile.Merge
