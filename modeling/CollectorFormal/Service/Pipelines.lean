import CollectorFormal.Component

/-! Pipelines as they are configured. -/

namespace CollectorFormal.Pipeline

open Client (Text)

inductive Signal where
  | traces
  | metrics
  | logs
  | profiles
deriving DecidableEq, Repr

/-- pipeline.ID -/
structure ID where
  signal : Signal
  /-- Empty if there is none. -/
  name : Text
deriving DecidableEq, Repr

/-- The texts are those of ASCII. -/
def Signal.name : Signal → Text
  | .traces => [116, 114, 97, 99, 101, 115]
  | .metrics => [109, 101, 116, 114, 105, 99, 115]
  | .logs => [108, 111, 103, 115]
  | .profiles => [112, 114, 111, 102, 105, 108, 101, 115]

def Signal.unmarshalText (text : Text) : Option Signal :=
  if text = Signal.profiles.name then some .profiles
  else if text = Signal.traces.name then some .traces
  else if text = Signal.metrics.name then some .metrics
  else if text = Signal.logs.name then some .logs
  else none

inductive IDError where
  /-- in %q id: the part before / should not be empty -/
  | emptySignal (idStr : Text)
  /-- id must not be empty -/
  | emptyID
  /-- in %q id: the part after / should not be empty -/
  | emptyName (idStr : Text)
  /-- in %q id: %w -/
  | invalidName (nameStr : Text) (err : Component.IDError)
  /-- in %q id: unknown pipeline signal: %q -/
  | unknownSignal (idStr text : Text)

namespace ID

open Component (slash validateName Unicode)
open Component.Unicode

variable [Unicode]

def unmarshalName (idStr : Text) : Option Text → Except IDError Text
  | none => .ok []
  | some nameStr =>
    let nameStr := trimSpace nameStr
    if nameStr = [] then .error (.emptyName idStr)
    else
      match validateName nameStr with
      | .ok () => .ok nameStr
      | .error err => .error (.invalidName nameStr err)

def unmarshalText (text : Text) : Except IDError ID :=
  let (signalStr, nameStr) := Component.ID.cutName text
  let signalStr := trimSpace signalStr
  if signalStr = [] then .error (if nameStr.isSome then .emptySignal text else .emptyID)
  else
    match unmarshalName text nameStr with
    | .error err => .error err
    | .ok name =>
      match Signal.unmarshalText signalStr with
      | none => .error (.unknownSignal text signalStr)
      | some signal => .ok ⟨signal, name⟩

def asString (id : ID) : Text := if id.name = [] then id.signal.name else id.signal.name ++ slash :: id.name

def Valid (id : ID) : Prop := id.name = [] ∨ id.name.length ≤ 1024 ∧ isName id.name = true

omit [Unicode] in
theorem signal_apart (signal : Signal) :
    signal.name ≠ [] ∧ (∀ c ∈ signal.name, Component.isSpace c = false ∧ c < 128) ∧ slash ∉ signal.name := by
  cases signal <;> decide +kernel

omit [Unicode] in
theorem signal_unmarshalText (signal : Signal) : Signal.unmarshalText signal.name = some signal := by
  cases signal <;> rfl

theorem unmarshalText_asString {id : ID} (valid : id.Valid) : unmarshalText id.asString = .ok id := by
  obtain ⟨nonempty, spaces, absent⟩ := signal_apart id.signal
  obtain ⟨signal, name⟩ := id
  rcases valid with rfl | ⟨short, named⟩
  · rw [unmarshalText, asString, if_pos rfl, Component.ID.cutName, Lib.cut_none absent]
    simp only [trimSpace_ascii _ spaces, if_neg nonempty, unmarshalName, signal_unmarshalText]
  · have some := (name_apart _ named).1
    have checked : validateName name = .ok () := by
      rw [validateName, if_neg (Nat.not_lt_of_le short), if_pos named]
    rw [unmarshalText, asString, if_neg some, Component.ID.cutName, Lib.cut_append absent]
    simp only [trimSpace_ascii _ spaces, if_neg nonempty, unmarshalName, trimSpace_name _ named, if_neg some, checked,
      signal_unmarshalText]

theorem unmarshalText_nil : unmarshalText [] = .error .emptyID := by
  rw [unmarshalText, Component.ID.cutName, Lib.cut]
  simp only [trimSpace_ascii [] fun _ member => absurd member List.not_mem_nil]
  rfl

theorem isSpace_asString {id : ID} (valid : id.Valid) : ∀ c ∈ id.asString, Component.isSpace c = false := by
  obtain ⟨_, spaces, _⟩ := signal_apart id.signal
  rw [asString]
  split
  · exact fun c mem => (spaces c mem).1
  · next some =>
      have clean := (name_apart _ (valid.resolve_left some).2).2
      intro c mem
      rcases List.mem_append.mp mem with first | last
      · exact (spaces c first).1
      · rcases List.mem_cons.mp last with rfl | inName
        · decide
        · exact clean c inName

end ID

structure PipelineConfig where
  receivers : List Component.ID
  processors : List Component.ID
  exporters : List Component.ID
deriving DecidableEq

/-- pipelines.Config, with the pipelines in some order. -/
abbrev Config := List (ID × PipelineConfig)

end CollectorFormal.Pipeline
