import CollectorFormal.Lib.Assoc
import CollectorFormal.Pdata.AnyValue

/-! The context that is persisted with a request.

TraceState can be written as a string and read back, and strings.ToLower changes nothing a second time. -/

namespace CollectorFormal.Xpdata

open Lib
open Client (Text)
open Pdata

section context

/-- TraceState.String and ParseTraceState; the zero TraceState comes with an error. -/
structure TraceStates (TS : Type) [Inhabited TS] where
  string : TS → Text
  parse : Text → Option TS
  parse_string : ∀ state, parse (string state) = some state

structure SpanContext (TS : Type) where
  traceID : Vector UInt8 16
  spanID : Vector UInt8 8
  traceFlags : UInt8
  traceState : TS
  remote : Bool

def SpanContext.isValid {TS : Type} (spanCtx : SpanContext TS) : Bool :=
  spanCtx.traceID ≠ Vector.replicate 16 0 && spanCtx.spanID ≠ Vector.replicate 8 0

def SpanContext.zero {TS : Type} [Inhabited TS] : SpanContext TS :=
  ⟨Vector.replicate 16 0, Vector.replicate 8 0, 0, default, false⟩

/-- A net.Addr, of one of the types that are told apart or of some other. -/
inductive Addr where
  | ip (ip : List UInt8) (zone : Text)
  | tcp (ip : List UInt8) (port : Int64) (zone : Text)
  | udp (ip : List UInt8) (port : Int64) (zone : Text)
  | unix (name net : Text)
  | other (network string : Text)
  deriving DecidableEq

structure Lowering where
  toLower : Text → Text
  idempotent : ∀ text, toLower (toLower text) = toLower text

/-- Metadata as NewMetadata makes them, with names in lower case. -/
structure Metadata (lower : Lowering) extends Client.Metadata where
  distinct : (data.map Prod.fst).Nodup
  lowered : ∀ entry ∈ data, lower.toLower entry.1 = entry.1

variable {lower : Lowering}

def newMetadata (md : List (Text × List Text)) : Metadata lower where
  toMetadata := Client.newMetadata lower.toLower md
  distinct := List.foldlRecOn (motive := fun c : List (Text × List Text) => (c.map Prod.fst).Nodup) md _
    List.nodup_nil fun _ distinct _ _ => nodup_set distinct
  lowered := by
    refine List.foldlRecOn (motive := fun c : List (Text × List Text) =>
      ∀ entry ∈ c, lower.toLower entry.1 = entry.1) md _ (by simp) ?_
    intro map lowered entry _ other member
    rcases mem_set member with rfl | old
    · exact lower.idempotent entry.1
    · exact lowered other old

structure Info (lower : Lowering) where
  addr : Option Addr := none
  metadata : Metadata lower := newMetadata []

/-- What is read of a context: its span's context and the client's information. -/
structure Context (TS : Type) (lower : Lowering) where
  span : Option (SpanContext TS) := none
  client : Option (Info lower) := none

variable {TS : Type} [Inhabited TS]

def background : Context TS lower := {}

def spanContextFromContext (ctx : Context TS lower) : SpanContext TS := ctx.span.getD .zero

def fromContext (ctx : Context TS lower) : Info lower := ctx.client.getD {}

/-- The context as those see it who only ask for the metadata. -/
def Context.toClient (ctx : Context TS lower) : Client.Context := ⟨ctx.client.map fun info => info.metadata.toMetadata⟩

omit [Inhabited TS] in
theorem fromContext_toClient (ctx : Context TS lower) :
    Client.fromContext ctx.toClient = (fromContext ctx).metadata.toMetadata := by
  rw [Client.fromContext, Context.toClient, fromContext]
  cases ctx.client <;> rfl

end context

section messages

structure SpanContextProto where
  traceID : Vector UInt8 16
  spanID : Vector UInt8 8
  traceFlags : UInt32
  traceState : Text
  remote : Bool

inductive ClientAddress where
  | ip (ip : List UInt8) (zone : Text)
  | tcp (ip : List UInt8) (port : Int64) (zone : Text)
  | udp (ip : List UInt8) (port : Int64) (zone : Text)
  | unix (name net : Text)

structure RequestContext where
  spanContext : Option SpanContextProto := none
  clientMetadata : List KeyValue := []
  clientAddress : Option ClientAddress := none

end messages

section coding
variable {TS : Type} [Inhabited TS] {lower : Lowering} (states : TraceStates TS)

def encodeSpanContext (ctx : Context TS lower) : Option SpanContextProto :=
  let spanCtx := spanContextFromContext ctx
  if !spanCtx.isValid then none
  else some {
    traceID := spanCtx.traceID
    spanID := spanCtx.spanID
    traceFlags := spanCtx.traceFlags.toUInt32
    traceState := states.string spanCtx.traceState
    remote := spanCtx.remote }

/-- A single value is a string; no value and several values are an array. -/
def encodeValues : List Text → AnyValue
  | [value] => .stringValue value
  | vals => .arrayValue (vals.map .stringValue)

def encodeClientMetadata (ctx : Context TS lower) : List KeyValue :=
  let clientMetadata := (fromContext ctx).metadata
  clientMetadata.keys.map fun k => .mk k (encodeValues (clientMetadata.get lower.toLower k)) 0

def encodeClientAddress (ctx : Context TS lower) : Option ClientAddress :=
  match (fromContext ctx).addr with
  | some (.ip ip zone) => some (.ip ip zone)
  | some (.tcp ip port zone) => some (.tcp ip port zone)
  | some (.udp ip port zone) => some (.udp ip port zone)
  | some (.unix name net) => some (.unix name net)
  | some (.other _ _) => none
  | none => none

def encodeContext (ctx : Context TS lower) : RequestContext where
  spanContext := encodeSpanContext states ctx
  clientMetadata := encodeClientMetadata ctx
  clientAddress := encodeClientAddress ctx

def decodeSpanContext (ctx : Context TS lower) : Option SpanContextProto → Context TS lower
  | none => ctx
  | some sc =>
    { span := some {
        traceID := sc.traceID
        spanID := sc.spanID
        traceFlags := sc.traceFlags.toUInt8
        traceState := (states.parse sc.traceState).getD default
        remote := sc.remote } }

def decodeValues : AnyValue → Option (List Text)
  | .stringValue value => some [value]
  | .arrayValue values => some (values.map AnyValue.getStringValue)
  | _ => none

def decodeEntry (metadataMap : List (Text × List Text)) (kv : KeyValue) : List (Text × List Text) :=
  match decodeValues kv.value with
  | some values => set kv.key values metadataMap
  | none => metadataMap

def decodeClientMetadata (clientMetadata : List KeyValue) : List (Text × List Text) :=
  clientMetadata.foldl decodeEntry []

def decodeClientAddress (rc : RequestContext) : Option Addr :=
  match rc.clientAddress with
  | some (.ip ip zone) => some (.ip ip zone)
  | some (.tcp ip port zone) => some (.tcp ip port zone)
  | some (.udp ip port zone) => some (.udp ip port zone)
  | some (.unix name net) => some (.unix name net)
  | none => none

def decodeContext (ctx : Context TS lower) : Option RequestContext → Context TS lower
  | none => ctx
  | some rc =>
    let ctx := decodeSpanContext states ctx rc.spanContext
    let metadataMap := decodeClientMetadata rc.clientMetadata
    let clientAddress := decodeClientAddress rc
    if metadataMap.length > 0 || clientAddress.isSome then
      { ctx with client := some { addr := clientAddress, metadata := newMetadata metadataMap } }
    else ctx

end coding

section roundtrip
variable {TS : Type} [Inhabited TS] {lower : Lowering} {states : TraceStates TS}

def Addr.known : Addr → Bool
  | .other _ _ => false
  | _ => true

/-- Two contexts tell the same: a valid span context or none, the same metadata and the same address. -/
structure SameContext (ctx decoded : Context TS lower) : Prop where
  valid : (spanContextFromContext decoded).isValid = (spanContextFromContext ctx).isValid
  span : (spanContextFromContext ctx).isValid = true → spanContextFromContext decoded = spanContextFromContext ctx
  metadata : ∀ key, find key (fromContext decoded).metadata.data = find key (fromContext ctx).metadata.data
  addr : (fromContext decoded).addr = (fromContext ctx).addr.filter Addr.known

theorem Metadata.get_of_mem (m : Metadata lower) {entry : Text × List Text} (member : entry ∈ m.data) :
    m.get lower.toLower entry.1 = entry.2 := by
  rw [Client.Metadata.get_eq, m.lowered entry member, find_of_mem m.distinct member, Option.getD_some]

theorem decodeValues_encodeValues (values : List Text) : decodeValues (encodeValues values) = some values := by
  have strings : (values.map AnyValue.stringValue).map AnyValue.getStringValue = values := by
    simp [Function.comp_def, AnyValue.getStringValue]
  cases values with
  | nil => rfl
  | cons first rest =>
    cases rest with
    | nil => rfl
    | cons second rest => exact congrArg some strings

omit [Inhabited TS] in
theorem decodeClientMetadata_encode (ctx : Context TS lower) :
    decodeClientMetadata (encodeClientMetadata ctx) = (fromContext ctx).metadata.data := by
  have each : ∀ map, ∀ entry ∈ (fromContext ctx).metadata.data,
      decodeEntry map (.mk entry.1 (encodeValues ((fromContext ctx).metadata.get lower.toLower entry.1)) 0) =
        set entry.1 entry.2 map := by
    intro map entry member
    simp only [decodeEntry, KeyValue.value, KeyValue.key, Metadata.get_of_mem _ member, decodeValues_encodeValues]
  rw [decodeClientMetadata, encodeClientMetadata, Client.Metadata.keys, List.map_map, List.foldl_map]
  exact (List.foldl_ext _ _ _ each).trans (foldl_set (fromContext ctx).metadata.distinct)

theorem newMetadata_data (m : Metadata lower) : (newMetadata m.data : Metadata lower).data = m.data := by
  have each : ∀ map, ∀ entry ∈ m.data, set (lower.toLower entry.1) entry.2 map = set entry.1 entry.2 map := by
    intro map entry member
    rw [m.lowered entry member]
  exact (List.foldl_ext _ _ _ each).trans (foldl_set m.distinct)

theorem decodeSpanContext_encode (ctx : Context TS lower) :
    decodeSpanContext states (background : Context TS lower) (encodeSpanContext states ctx) =
      if (spanContextFromContext ctx).isValid then { span := some (spanContextFromContext ctx) } else background := by
  unfold encodeSpanContext
  cases valid : (spanContextFromContext ctx).isValid with
  | false => simp [valid, decodeSpanContext]
  | true => simp [valid, decodeSpanContext, states.parse_string]

theorem decodeClientAddress_encode (ctx : Context TS lower) :
    decodeClientAddress (encodeContext states ctx) = (fromContext ctx).addr.filter Addr.known := by
  simp only [decodeClientAddress, encodeContext, encodeClientAddress]
  cases (fromContext ctx).addr with
  | none => rfl
  | some addr => cases addr <;> rfl

theorem zero_invalid : (SpanContext.zero : SpanContext TS).isValid = false := by
  simp [SpanContext.isValid, SpanContext.zero]

theorem decodeContext_span (ctx : Context TS lower) (rc : RequestContext) :
    (decodeContext states ctx (some rc)).span = (decodeSpanContext states ctx rc.spanContext).span := by
  simp only [decodeContext]
  split <;> rfl

theorem decodeContext_client (rc : RequestContext) {decoded : Context TS lower}
    (done : decodeContext states background (some rc) = decoded) :
    (fromContext decoded).metadata.data = (newMetadata (decodeClientMetadata rc.clientMetadata) : Metadata lower).data ∧
      (fromContext decoded).addr = decodeClientAddress rc := by
  have client : (decodeSpanContext states (background : Context TS lower) rc.spanContext).client = none := by
    cases rc.spanContext <;> rfl
  subst done
  simp only [decodeContext]
  split
  · exact ⟨rfl, rfl⟩
  · next nothing =>
      simp only [Bool.or_eq_true, decide_eq_true_eq, not_or, Nat.pos_iff_ne_zero, ne_eq, not_not,
        List.length_eq_zero_iff, Bool.not_eq_true, Option.isSome_eq_false_iff, Option.isNone_iff_eq_none] at nothing
      rw [fromContext, client, nothing.1, nothing.2]
      exact ⟨rfl, rfl⟩

theorem decodeContext_encode (ctx : Context TS lower) {decoded : Context TS lower}
    (done : decodeContext states background (some (encodeContext states ctx)) = decoded) :
    SameContext ctx decoded := by
  have span : decoded.span =
      if (spanContextFromContext ctx).isValid then some (spanContextFromContext ctx) else none := by
    rw [← done, decodeContext_span]
    simp only [encodeContext, decodeSpanContext_encode]
    split <;> rfl
  obtain ⟨metadata, addr⟩ := decodeContext_client (encodeContext states ctx) done
  have entries : decodeClientMetadata (encodeContext states ctx).clientMetadata =
      (fromContext ctx).metadata.data := decodeClientMetadata_encode ctx
  constructor
  · rw [spanContextFromContext, span]
    cases valid : (spanContextFromContext ctx).isValid with
    | false => exact zero_invalid
    | true => exact valid
  · intro valid
    rw [spanContextFromContext, span, if_pos valid]
    rfl
  · intro key
    rw [metadata, entries, newMetadata_data]
  · rw [addr, decodeClientAddress_encode]

end roundtrip

end CollectorFormal.Xpdata
